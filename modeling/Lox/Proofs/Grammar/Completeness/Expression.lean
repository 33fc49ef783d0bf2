import Lox.Proofs.Grammar.Soundness.Expression

/-!
# Expressions that the rules allow are read

Whatever a rule derives, its production reads, up to the numbers of the uses of
names. A production looks one token ahead, so this needs to know what comes
behind: an expression ends in front of a semicolon, a comma or a closing
parenthesis everywhere in the grammar, and an operand ends in front of a token
that its own level does not take.
-/

namespace Lox.Grammar

open Reading

/-! ## Readings that succeed -/

/-- A reading succeeds, leaves the given tokens behind and reports no fault. -/
def Reads {α : Type} (reading : Reading α) (before : Cursor) (rest : List Token)
    (expected : α → Prop) : Prop :=
  ∃ value after, reading before = .ok value after ∧ after.rest = rest ∧
    after.reported = before.reported ∧ expected value

/-- Whatever a rule derives from tokens within a length is read, where the
tokens behind allow it. Trees are compared by what is left of them when their
numbers are forgotten. -/
def Complete {α β : Type} (reading : Reading α) (rule : Rule α) (forget : α → β) (length : Nat)
    (follow : α → List Token → Prop) : Prop :=
  ∀ (before : Cursor) ⦃value after⦄, rule before.rest value after → before.rest.length ≤ length →
    follow value after → Reads reading before after fun read => forget read = forget value

/-- The tokens of a rule start in a certain way. -/
def Rule.Starts {α : Type} (rule : Rule α) (starting : Token.Kind → Bool) : Prop :=
  ∀ ⦃before value after⦄, rule before value after →
    ∃ token rest, before = token :: rest ∧ starting token.kind = true

/-! ## How expressions start and end -/

/-- The kinds of tokens that start an operand without operators. -/
def startsOperand : Token.Kind → Bool
  | .keyword .nil | .keyword .true | .keyword .false | .keyword .this | .keyword .super
  | .number _ | .string _ | .identifier | .mark .leftParen => true
  | _ => false

/-- The kinds of tokens that start an expression. -/
def startsExpression (kind : Token.Kind) : Bool :=
  isPrefixOperator kind || startsOperand kind

theorem starts_call {inner : Rule Expr} : (Call inner).Starts startsOperand := by
  intro before value after derivation
  induction derivation with
  | primary value =>
      cases value with
      | literal written =>
          refine ⟨_, _, rfl, ?_⟩
          unfold literal? at written
          split at written <;> simp_all [startsOperand]
      | this kind => exact ⟨_, _, rfl, by simp [kind, startsOperand]⟩
      | reference kind => exact ⟨_, _, rfl, by simp [kind, startsOperand]⟩
      | group kind => exact ⟨_, _, rfl, by simp [kind, startsOperand]⟩
      | super kind => exact ⟨_, _, rfl, by simp [kind, startsOperand]⟩
  | call _ _ _ _ ih => exact ih
  | get _ _ _ ih => exact ih

theorem starts_operation {inner : Rule Expr} {tighter : List Level} :
    (Operation inner tighter).Starts startsExpression := by
  intro before value after derivation
  induction derivation with
  | unary value =>
      cases value with
      | call value =>
          obtain ⟨token, rest, shape, starting⟩ := starts_call value
          exact ⟨token, rest, shape, by simp [startsExpression, starting]⟩
      | operator operator =>
          exact ⟨_, _, rfl, by simpa [startsExpression, isPrefixOperator] using .inl operator⟩
  | single _ ih => exact ih
  | join _ _ _ ih => exact ih

theorem starts_expression : Expression.Starts startsExpression := by
  rintro before value after ⟨inner, within, derivation⟩
  cases derivation with
  | name kind => exact ⟨_, _, rfl, by simp [kind, startsExpression, startsOperand]⟩
  | property object =>
      obtain ⟨token, rest, shape, starting⟩ := starts_call object
      exact ⟨token, rest, shape, by simp [startsExpression, starting]⟩
  | operation value => exact starts_operation value

/-- The kinds of tokens that end an expression. -/
def endsExpression (kind : Token.Kind) : Bool :=
  kind = .mark .semicolon || kind = .mark .rightParen || kind = .mark .comma

/-- The tokens behind an expression start with one that ends it. -/
def Delimited (after : List Token) : Prop :=
  ∃ token rest, after = token :: rest ∧ endsExpression token.kind = true

/-- The kinds of tokens that go on with an operand of the given levels. -/
def continuesOperand (tighter : List Level) (kind : Token.Kind) : Bool :=
  kind = .mark .leftParen || kind = .mark .dot ||
    tighter.any fun level => level.operators.contains kind

/-- The tokens behind an operand of the given levels do not go on with it. -/
def Apart (tighter : List Level) (after : List Token) : Prop :=
  ∀ token rest, after = token :: rest → continuesOperand tighter token.kind = false

theorem Delimited.apart {after : List Token} (delimited : Delimited after) :
    Apart levels after := by
  obtain ⟨token, rest, rfl, ending⟩ := delimited
  rintro _ _ ⟨⟩
  simp only [endsExpression, Bool.or_eq_true, decide_eq_true_eq] at ending
  rcases ending with (kind | kind) | kind <;> simp [kind, continuesOperand, levels]

theorem Delimited.front {after : List Token} {kind : Token.Kind} (delimited : Delimited after)
    (other : endsExpression kind = false) : front kind after = false := by
  obtain ⟨token, rest, rfl, ending⟩ := delimited
  rw [front_cons, decide_eq_false_iff_not]
  rintro rfl
  simp [other] at ending

theorem Apart.front {tighter : List Level} {after : List Token} {kind : Token.Kind}
    (apart : Apart tighter after) (continues : continuesOperand tighter kind = true) :
    front kind after = false := by
  cases after with
  | nil => rfl
  | cons token rest =>
      rw [front_cons, decide_eq_false_iff_not]
      rintro rfl
      simp [apart token rest rfl] at continues

theorem Apart.tighter {level : Level} {tighter : List Level} {after : List Token}
    (apart : Apart (level :: tighter) after) : Apart tighter after := by
  intro token rest shape
  have whole := apart token rest shape
  simp only [continuesOperand, List.any_cons, Bool.or_eq_false_iff] at whole ⊢
  exact ⟨whole.1, whole.2.2⟩

/-- No operator of a level goes on with an operand of a tighter one. This is
what makes the levels unambiguous. -/
def Unambiguous : List Level → Prop
  | [] => True
  | level :: tighter =>
      (∀ kind ∈ level.operators, continuesOperand tighter kind = false) ∧ Unambiguous tighter

theorem unambiguous_levels : Unambiguous levels := by
  simp [Unambiguous, levels, continuesOperand]

/-! ## Lists -/

section Lists

variable {α β : Type} {item : Reading α} {rule : Rule α} {forget : α → β} {length bound : Nat}
variable {values : List α} (tooMany missing : SyntaxFault)

theorem complete_separatedAfter {before after : List Token} (cursor : Cursor) (done : List α)
    (complete : Complete item rule forget length fun _ => Delimited) (shortens : rule.Shortens)
    (derivation : Separated rule before values after) (shape : cursor.rest = before)
    (within : before.length ≤ length) (enough : before.length ≤ bound)
    (few : done.length + values.length ≤ mostArguments)
    (behind : ∃ closing rest, after = closing :: rest ∧ closing.kind = .mark .rightParen) :
    Reads (separatedAfter item tooMany missing bound done) cursor after fun read =>
      read.map forget = done.map forget ++ values.map forget := by
  induction derivation generalizing cursor bound done with
  | @last before after value derivation =>
      obtain ⟨closing, rest, rfl, kind⟩ := behind
      have progress := shortens derivation
      obtain ⟨left, rfl⟩ : ∃ left, bound = left + 1 := ⟨bound - 1, by omega⟩
      subst shape
      obtain ⟨read, middle, ran, remaining, reported, same⟩ :=
        complete cursor derivation within ⟨closing, rest, rfl, by simp [kind, endsExpression]⟩
      have unseen : front (.mark .comma) middle.rest = false := by
        rw [remaining, front_cons, kind]
        rfl
      refine ⟨done ++ [read], middle, ?_, remaining, reported, by simp [same]⟩
      refine separatedAfter_ok.mpr ⟨left, read, false, middle, middle, rfl, ?_, ran,
        accepts_of_unseen unseen, ⟨rfl, rfl⟩⟩
      simp only [List.length_singleton] at few
      omega
  | @more before middle after comma first rest derivation kind others ih =>
      have progress := shortens derivation
      obtain ⟨left, rfl⟩ : ∃ left, bound = left + 1 := ⟨bound - 1, by omega⟩
      subst shape
      obtain ⟨read, between, ran, remaining, reported, same⟩ :=
        complete cursor derivation within ⟨comma, middle, rfl, by simp [kind, endsExpression]⟩
      simp only [List.length_cons] at progress few
      have enoughLeft : middle.length ≤ left := by omega
      have fewMore : (done ++ [read]).length + rest.length ≤ mostArguments := by
        simp only [List.length_append, List.length_singleton]
        omega
      obtain ⟨values, last, follows, ended, quiet, equal⟩ :=
        ih { between with rest := middle } (done ++ [read]) rfl (by omega) enoughLeft fewMore behind
      refine ⟨values, last, ?_, ended, quiet.trans reported, by simp [equal, same]⟩
      exact separatedAfter_ok.mpr ⟨left, read, true, between, _, rfl, by omega, ran,
        accepts_of_front remaining kind, follows⟩

/-- The list is not taken for empty, because an item never starts with a closing
parenthesis. -/
theorem complete_separated {starting : Token.Kind → Bool}
    (complete : Complete item rule forget length fun _ => Delimited) (shortens : rule.Shortens)
    (starts : rule.Starts starting) (other : starting (.mark .rightParen) = false)
    (enough : length ≤ bound) :
    Complete (separated item tooMany missing bound) (Listed rule) (List.map forget) length
      fun _ after => ∃ closing rest, after = closing :: rest ∧
        closing.kind = .mark .rightParen := by
  intro before values after derivation within behind
  generalize shape : before.rest = tokens at derivation
  cases derivation with
  | none =>
      obtain ⟨closing, rest, rfl, kind⟩ := behind
      refine ⟨[], before, ?_, shape, rfl, rfl⟩
      refine bind_ok.mpr ⟨true, before, ?_, rfl⟩
      rw [sees_eq, shape, front_cons, kind]
      rfl
  | some derivation few =>
      have opens : front (.mark .rightParen) tokens = false := by
        have starting : ∃ token rest, tokens = token :: rest ∧ starting token.kind = true := by
          cases derivation with
          | last first => exact starts first
          | more first => exact starts first
        obtain ⟨token, rest, rfl, starting⟩ := starting
        rw [front_cons, decide_eq_false_iff_not]
        intro closing
        simp [closing, other] at starting
      rw [shape] at within
      obtain ⟨read, last, ran, rest⟩ := complete_separatedAfter tooMany missing before [] complete
        shortens derivation shape within (Nat.le_trans within enough) (by simpa using few) behind
      refine ⟨read, last, bind_ok.mpr ⟨false, before, ?_, ran⟩, by simpa using rest⟩
      rw [sees_eq, shape, opens]

end Lists

/-! ## Expressions -/

section Expressions

variable {nested : Reading Expr} {inner : Rule Expr} {length bound : Nat}
variable (complete : Complete nested inner Expr.unnumbered length fun _ => Delimited)
variable (spells : inner.Spells Expr.leaves) (starts : inner.Starts startsExpression)

include complete in
theorem complete_primary :
    Complete (primary nested) (Primary inner) Expr.unnumbered (length + 1) fun _ _ => True := by
  intro before value after derivation within _
  generalize shape : before.rest = tokens at derivation
  cases derivation with
  | @literal token _ value written =>
      refine ⟨.literal value, { before with rest := after }, ?_, rfl, rfl, rfl⟩
      rw [primary, bind_of_ok (peek_of_front shape)]
      unfold literal? at written
      split at written <;> cases written <;>
        · rename_i kind
          simp only [kind]
          exact bind_of_ok (skip_of_front shape)
  | @this token _ _ kind =>
      refine ⟨.this ⟨token, before.nextReference⟩,
        { before with rest := after, nextReference := before.nextReference + 1 }, ?_, rfl, rfl, rfl⟩
      rw [primary, bind_of_ok (peek_of_front shape), kind]
      exact bind_of_ok (skip_of_front shape)
  | @reference token _ _ kind =>
      refine ⟨.variable ⟨token, before.nextReference⟩,
        { before with rest := after, nextReference := before.nextReference + 1 }, ?_, rfl, rfl, rfl⟩
      rw [primary, bind_of_ok (peek_of_front shape), kind]
      exact bind_of_ok (skip_of_front shape)
  | @super token _ method _ _ kind dot methodKind =>
      refine ⟨.super ⟨token, before.nextReference⟩ method,
        { before with rest := after, nextReference := before.nextReference + 1 }, ?_, rfl, rfl, rfl⟩
      rw [primary, bind_of_ok (peek_of_front shape), kind]
      refine (bind_of_ok (skip_of_front shape)).trans ?_
      rw [bind_of_ok (expect_of_front rfl dot)]
      rw [bind_of_ok (expect_of_front rfl methodKind)]
      rfl
  | @group opening closing tokens after value kind derivation closingKind =>
      rw [shape, List.length_cons] at within
      have delimited : Delimited (closing :: after) :=
        ⟨closing, after, rfl, by simp [closingKind, endsExpression]⟩
      obtain ⟨read, last, ran, remaining, reported, same⟩ :=
        complete { before with rest := tokens } derivation (by simp only; omega) delimited
      refine ⟨.grouping read, { last with rest := after }, ?_, rfl, reported, ?_⟩
      · rw [primary, bind_of_ok (peek_of_front shape), kind]
        refine (bind_of_ok (skip_of_front shape)).trans ?_
        rw [bind_of_ok ran]
        exact bind_of_ok (expect_of_front remaining closingKind)
      · simp [same]

include complete spells starts in
theorem complete_arguments (enough : length ≤ bound) :
    Complete (arguments nested bound)
      (fun before result after =>
        Listed inner before result.1 (result.2 :: after) ∧ result.2.kind = .mark .rightParen)
      (fun result => (result.1.map Expr.unnumbered, result.2)) length fun _ _ => True := by
  rintro before ⟨values, paren⟩ after ⟨derivation, kind⟩ within _
  obtain ⟨read, middle, ran, remaining, reported, same⟩ :=
    complete_separated .tooManyArguments .expression complete
      (spells.shortens Expr.leaves_ne_nil) starts rfl enough before derivation within
      ⟨paren, after, rfl, kind⟩
  refine ⟨(read, paren), { middle with rest := after }, ?_, rfl, reported, by simp [same]⟩
  rw [arguments, bind_of_ok ran]
  exact bind_of_ok (expect_of_front remaining kind)

include complete spells starts in
/-- After a part of a call has been read, reading goes on with the rest of it. -/
theorem call_continues {before after : List Token} {value : Expr} {cursor : Cursor}
    (derivation : Call inner before value after) (shape : cursor.rest = before)
    (within : before.length ≤ length + 1) (enough : before.length ≤ bound)
    (covers : length ≤ bound) :
    ∃ read middle left, call nested bound cursor = callsAfter nested bound left read middle ∧
      middle.rest = after ∧ middle.reported = cursor.reported ∧ after.length ≤ left ∧
      read.unnumbered = value.unnumbered := by
  induction derivation with
  | primary derivation =>
      subst shape
      have spelled := (spells_primary spells).shortens Expr.leaves_ne_nil derivation
      obtain ⟨read, middle, ran, remaining, reported, same⟩ :=
        complete_primary complete cursor derivation within trivial
      exact ⟨read, middle, bound, bind_of_ok ran, remaining, reported, by omega, same⟩
  | @call before middle after opening closing callee values derivation kind listed closingKind ih =>
      obtain ⟨read, stopped, left, follows, remaining, reported, enough, same⟩ :=
        ih shape within enough
      have spelled := (spells_call spells).shortens Expr.leaves_ne_nil derivation
      simp only [List.length_cons] at enough spelled
      obtain ⟨left, rfl⟩ : ∃ fewer, left = fewer + 1 := ⟨left - 1, by omega⟩
      obtain ⟨⟨arguments, paren⟩, last, ran, ended, quiet, equal⟩ :=
        complete_arguments complete spells starts covers { stopped with rest := middle }
          (show Listed inner middle (values, closing).1 _ ∧ _ from ⟨listed, closingKind⟩)
          (by simp only; omega) trivial
      obtain ⟨equalValues, rfl⟩ := Prod.mk.inj equal
      have progress := (spells_arguments spells listed).length_eq
      simp only [List.length_cons] at progress
      refine ⟨.call read paren arguments, last, left, ?_, ended, quiet.trans reported, by omega, ?_⟩
      · rw [follows, callsAfter, bind_of_ok (accepts_of_front remaining kind)]
        exact bind_of_ok ran
      · simpa [Expr.listUnnumbered_eq_map, same] using equalValues
  | @get before after dot name object derivation kind nameKind ih =>
      obtain ⟨read, stopped, left, follows, remaining, reported, enough, same⟩ :=
        ih shape within enough
      simp only [List.length_cons] at enough
      obtain ⟨left, rfl⟩ : ∃ fewer, left = fewer + 1 := ⟨left - 1, by omega⟩
      refine ⟨.get read name, { stopped with rest := after }, left, ?_, rfl, reported, by omega, ?_⟩
      · have unseen : front (.mark .leftParen) stopped.rest = false := by
          rw [remaining, front_cons, kind]
          rfl
        rw [follows, callsAfter, bind_of_ok (accepts_of_unseen unseen)]
        simp only [Bool.false_eq_true, if_false]
        rw [bind_of_ok (accepts_of_front remaining kind)]
        exact bind_of_ok (expect_of_front rfl nameKind)
      · simp [same]

include complete spells starts in
theorem complete_call (covers : length + 1 ≤ bound) :
    Complete (call nested bound) (Call inner) Expr.unnumbered (length + 1) fun _ => Apart [] := by
  intro before value after derivation within apart
  obtain ⟨read, middle, left, follows, remaining, reported, _, same⟩ :=
    call_continues complete spells starts derivation rfl within (Nat.le_trans within covers)
      (Nat.le_of_succ_le covers)
  refine ⟨read, middle, follows.trans ?_, remaining, reported, same⟩
  cases left with
  | zero => rfl
  | succ left =>
      have noCall : front (.mark .leftParen) middle.rest = false := remaining ▸ apart.front rfl
      have noProperty : front (.mark .dot) middle.rest = false := remaining ▸ apart.front rfl
      rw [callsAfter, bind_of_ok (accepts_of_unseen noCall)]
      simp only [Bool.false_eq_true, if_false]
      rw [bind_of_ok (accepts_of_unseen noProperty)]
      rfl

theorem unary_operator {before after : Cursor} {operator : Token} {rest : List Token}
    {value : Expr} (shape : before.rest = operator :: rest)
    (kind : isPrefixOperator operator.kind = true)
    (ran : unary nested bound { before with rest := rest } = .ok value after) :
    unary nested bound before = .ok (.unary operator value) after := by
  have accepted : acceptWhen isPrefixOperator before =
      .ok (some operator) { before with rest := rest } :=
    acceptWhen_ok.mpr (.inr ⟨operator, rest, rfl, shape, kind, rfl⟩)
  rw [unary_eq, bind_of_ok accepted]
  exact bind_of_ok ran

include complete spells starts in
theorem complete_unary (covers : length + 1 ≤ bound) :
    Complete (unary nested bound) (Unary inner) Expr.unnumbered (length + 1) fun _ => Apart [] := by
  intro before value after derivation within apart
  generalize shape : before.rest = tokens at derivation
  induction derivation generalizing before with
  | call derivation =>
      obtain ⟨token, rest, rfl, starting⟩ := starts_call derivation
      have noOperator : isPrefixOperator token.kind = false := by
        unfold startsOperand at starting
        split at starting <;> simp_all [isPrefixOperator]
      rw [← shape] at derivation
      obtain ⟨read, last, ran, rest⟩ :=
        complete_call complete spells starts covers before derivation within apart
      have refused : acceptWhen isPrefixOperator before = .ok none before :=
        acceptWhen_ok.mpr (.inl ⟨rfl, rfl, by simp_all⟩)
      refine ⟨read, last, ?_, rest⟩
      rw [unary_eq, bind_of_ok refused]
      exact ran
  | @operator operator tokens after operand kind derivation ih =>
      rw [shape, List.length_cons] at within
      obtain ⟨read, last, ran, remaining, reported, same⟩ :=
        ih { before with rest := tokens } (by simp only; omega) apart rfl
      refine ⟨.unary operator read, last, ?_, remaining, reported, by simp [same]⟩
      exact unary_operator shape (by simpa [isPrefixOperator] using kind) ran

theorem unnumbered_build {level : Level} (known : level ∈ levels) {left other : Expr}
    {operator : Token} {right another : Expr} (sameLeft : left.unnumbered = other.unnumbered)
    (sameRight : right.unnumbered = another.unnumbered) :
    (level.build left operator right).unnumbered =
      (level.build other operator another).unnumbered := by
  simp only [levels, List.mem_cons, List.not_mem_nil, or_false] at known
  rcases known with rfl | rfl | rfl | rfl | rfl | rfl <;>
    simp [sameLeft, sameRight]

include spells in
theorem shortens_operation {tighter : List Level} (known : tighter ⊆ levels) :
    (Operation inner tighter).Shortens :=
  (spells_operation spells known).shortens Expr.leaves_ne_nil

include spells in
/-- After the left operand of a level has been read, reading goes on with the
rest of the level. -/
theorem operation_continues {level : Level} {tighter : List Level}
    (known : level :: tighter ⊆ levels)
    (distinct : ∀ kind ∈ level.operators, continuesOperand tighter kind = false)
    (completeOperand : Complete (operation nested bound tighter) (Operation inner tighter)
      Expr.unnumbered (length + 1) fun _ => Apart tighter)
    {before after : List Token} {value : Expr} {cursor : Cursor}
    (derivation : Operation inner (level :: tighter) before value after)
    (shape : cursor.rest = before) (within : before.length ≤ length + 1)
    (covers : length + 1 ≤ bound) (apart : Apart tighter after) :
    ∃ read middle left, operation nested bound (level :: tighter) cursor =
        leftAssociativeAfter level.operators level.build (operation nested bound tighter) left read
          middle ∧
      middle.rest = after ∧ middle.reported = cursor.reported ∧ after.length ≤ left ∧
      read.unnumbered = value.unnumbered := by
  generalize all : level :: tighter = several at derivation
  induction derivation with
  | unary => cases all
  | single operand ih =>
      cases all
      subst shape
      have progress := shortens_operation spells known (.single operand)
      obtain ⟨read, middle, ran, remaining, reported, same⟩ :=
        completeOperand cursor operand within apart
      exact ⟨read, middle, bound, bind_of_ok ran, remaining, reported, by omega, same⟩
  | @join level tighter before middle after operator left right derivation kind operand ih _ =>
      cases all
      have apartLeft : Apart tighter (operator :: middle) := by
        rintro _ _ ⟨⟩
        exact distinct _ kind
      obtain ⟨read, stopped, left, follows, remaining, reported, enough, same⟩ :=
        ih shape within apartLeft rfl
      have progress := shortens_operation spells known derivation
      have progressRight := shortens_operation spells (fun _ other => known (.tail _ other)) operand
      simp only [List.length_cons] at enough progress
      obtain ⟨left, rfl⟩ : ∃ fewer, left = fewer + 1 := ⟨left - 1, by omega⟩
      obtain ⟨readRight, last, ran, ended, quiet, equal⟩ :=
        completeOperand { stopped with rest := middle } operand (by simp only; omega) apart
      have accepted : acceptWhen level.operators.contains stopped =
          .ok (some operator) { stopped with rest := middle } :=
        acceptWhen_ok.mpr (.inr ⟨operator, middle, rfl, remaining, by simpa using kind, rfl⟩)
      refine ⟨level.build read operator readRight, last, left, ?_, ended, quiet.trans reported,
        by omega, unnumbered_build (known (.head _)) same equal⟩
      rw [follows, leftAssociativeAfter, bind_of_ok accepted]
      exact bind_of_ok ran

include complete spells starts in
theorem complete_operation {tighter : List Level} (known : tighter ⊆ levels)
    (distinct : Unambiguous tighter) (covers : length + 1 ≤ bound) :
    Complete (operation nested bound tighter) (Operation inner tighter) Expr.unnumbered
      (length + 1) fun _ => Apart tighter := by
  induction tighter with
  | nil =>
      intro before value after derivation within apart
      cases derivation with
      | unary derivation =>
          exact complete_unary complete spells starts covers before derivation within apart
  | cons level tighter ih =>
      intro before value after derivation within apart
      have completeOperand := ih (fun _ other => known (.tail _ other)) distinct.2
      obtain ⟨read, middle, left, follows, remaining, reported, _, same⟩ :=
        operation_continues spells known distinct.1 completeOperand derivation rfl within covers
          apart.tighter
      refine ⟨read, middle, follows.trans ?_, remaining, reported, same⟩
      cases left with
      | zero => rfl
      | succ left =>
          have refused : acceptWhen level.operators.contains middle = .ok none middle := by
            refine acceptWhen_ok.mpr (.inl ⟨rfl, rfl, ?_⟩)
            intro token rest shape
            have stays := apart token rest (remaining ▸ shape)
            simp only [continuesOperand, List.any_cons, Bool.or_eq_false_iff] at stays
            exact stays.2.1
          rw [leftAssociativeAfter, bind_of_ok refused]
          rfl

theorem Operation.of_call {tighter : List Level} {before after : List Token} {value : Expr}
    (derivation : Call inner before value after) : Operation inner tighter before value after := by
  induction tighter with
  | nil => exact .unary (.call derivation)
  | cons level tighter ih => exact .single ih

include complete spells starts in
/-- A target is read as an expression first. It stays recognizable, because the
equals sign behind it goes on with no operand. -/
theorem complete_target (covers : length + 1 ≤ bound) {before : Cursor} {target : Expr}
    {equals : Token} {after : List Token}
    (derivation : Call inner before.rest target (equals :: after))
    (within : before.rest.length ≤ length + 1) (kind : equals.kind = .mark .equal) :
    ∃ read middle, disjunction nested bound before = .ok read middle ∧
      accept (.mark .equal) middle = .ok (some equals) { middle with rest := after } ∧
      middle.reported = before.reported ∧ read.unnumbered = target.unnumbered := by
  have apart : Apart levels (equals :: after) := by
    rintro _ _ ⟨⟩
    simp [kind, continuesOperand, levels]
  obtain ⟨read, middle, ran, remaining, reported, same⟩ :=
    complete_operation complete spells starts (List.Subset.refl levels) unambiguous_levels covers
      before (.of_call derivation) within apart
  exact ⟨read, middle, ran, accept_ok.mpr (.inr ⟨equals, after, rfl, remaining, kind, rfl⟩),
    reported, same⟩

include complete spells starts in
theorem complete_assignment (covers : length + 1 ≤ bound) :
    Complete (assignment nested bound) (Assignment inner) Expr.unnumbered (length + 1)
      fun _ => Delimited := by
  intro before value after derivation within delimited
  generalize shape : before.rest = tokens at derivation
  cases derivation with
  | @name name equals behind _ stored id nameKind equal derivation =>
      rw [shape] at within
      have target : Call inner before.rest (.variable ⟨name, id⟩) (equals :: behind) := by
        rw [shape]
        exact .primary (.reference nameKind)
      obtain ⟨read, middle, ran, accepted, reported, same⟩ :=
        complete_target complete spells starts covers target (shape ▸ within) equal
      simp only [List.length_cons] at within
      obtain ⟨stored, last, ranStored, ended, quiet, equalStored⟩ :=
        complete { middle with rest := behind } derivation (by simp only; omega) delimited
      cases read with
      | «variable» reference =>
          have named : reference.name = name := by
            simpa [Reference.unnumbered] using same
          refine ⟨.assign ⟨reference.name, last.nextReference⟩ stored,
            { last with nextReference := last.nextReference + 1 }, ?_, ended,
            quiet.trans reported, ?_⟩
          · rw [assignment, bind_of_ok ran, bind_of_ok accepted]
            exact bind_of_ok ranStored
          · simp [Reference.unnumbered, equalStored, named]
      | _ => simp at same
  | @property _ behind _ dot name equals object stored derivation dotKind nameKind equal value =>
      have target : Call inner before.rest (.get object name) (equals :: behind) := by
        rw [shape]
        exact .get derivation dotKind nameKind
      obtain ⟨read, middle, ran, accepted, reported, same⟩ :=
        complete_target complete spells starts covers target within equal
      have progress := (spells_call spells).shortens Expr.leaves_ne_nil target
      simp only [List.length_cons] at progress
      obtain ⟨stored, last, ranStored, ended, quiet, equalStored⟩ :=
        complete { middle with rest := behind } value (by simp only; omega) delimited
      cases read with
      | get readObject readName =>
          obtain ⟨sameObject, rfl⟩ :
              readObject.unnumbered = object.unnumbered ∧ readName = name := by
            simpa using same
          refine ⟨.set readObject readName stored, last, ?_, ended, quiet.trans reported, ?_⟩
          · rw [assignment, bind_of_ok ran, bind_of_ok accepted]
            exact bind_of_ok ranStored
          · simp [equalStored, sameObject]
      | _ => simp at same
  | operation derivation =>
      rw [← shape] at derivation
      obtain ⟨read, middle, ran, remaining, rest⟩ :=
        complete_operation complete spells starts (List.Subset.refl levels) unambiguous_levels
          covers before derivation within delimited.apart
      have noEquals : front (.mark .equal) middle.rest = false := remaining ▸ delimited.front rfl
      refine ⟨read, middle, ?_, remaining, rest⟩
      rw [assignment, disjunction_eq, bind_of_ok ran,
        bind_of_ok (accept_ok.mpr (.inl ⟨rfl, rfl, noEquals⟩))]
      rfl

end Expressions

/-- Every expression that the rules allow is read, whatever the bound, as long as
it covers the tokens. -/
theorem complete_expression (bound : Nat) :
    Complete (expression bound) Expression Expr.unnumbered bound fun _ => Delimited := by
  intro before value after derivation within delimited
  generalize shape : before.rest = tokens at derivation
  induction derivation generalizing before bound with
  | nested inner sub derivation ih =>
      have spells : inner.Spells Expr.leaves := fun _ _ _ part => spells_expression (sub part)
      have starts : inner.Starts startsExpression := fun _ _ _ part => starts_expression (sub part)
      have progress := (spells_assignment spells).shortens Expr.leaves_ne_nil derivation
      rw [← shape] at derivation progress
      obtain ⟨bound, rfl⟩ : ∃ fewer, bound = fewer + 1 := ⟨bound - 1, by omega⟩
      have complete : Complete (expression bound) inner Expr.unnumbered bound fun _ => Delimited :=
        fun before _ _ part within delimited => ih part bound before within delimited rfl
      exact complete_assignment complete spells starts (Nat.le_refl _) before derivation within
        delimited

end Lox.Grammar
