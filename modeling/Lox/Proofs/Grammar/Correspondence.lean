import Lox.Grammar.Statement
import Lox.Proofs.Syntax.Alike

/-!
# Texts alike are read alike

Reading looks at the kinds of tokens only. So lists of tokens that differ in
their lines are read in the same way, to trees alike or to the same faults, and
it makes no difference either which reference numbers are still free.
-/

namespace Lox

/-- Two cursors in front of tokens that stand for each other. Any numbers may be
free. -/
structure Cursor.Alike (likeness : Likeness) (one other : Cursor) : Prop where
  rest : List.Forall₂ likeness.token one.rest other.rest
  stop : likeness.token one.stop other.stop
  reported : List.Forall₂ (Diagnostic.Alike likeness) one.reported other.reported

/-- Two readings end in the same way: both succeed with related results or both
fail with the same fault. -/
inductive Reading.Agree {α β : Type} (likeness : Likeness) (related : α → β → Prop) :
    EStateM.Result Diagnostic Cursor α → EStateM.Result Diagnostic Cursor β → Prop where
  | ok {value : α} {value' : β} {after after' : Cursor} (results : related value value')
      (cursors : after.Alike likeness after') :
      Reading.Agree likeness related (.ok value after) (.ok value' after')
  | error {fault fault' : Diagnostic} {after after' : Cursor} (faults : fault.Alike likeness fault')
      (cursors : after.Alike likeness after') :
      Reading.Agree likeness related (.error fault after) (.error fault' after')

/-- Two steps of reading end in the same way in front of tokens alike. -/
def Reading.Corresponds {α β : Type} (likeness : Likeness) (step : Reading α) (step' : Reading β)
    (related : α → β → Prop) : Prop :=
  ∀ ⦃cursor cursor' : Cursor⦄, cursor.Alike likeness cursor' →
    Reading.Agree likeness related (step cursor) (step' cursor')

variable {likeness : Likeness}

namespace Reading

variable {α β γ δ : Type} {related : α → β → Prop}

/-! ## Single steps -/

theorem corresponds_pure {value : α} {value' : β} (holds : related value value') :
    Corresponds likeness (pure value) (pure value') related :=
  fun _ _ cursors => .ok holds cursors

theorem corresponds_get :
    Corresponds likeness (get : Reading Cursor) (get : Reading Cursor) (Cursor.Alike likeness) :=
  fun _ _ cursors => .ok cursors cursors

theorem Corresponds.bind {step : Reading α} {step' : Reading β} {next : α → Reading γ}
    {next' : β → Reading δ} {final : γ → δ → Prop}
    (front : Corresponds likeness step step' related)
    (back : ∀ {value value'}, related value value' →
      Corresponds likeness (next value) (next' value') final) :
    Corresponds likeness (step >>= next) (step' >>= next') final := by
  intro cursor cursor' cursors
  have first := front cursors
  change Agree likeness final (EStateM.bind step next cursor) (EStateM.bind step' next' cursor')
  unfold EStateM.bind
  generalize step cursor = result, step' cursor' = result' at first
  cases first with
  | ok results behind => exact back results behind
  | error faults behind => exact .error faults behind

/-- Steps that are chosen by the same condition. -/
theorem corresponds_ite {condition : Prop} [Decidable condition] {yes no : Reading α}
    {yes' no' : Reading β} (first : Corresponds likeness yes yes' related)
    (second : Corresponds likeness no no' related) :
    Corresponds likeness (if condition then yes else no) (if condition then yes' else no')
      related := by
  split
  · exact first
  · exact second

theorem corresponds_failAt {token token' : Token} (same : likeness.token token token')
    (fault : SyntaxFault) :
    Corresponds likeness (failAt token fault : Reading α) (failAt token' fault : Reading β)
      related :=
  fun _ _ cursors => .error (Diagnostic.alike_atToken _ _ same) cursors

theorem corresponds_peek : Corresponds likeness peek peek likeness.token := by
  intro cursor cursor' cursors
  refine .ok ?_ cursors
  have rest := cursors.rest
  unfold Cursor.peek
  generalize cursor.rest = tokens, cursor'.rest = tokens' at rest
  cases rest with
  | nil => exact cursors.stop
  | cons first _ => exact first

theorem corresponds_fail (fault : SyntaxFault) :
    Corresponds likeness (fail fault : Reading α) (fail fault : Reading β) related :=
  corresponds_peek.bind fun same => corresponds_failAt same fault

/-- Whether tokens are left is the same in front of tokens alike. -/
theorem corresponds_isAtEnd : Corresponds likeness isAtEnd isAtEnd Eq := by
  intro cursor cursor' cursors
  have same : cursor.rest.isEmpty = cursor'.rest.isEmpty := by
    have rest := cursors.rest
    generalize cursor.rest = tokens, cursor'.rest = tokens' at rest
    cases rest <;> rfl
  exact .ok same cursors

theorem corresponds_moved {cursor cursor' : Cursor} {rest rest' : List Token}
    (cursors : cursor.Alike likeness cursor') (same : List.Forall₂ likeness.token rest rest') :
    Cursor.Alike likeness { cursor with rest := rest } { cursor' with rest := rest' } :=
  ⟨same, cursors.stop, cursors.reported⟩

theorem corresponds_skip : Corresponds likeness skip skip fun _ _ => True := by
  intro cursor cursor' cursors
  have tails : List.Forall₂ likeness.token cursor.rest.tail cursor'.rest.tail := by
    have rest := cursors.rest
    generalize cursor.rest = tokens, cursor'.rest = tokens' at rest
    cases rest with
    | nil => exact .nil
    | cons _ others => exact others
  exact .ok trivial (corresponds_moved cursors tails)

theorem corresponds_sees (kind : Token.Kind) : Corresponds likeness (sees kind) (sees kind) Eq := by
  apply corresponds_get.bind
  intro cursor cursor' cursors
  have rest := cursors.rest
  generalize cursor.rest = tokens, cursor'.rest = tokens' at rest
  cases rest with
  | nil => exact corresponds_pure rfl
  | cons first _ =>
      dsimp only
      rw [likeness.kind first]
      exact corresponds_pure rfl

theorem corresponds_acceptWhen (wanted : Token.Kind → Bool) :
    Corresponds likeness (acceptWhen wanted) (acceptWhen wanted)
      (Option.Rel likeness.token) := by
  apply corresponds_get.bind
  intro cursor cursor' cursors
  have rest := cursors.rest
  generalize cursor.rest = tokens, cursor'.rest = tokens' at rest
  cases rest with
  | nil => exact corresponds_pure .none
  | @cons _ _ others others' first more =>
      dsimp only
      rw [likeness.kind first]
      apply corresponds_ite
      · have consumed : Corresponds likeness
            (modify fun cursor => { cursor with rest := others } : Reading PUnit)
            (modify fun cursor => { cursor with rest := others' } : Reading PUnit)
            fun _ _ => True :=
          fun _ _ before => .ok trivial (corresponds_moved before more)
        exact consumed.bind fun _ => corresponds_pure (.some first)
      · exact corresponds_pure .none

theorem corresponds_accepts (kind : Token.Kind) :
    Corresponds likeness (accepts kind) (accepts kind) Eq := by
  apply (corresponds_acceptWhen _).bind
  intro found found' same
  cases same with
  | none => exact corresponds_pure rfl
  | some _ => exact corresponds_pure rfl

theorem corresponds_expect (kind : Token.Kind) (fault : SyntaxFault) :
    Corresponds likeness (expect kind fault) (expect kind fault) likeness.token := by
  apply (corresponds_acceptWhen _).bind
  intro found found' same
  cases same with
  | none => exact corresponds_fail fault
  | some held => exact corresponds_pure held

/-- Both uses of a name get numbers that stand for each other, if all numbers do. -/
theorem corresponds_refer (any : ∀ one other, likeness.number one other) {name name' : Token}
    (same : likeness.token name name') :
    Corresponds likeness (refer name) (refer name') (Reference.Alike likeness) :=
  fun _ _ cursors => .ok ⟨same, any _ _⟩ ⟨cursors.rest, cursors.stop, cursors.reported⟩

end Reading

namespace Grammar

open Reading

/-! ## Expressions -/

section Separated

variable {α : Type} {item : Reading α} {related : α → α → Prop} {tooMany missing : SyntaxFault}

theorem corresponds_separatedAfter (corresponds : Corresponds likeness item item related)
    (bound : Nat) {done done' : List α} (before : List.Forall₂ related done done') :
    Corresponds likeness (separatedAfter item tooMany missing bound done)
      (separatedAfter item tooMany missing bound done') (List.Forall₂ related) := by
  induction bound generalizing done done' with
  | zero =>
      unfold separatedAfter
      rw [before.length_eq]
      apply corresponds_ite
      · exact Corresponds.bind (corresponds_fail _ : Corresponds likeness _ _ fun _ _ => True)
          fun _ => corresponds_fail _
      · exact corresponds_fail _
  | succ bound ih =>
      have goesOn : Corresponds likeness
          (do
            let value ← item
            if ← accepts (.mark .comma) then
              separatedAfter item tooMany missing bound (done ++ [value])
            else return done ++ [value])
          (do
            let value ← item
            if ← accepts (.mark .comma) then
              separatedAfter item tooMany missing bound (done' ++ [value])
            else return done' ++ [value])
          (List.Forall₂ related) := by
        apply corresponds.bind
        intro value value' held
        have more := List.rel_append before (.cons held .nil)
        apply (corresponds_accepts _).bind
        rintro comma _ rfl
        exact corresponds_ite (ih more) (corresponds_pure more)
      unfold separatedAfter
      rw [before.length_eq]
      apply corresponds_ite
      · exact Corresponds.bind (corresponds_fail _ : Corresponds likeness _ _ fun _ _ => True)
          fun _ => goesOn
      · exact goesOn

theorem corresponds_separated (corresponds : Corresponds likeness item item related)
    (bound : Nat) :
    Corresponds likeness (separated item tooMany missing bound)
      (separated item tooMany missing bound) (List.Forall₂ related) := by
  apply (corresponds_sees _).bind
  rintro closes _ rfl
  exact corresponds_ite (corresponds_pure .nil) (corresponds_separatedAfter corresponds bound .nil)

end Separated

section Expressions

variable {nested : Reading Expr} {bound : Nat}
variable (any : ∀ one other, likeness.number one other)
variable (inside : Corresponds likeness nested nested (Expr.Alike likeness))
include inside

theorem corresponds_arguments :
    Corresponds likeness (arguments nested bound) (arguments nested bound) fun found found' =>
      List.Forall₂ (Expr.Alike likeness) found.1 found'.1 ∧ likeness.token found.2 found'.2 := by
  apply (corresponds_separated inside bound).bind
  intro values values' same
  apply (corresponds_expect _ _).bind
  intro paren paren' token
  exact corresponds_pure ⟨same, token⟩

include any in
theorem corresponds_primary :
    Corresponds likeness (primary nested) (primary nested) (Expr.Alike likeness) := by
  apply corresponds_peek.bind
  intro token token' same
  rw [likeness.kind same]
  have literal (value : Literal) : Corresponds likeness
      (do skip; return Expr.literal value : Reading Expr)
      (do skip; return Expr.literal value : Reading Expr) (Expr.Alike likeness) :=
    corresponds_skip.bind fun _ => corresponds_pure (.literal value)
  split
  · exact literal _
  · exact literal _
  · exact literal _
  · exact literal _
  · exact literal _
  · apply corresponds_skip.bind
    intro _ _ _
    apply (corresponds_expect _ _).bind
    intro _ _ _
    apply (corresponds_expect _ _).bind
    intro method method' methods
    exact (corresponds_refer any same).bind fun use => corresponds_pure (.super use methods)
  · apply corresponds_skip.bind
    intro _ _ _
    exact (corresponds_refer any same).bind fun use => corresponds_pure (.this use)
  · apply corresponds_skip.bind
    intro _ _ _
    exact (corresponds_refer any same).bind fun use => corresponds_pure (.variable use)
  · apply corresponds_skip.bind
    intro _ _ _
    apply inside.bind
    intro inner inner' parts
    exact (corresponds_expect _ _).bind fun _ => corresponds_pure (.grouping parts)
  · exact corresponds_fail _

theorem corresponds_callsAfter (left : Nat) {callee callee' : Expr}
    (before : callee.Alike likeness callee') :
    Corresponds likeness (callsAfter nested bound left callee)
      (callsAfter nested bound left callee') (Expr.Alike likeness) := by
  induction left generalizing callee callee' with
  | zero => exact corresponds_pure before
  | succ left ih =>
      unfold callsAfter
      apply (corresponds_accepts _).bind
      rintro opens _ rfl
      apply corresponds_ite
      · apply (corresponds_arguments inside).bind
        intro found found' same
        exact ih (.call before same.2 same.1)
      · apply (corresponds_accepts _).bind
        rintro dotted _ rfl
        apply corresponds_ite
        · exact (corresponds_expect _ _).bind fun name => ih (.get before name)
        · exact corresponds_pure before

omit inside in
theorem corresponds_operatorsInFront :
    Corresponds likeness operatorsInFront operatorsInFront (List.Forall₂ likeness.token) := by
  have parted {tokens tokens' : List Token} (same : List.Forall₂ likeness.token tokens tokens') :
      List.Forall₂ likeness.token
          (tokens.takeWhile fun token => isPrefixOperator token.kind)
          (tokens'.takeWhile fun token => isPrefixOperator token.kind) ∧
        List.Forall₂ likeness.token
          (tokens.dropWhile fun token => isPrefixOperator token.kind)
          (tokens'.dropWhile fun token => isPrefixOperator token.kind) := by
    induction same with
    | nil => exact ⟨.nil, .nil⟩
    | cons first rest ih =>
        rw [List.takeWhile_cons, List.takeWhile_cons, List.dropWhile_cons, List.dropWhile_cons,
          likeness.kind first]
        split
        · exact ⟨.cons first ih.1, ih.2⟩
        · exact ⟨.nil, .cons first rest⟩
  apply corresponds_get.bind
  intro cursor cursor' cursors
  have both := parted cursors.rest
  have passed : Corresponds likeness (set { cursor with rest := _ } : Reading PUnit)
      (set { cursor' with rest := _ } : Reading PUnit) fun _ _ => True :=
    fun _ _ _ => .ok trivial (corresponds_moved cursors both.2)
  exact passed.bind fun _ => corresponds_pure both.1

include any in
theorem corresponds_unary :
    Corresponds likeness (unary nested bound) (unary nested bound) (Expr.Alike likeness) := by
  have applied {operators operators' : List Token} {operand operand' : Expr}
      (tokens : List.Forall₂ likeness.token operators operators')
      (parts : operand.Alike likeness operand') :
      (operators.foldr .unary operand).Alike likeness (operators'.foldr .unary operand') := by
    induction tokens with
    | nil => exact parts
    | cons first _ ih => exact .unary first ih
  apply corresponds_operatorsInFront.bind
  intro operators operators' tokens
  have call : Corresponds likeness (call nested bound) (call nested bound) (Expr.Alike likeness) :=
    (corresponds_primary any inside).bind fun before => corresponds_callsAfter inside bound before
  exact call.bind fun parts => corresponds_pure (applied tokens parts)

omit inside in
theorem corresponds_leftAssociative (bound : Nat) (operators : List Token.Kind)
    {build : Expr → Token → Expr → Expr} {operand : Reading Expr}
    (corresponds : Corresponds likeness operand operand (Expr.Alike likeness))
    (builds : ∀ {left left' operator operator' right right'}, Expr.Alike likeness left left' →
      likeness.token operator operator' → Expr.Alike likeness right right' →
      (build left operator right).Alike likeness (build left' operator' right')) :
    Corresponds likeness (leftAssociative operators build operand bound)
      (leftAssociative operators build operand bound) (Expr.Alike likeness) := by
  have after (bound : Nat) {left left' : Expr} (before : left.Alike likeness left') :
      Corresponds likeness (leftAssociativeAfter operators build operand bound left)
        (leftAssociativeAfter operators build operand bound left') (Expr.Alike likeness) := by
    induction bound generalizing left left' with
    | zero => exact corresponds_pure before
    | succ bound ih =>
        unfold leftAssociativeAfter
        apply (corresponds_acceptWhen _).bind
        intro found found' same
        cases same with
        | none => exact corresponds_pure before
        | some token => exact corresponds.bind fun parts => ih (builds before token parts)
  exact corresponds.bind fun before => after bound before

include any in
theorem corresponds_disjunction :
    Corresponds likeness (disjunction nested bound) (disjunction nested bound)
      (Expr.Alike likeness) := by
  have operands : Corresponds likeness (unary nested bound) (unary nested bound)
    (Expr.Alike likeness) := corresponds_unary any inside
  have factors := corresponds_leftAssociative bound [.mark .slash, .mark .star] operands .binary
  have terms := corresponds_leftAssociative bound [.mark .minus, .mark .plus] factors .binary
  have comparisons := corresponds_leftAssociative bound
    [.mark .greater, .mark .greaterEqual, .mark .less, .mark .lessEqual] terms .binary
  have equalities := corresponds_leftAssociative bound [.mark .bangEqual, .mark .equalEqual]
    comparisons .binary
  have conjunctions := corresponds_leftAssociative bound [.keyword .and] equalities .logical
  exact corresponds_leftAssociative bound _ conjunctions .logical

include any in
theorem corresponds_assignment :
    Corresponds likeness (assignment nested bound) (assignment nested bound)
      (Expr.Alike likeness) := by
  apply (corresponds_disjunction any inside).bind
  intro target target' targets
  apply (corresponds_acceptWhen _).bind
  intro found found' same
  cases same with
  | none => exact corresponds_pure targets
  | some equals =>
      apply inside.bind
      intro value value' values
      cases targets with
      | «variable» use =>
          exact (corresponds_refer any use.name).bind fun again =>
            corresponds_pure (.assign again values)
      | get parts token => exact corresponds_pure (.set parts token values)
      | _ => exact corresponds_failAt equals _

end Expressions

theorem corresponds_expression (any : ∀ one other, likeness.number one other) (bound : Nat) :
    Corresponds likeness (expression bound) (expression bound) (Expr.Alike likeness) := by
  induction bound with
  | zero => exact corresponds_fail _
  | succ bound ih => exact corresponds_assignment any ih

/-! ## Going on after a fault -/

theorem alike_fromBoundary {previous previous' : Token} {tokens tokens' : List Token}
    (before : likeness.token previous previous')
    (same : List.Forall₂ likeness.token tokens tokens') :
    List.Forall₂ likeness.token (fromBoundary previous tokens)
      (fromBoundary previous' tokens') := by
  induction same generalizing previous previous' with
  | nil => exact .nil
  | cons first rest ih =>
      unfold fromBoundary
      rw [likeness.kind before, likeness.kind first]
      split
      · exact .cons first rest
      · exact ih first

theorem alike_synchronized {tokens tokens' : List Token}
    (same : List.Forall₂ likeness.token tokens tokens') :
    List.Forall₂ likeness.token (synchronized tokens) (synchronized tokens') := by
  cases same with
  | nil => exact .nil
  | cons first rest => exact alike_fromBoundary first rest

theorem corresponds_recovering {declaration : Reading Stmt}
    (corresponds : Corresponds likeness declaration declaration (Stmt.Alike likeness)) :
    Corresponds likeness (recovering declaration) (recovering declaration)
      (Option.Rel (Stmt.Alike likeness)) := by
  intro cursor cursor' cursors
  have ran := corresponds cursors
  unfold recovering
  generalize declaration cursor = result, declaration cursor' = result' at ran
  cases ran with
  | ok results behind => exact .ok (.some results) behind
  | error faults behind =>
      exact .ok .none ⟨alike_synchronized behind.rest, behind.stop,
        List.rel_append behind.reported (.cons faults .nil)⟩

theorem corresponds_declarationsUntil {closing : Reading Bool} {declaration : Reading Stmt}
    (look : Corresponds likeness closing closing Eq)
    (corresponds : Corresponds likeness declaration declaration (Stmt.Alike likeness))
    (bound : Nat) :
    Corresponds likeness (declarationsUntil closing declaration bound)
      (declarationsUntil closing declaration bound) (List.Forall₂ (Stmt.Alike likeness)) := by
  induction bound with
  | zero => exact corresponds_pure .nil
  | succ bound ih =>
      unfold declarationsUntil
      apply corresponds_isAtEnd.bind
      rintro ended _ rfl
      apply look.bind
      rintro closed _ rfl
      apply corresponds_ite
      · exact corresponds_pure .nil
      · apply (corresponds_recovering corresponds).bind
        intro first first' declared
        apply ih.bind
        intro others others' rest
        cases declared with
        | none => exact corresponds_pure rest
        | some parts => exact corresponds_pure (.cons parts rest)

/-! ## Statements -/

section Statements

variable {nested : Position → Reading Stmt} {bound : Nat}
variable (any : ∀ one other, likeness.number one other)

section Blocks

variable (inside : ∀ position,
  Corresponds likeness (nested position) (nested position) (Stmt.Alike likeness))
include inside

theorem corresponds_block :
    Corresponds likeness (block nested bound) (block nested bound)
      (List.Forall₂ (Stmt.Alike likeness)) := by
  apply (corresponds_declarationsUntil (corresponds_sees _) (inside _) bound).bind
  intro body body' parts
  exact (corresponds_expect _ _).bind fun _ => corresponds_pure parts

theorem corresponds_function (form : FunctionForm) :
    Corresponds likeness (function nested bound form) (function nested bound form)
      (FunctionDecl.Alike likeness) := by
  apply (corresponds_expect _ _).bind
  intro name name' names
  apply (corresponds_expect _ _).bind
  intro _ _ _
  apply (corresponds_separated (corresponds_expect _ _) bound).bind
  intro parameters parameters' listed
  apply (corresponds_expect _ _).bind
  intro _ _ _
  apply (corresponds_expect _ _).bind
  intro _ _ _
  exact (corresponds_block inside).bind fun parts => corresponds_pure (.intro names listed parts)

omit inside in
theorem corresponds_methods {method : Reading FunctionDecl}
    (corresponds : Corresponds likeness method method (FunctionDecl.Alike likeness))
    (bound : Nat) :
    Corresponds likeness (methods method bound) (methods method bound)
      (List.Forall₂ (FunctionDecl.Alike likeness)) := by
  induction bound with
  | zero => exact corresponds_pure .nil
  | succ bound ih =>
      unfold methods
      apply corresponds_isAtEnd.bind
      rintro ended _ rfl
      apply (corresponds_sees _).bind
      rintro closed _ rfl
      apply corresponds_ite
      · exact corresponds_pure .nil
      · exact corresponds.bind fun first => ih.bind fun rest => corresponds_pure (.cons first rest)

omit inside in
include any in
theorem corresponds_superclass :
    Corresponds likeness superclass superclass (Option.Rel (Expr.Alike likeness)) := by
  apply (corresponds_accepts _).bind
  rintro inherits _ rfl
  apply corresponds_ite
  · apply (corresponds_expect _ _).bind
    intro name name' names
    exact (corresponds_refer any names).bind fun use => corresponds_pure (.some (.variable use))
  · exact corresponds_pure .none

include any in
theorem corresponds_classDeclaration :
    Corresponds likeness (classDeclaration nested bound) (classDeclaration nested bound)
      (Stmt.Alike likeness) := by
  apply (corresponds_expect _ _).bind
  intro name name' names
  apply (corresponds_superclass any).bind
  intro superclass superclass' above
  apply (corresponds_expect _ _).bind
  intro _ _ _
  apply (corresponds_methods (corresponds_function inside _) _).bind
  intro members members' same
  exact (corresponds_expect _ _).bind fun _ => corresponds_pure (.classDecl names above same)

end Blocks

include any

theorem corresponds_expressionUnless (kind : Token.Kind) :
    Corresponds likeness (expressionUnless kind bound) (expressionUnless kind bound)
      (Option.Rel (Expr.Alike likeness)) := by
  apply (corresponds_sees _).bind
  rintro absent _ rfl
  apply corresponds_ite
  · exact corresponds_pure .none
  · exact (corresponds_expression any bound).bind fun parts => corresponds_pure (.some parts)

theorem corresponds_variableDeclaration :
    Corresponds likeness (variableDeclaration bound) (variableDeclaration bound)
      (Stmt.Alike likeness) := by
  have value : Corresponds likeness (initialValue bound) (initialValue bound)
      (Option.Rel (Expr.Alike likeness)) := by
    apply (corresponds_accepts _).bind
    rintro given _ rfl
    apply corresponds_ite
    · exact (corresponds_expression any bound).bind fun parts => corresponds_pure (.some parts)
    · exact corresponds_pure .none
  apply (corresponds_expect _ _).bind
  intro name name' names
  apply value.bind
  intro initializer initializer' parts
  exact (corresponds_expect _ _).bind fun _ => corresponds_pure (.var names parts)

/-- An expression with a token behind it. -/
theorem corresponds_closed {build : Expr → Stmt} (kind : Token.Kind) (fault : SyntaxFault)
    (builds : ∀ {value value'}, Expr.Alike likeness value value' →
      (build value).Alike likeness (build value')) :
    Corresponds likeness
      (do
        let value ← expression bound
        let _ ← expect kind fault
        return build value)
      (do
        let value ← expression bound
        let _ ← expect kind fault
        return build value)
      (Stmt.Alike likeness) := by
  apply (corresponds_expression any bound).bind
  intro value value' parts
  exact (corresponds_expect _ _).bind fun _ => corresponds_pure (builds parts)

theorem corresponds_returnStatement {keyword keyword' : Token}
    (same : likeness.token keyword keyword') :
    Corresponds likeness (returnStatement keyword bound) (returnStatement keyword' bound)
      (Stmt.Alike likeness) := by
  apply (corresponds_expressionUnless any _).bind
  intro value value' parts
  exact (corresponds_expect _ _).bind fun _ => corresponds_pure (.returning same parts)

theorem corresponds_forInitializer :
    Corresponds likeness (forInitializer bound) (forInitializer bound)
      (Option.Rel (Stmt.Alike likeness)) := by
  apply (corresponds_accepts _).bind
  rintro absent _ rfl
  apply corresponds_ite
  · exact corresponds_pure .none
  · apply (corresponds_accepts _).bind
    rintro declares _ rfl
    apply corresponds_ite
    · exact (corresponds_variableDeclaration any).bind fun parts => corresponds_pure (.some parts)
    · exact (corresponds_closed any _ _ .expression).bind fun parts =>
        corresponds_pure (.some parts)

variable (inside : ∀ position,
  Corresponds likeness (nested position) (nested position) (Stmt.Alike likeness))
include inside

theorem corresponds_conditional :
    Corresponds likeness (conditional nested bound) (conditional nested bound)
      (Stmt.Alike likeness) := by
  have otherwise : Corresponds likeness (alternative nested) (alternative nested)
      (Option.Rel (Stmt.Alike likeness)) := by
    apply (corresponds_accepts _).bind
    rintro follows _ rfl
    apply corresponds_ite
    · exact (inside .statement).bind fun parts => corresponds_pure (.some parts)
    · exact corresponds_pure .none
  apply (corresponds_expect _ _).bind
  intro _ _ _
  apply (corresponds_expression any bound).bind
  intro condition condition' first
  apply (corresponds_expect _ _).bind
  intro _ _ _
  apply (inside .statement).bind
  intro consequent consequent' second
  exact otherwise.bind fun third => corresponds_pure (.conditional first second third)

theorem corresponds_whileLoop :
    Corresponds likeness (whileLoop nested bound) (whileLoop nested bound)
      (Stmt.Alike likeness) := by
  apply (corresponds_expect _ _).bind
  intro _ _ _
  apply (corresponds_expression any bound).bind
  intro condition condition' first
  apply (corresponds_expect _ _).bind
  intro _ _ _
  exact (inside .statement).bind fun second => corresponds_pure (.whileLoop first second)

theorem corresponds_forLoop :
    Corresponds likeness (forLoop nested bound) (forLoop nested bound) (Stmt.Alike likeness) := by
  apply (corresponds_expect _ _).bind
  intro _ _ _
  apply (corresponds_forInitializer any).bind
  intro initializer initializer' first
  apply (corresponds_expressionUnless any _).bind
  intro condition condition' second
  apply (corresponds_expect _ _).bind
  intro _ _ _
  apply (corresponds_expressionUnless any _).bind
  intro increment increment' third
  apply (corresponds_expect _ _).bind
  intro _ _ _
  exact (inside .statement).bind fun fourth =>
    corresponds_pure (.forLoop first second third fourth)

theorem corresponds_plainStatement :
    Corresponds likeness (plainStatement nested bound) (plainStatement nested bound)
      (Stmt.Alike likeness) := by
  apply corresponds_peek.bind
  intro token token' same
  rw [likeness.kind same]
  split
  · exact corresponds_skip.bind fun _ => corresponds_forLoop any inside
  · exact corresponds_skip.bind fun _ => corresponds_conditional any inside
  · exact corresponds_skip.bind fun _ => corresponds_whileLoop any inside
  · exact corresponds_skip.bind fun _ => corresponds_returnStatement any same
  · apply corresponds_skip.bind
    intro _ _ _
    exact (corresponds_block inside).bind fun parts => corresponds_pure (.block parts)
  · exact corresponds_skip.bind fun _ => corresponds_closed any _ _ .print
  · exact corresponds_closed any _ _ .expression

theorem corresponds_declaration :
    Corresponds likeness (declaration nested bound) (declaration nested bound)
      (Stmt.Alike likeness) := by
  apply corresponds_peek.bind
  intro token token' same
  rw [likeness.kind same]
  split
  · exact corresponds_skip.bind fun _ => corresponds_classDeclaration any inside
  · apply corresponds_skip.bind
    intro _ _ _
    exact (corresponds_function inside _).bind fun parts => corresponds_pure (.function parts)
  · exact corresponds_skip.bind fun _ => corresponds_variableDeclaration any
  · exact corresponds_plainStatement any inside

end Statements

theorem corresponds_statement (any : ∀ one other, likeness.number one other) (bound : Nat)
    (position : Position) :
    Corresponds likeness (statement bound position) (statement bound position)
      (Stmt.Alike likeness) := by
  induction bound generalizing position with
  | zero => exact corresponds_fail _
  | succ bound ih =>
      cases position with
      | declaration => exact corresponds_declaration any ih
      | statement => exact corresponds_plainStatement any ih

/-! ## Whole inputs -/

/-- What is read from a whole input: related results or the same faults. -/
inductive ReadAlike {α ε : Type} (related : α → α → Prop) (faulty : ε → ε → Prop) :
    Except ε α → Except ε α → Prop where
  | ok {value value' : α} (same : related value value') :
      ReadAlike related faulty (.ok value) (.ok value')
  | error {fault fault' : ε} (same : faulty fault fault') :
      ReadAlike related faulty (.error fault) (.error fault')

/-- Tokens behind the first closing one make no difference. -/
theorem alike_ofTokens {tokens tokens' : List Token}
    (same : List.Forall₂ likeness.token (Cursor.split tokens).1 (Cursor.split tokens').1)
    (stop : likeness.token (Cursor.split tokens).2 (Cursor.split tokens').2)
    (next next' : Nat) :
    (Cursor.ofTokens tokens next).Alike likeness (.ofTokens tokens' next') :=
  ⟨same, stop, .nil⟩

section Inputs

variable {tokens tokens' : List Token} {next next' : Nat}
variable (any : ∀ one other, likeness.number one other)
variable (cursors : (Cursor.ofTokens tokens next).Alike likeness (.ofTokens tokens' next'))
include any cursors

/-- From tokens alike, programs alike are read or the same faults are found. -/
theorem alike_readProgram :
    ReadAlike (List.Forall₂ (Stmt.Alike likeness)) (List.Forall₂ (Diagnostic.Alike likeness))
      (readProgram tokens next).1 (readProgram tokens' next').1 := by
  have corresponds : Corresponds likeness program program (List.Forall₂ (Stmt.Alike likeness)) := by
    apply corresponds_get.bind
    intro cursor cursor' same
    dsimp only
    rw [same.rest.length_eq]
    exact corresponds_declarationsUntil (corresponds_pure rfl) (corresponds_statement any _ _) _
  have ran := corresponds cursors
  unfold readProgram
  generalize program (.ofTokens tokens next) = result,
    program (.ofTokens tokens' next') = result' at ran
  cases ran with
  | error faults behind => exact .error (List.rel_append behind.reported (.cons faults .nil))
  | @ok statements statements' after after' results behind =>
      have reported := behind.reported
      dsimp only
      generalize after.reported = faults, after'.reported = faults' at reported
      cases reported with
      | nil => exact .ok results
      | cons first rest => exact .error (.cons first rest)

/-- From tokens alike, expressions alike are read or the same fault is found. -/
theorem alike_readExpression :
    ReadAlike (Expr.Alike likeness) (Diagnostic.Alike likeness)
      (readExpression tokens next).1 (readExpression tokens' next').1 := by
  have corresponds : Corresponds likeness onlyExpression onlyExpression (Expr.Alike likeness) := by
    apply corresponds_get.bind
    intro cursor cursor' same
    rw [same.rest.length_eq]
    apply (corresponds_expression any _).bind
    intro value value' parts
    apply corresponds_isAtEnd.bind
    rintro ended _ rfl
    exact corresponds_ite (corresponds_pure parts) (corresponds_fail _)
  have ran := corresponds cursors
  unfold readExpression
  generalize onlyExpression (.ofTokens tokens next) = result,
    onlyExpression (.ofTokens tokens' next') = result' at ran
  cases ran with
  | ok results behind => exact .ok results
  | error faults behind => exact .error faults

end Inputs

end Grammar

end Lox
