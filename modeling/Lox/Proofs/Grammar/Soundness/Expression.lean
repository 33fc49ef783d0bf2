import Lox.Proofs.Grammar.Reading

/-!
# Expressions are read by the rules

Every production reads only what its rule allows. Each lemma assumes this of the
reading of nested parts and concludes it for one production, so the whole
grammar needs a single induction on the bound at the end. The supply of numbers
is followed along, because the resolver relies on every use of a name having a
number of its own.
-/

namespace Lox.Grammar

open Reading

/-- A reading keeps to a rule. Where it succeeds without reporting a fault, the
rule derives the result from the tokens consumed, and the numbers in the result
are the ones taken from the supply. -/
def Sound {α : Type} (reading : Reading α) (rule : Rule α) (numbers : α → List Nat) : Prop :=
  ∀ ⦃before result after⦄, reading before = .ok result after →
    before.Leads after (rule before.rest result after.rest ∧
      Fresh before.nextReference after.nextReference (numbers result))

variable {bound : Nat} {before after : Cursor}

/-! ## Lists -/

section Lists

variable {α : Type} {item : Reading α} {tooMany missing : SyntaxFault} {rule : Rule α}
variable {numbers : α → List Nat} {done values : List α}

/-- Another item is read only below the greatest length, and a comma behind it
decides whether the list goes on. -/
theorem separatedAfter_ok :
    separatedAfter item tooMany missing bound done before = .ok values after ↔
      ∃ left value more middle last, bound = left + 1 ∧ done.length < mostArguments ∧
        item before = .ok value middle ∧
        accepts (.mark .comma) middle = .ok more last ∧
        (if more then
            separatedAfter item tooMany missing left (done ++ [value]) last = .ok values after
          else done ++ [value] = values ∧ last = after) := by
  cases bound with
  | zero =>
      simp only [separatedAfter]
      constructor
      · intro read
        split at read
        · simp [bind_ok] at read
        · simp at read
      · rintro ⟨_, _, _, _, _, impossible, _⟩
        cases impossible
  | succ left =>
      simp only [separatedAfter]
      constructor
      · intro read
        split at read
        · simp [bind_ok] at read
        · rename_i within
          obtain ⟨value, middle, readValue, read⟩ := bind_ok.mp read
          obtain ⟨more, last, accepted, read⟩ := bind_ok.mp read
          refine ⟨left, value, more, middle, last, rfl, by omega, readValue, accepted, ?_⟩
          cases more with
          | true => simpa using read
          | false => simpa using read
      · rintro ⟨_, value, more, middle, last, ⟨⟩, within, readValue, accepted, read⟩
        rw [if_neg (by omega)]
        refine bind_ok.mpr ⟨value, middle, readValue, bind_ok.mpr ⟨more, last, accepted, ?_⟩⟩
        cases more with
        | true => simpa using read
        | false => simpa using read

theorem sound_separatedAfter (sound : Sound item rule numbers)
    (read : separatedAfter item tooMany missing bound done before = .ok values after) :
    before.Leads after (∃ later, values = done ++ later ∧
      Separated rule before.rest later after.rest ∧ values.length ≤ mostArguments ∧
      Fresh before.nextReference after.nextReference (later.flatMap numbers)) := by
  induction bound generalizing done before with
  | zero =>
      obtain ⟨_, _, _, _, _, impossible, _⟩ := separatedAfter_ok.mp read
      cases impossible
  | succ left ih =>
      obtain ⟨_, value, more, middle, last, ⟨⟩, within, readValue, accepted, read⟩ :=
        separatedAfter_ok.mp read
      cases more with
      | false =>
          obtain rfl := accepts_false accepted
          obtain ⟨rfl, rfl⟩ := read
          refine (sound readValue).imp ?_
          rintro ⟨derivation, fresh⟩
          refine ⟨[value], rfl, .last derivation, ?_, by simpa using fresh⟩
          simp only [List.length_append, List.length_singleton]
          omega
      | true =>
          refine ((sound readValue).trans ((leads_accepts accepted).trans (ih read))).imp ?_
          rintro ⟨⟨derivation, fresh⟩, ⟨comma, kind, shape, next⟩, later, rfl, others, length,
            freshOthers⟩
          rw [shape] at derivation
          refine ⟨value :: later, by simp, .more derivation kind others, length, ?_⟩
          rw [List.flatMap_cons]
          exact fresh.append (next ▸ freshOthers)

theorem sound_separated (sound : Sound item rule numbers) :
    Sound (separated item tooMany missing bound) (Listed rule) (List.flatMap numbers) := by
  intro before values after read
  obtain ⟨closed, seen, sees, read⟩ := bind_ok.mp read
  obtain ⟨rfl, rfl⟩ := sees_ok.mp sees
  split at read
  · obtain ⟨rfl, rfl⟩ := pure_ok.mp read
    exact .of_eq ⟨.none, .nil (Nat.le_refl _)⟩ rfl rfl
  · refine (sound_separatedAfter sound read).imp ?_
    rintro ⟨later, rfl, derivation, length, fresh⟩
    exact ⟨.some derivation length, fresh⟩

end Lists

/-! ## Expressions -/

section Expressions

variable {nested : Reading Expr} {inner : Rule Expr}

theorem sound_arguments (sound : Sound nested inner Expr.numbers) :
    Sound (arguments nested bound)
      (fun before result after =>
        Listed inner before result.1 (result.2 :: after) ∧ result.2.kind = .mark .rightParen)
      (fun result => Expr.listNumbers result.1) := by
  intro before result after read
  obtain ⟨values, middle, readValues, read⟩ := bind_ok.mp read
  obtain ⟨paren, last, expected, read⟩ := bind_ok.mp read
  obtain ⟨rfl, rfl⟩ := pure_ok.mp read
  refine ((sound_separated sound readValues).trans (leads_expect expected)).imp ?_
  rintro ⟨⟨listed, fresh⟩, kind, shape, next⟩
  rw [shape] at listed
  rw [← Expr.listNumbers_eq_flatMap] at fresh
  refine ⟨⟨listed, kind⟩, ?_⟩
  rw [next]
  exact fresh

/-- A token that writes a literal is the whole literal. -/
theorem leads_literal {value : Literal} {result : Expr}
    (written : literal? before.peek.kind = some value)
    (read : (do skip; return .literal value : Reading Expr) before = .ok result after) :
    before.Leads after (Primary inner before.rest result after.rest ∧
      Fresh before.nextReference after.nextReference result.numbers) := by
  obtain ⟨_, middle, skipped, read⟩ := bind_ok.mp read
  obtain ⟨rfl, rfl⟩ := pure_ok.mp read
  have inside : before.peek.kind ≠ .stop := by
    intro atStop
    simp [atStop, literal?] at written
  refine (leads_skip skipped rfl inside).imp ?_
  rintro ⟨shape, next⟩
  rw [shape, next]
  exact ⟨.literal written, .nil (Nat.le_refl _)⟩

theorem sound_primary (sound : Sound nested inner Expr.numbers) :
    Sound (primary nested) (Primary inner) Expr.numbers := by
  intro before value after read
  obtain ⟨token, _, peeked, read⟩ := bind_ok.mp read
  obtain ⟨rfl, rfl⟩ := peek_ok.mp peeked
  generalize seen : before.peek.kind = kind at read
  split at read
  case h_1 => exact leads_literal (by simp [seen, literal?]) read
  case h_2 => exact leads_literal (by simp [seen, literal?]) read
  case h_3 => exact leads_literal (by simp [seen, literal?]) read
  case h_4 => exact leads_literal (by simp [seen, literal?]) read
  case h_5 => exact leads_literal (by simp [seen, literal?]) read
  case h_6 =>
      obtain ⟨_, skipped, skip, read⟩ := bind_ok.mp read
      obtain ⟨dot, middle, readDot, read⟩ := bind_ok.mp read
      obtain ⟨method, last, readMethod, read⟩ := bind_ok.mp read
      obtain ⟨reference, final, referred, read⟩ := bind_ok.mp read
      obtain ⟨rfl, rfl⟩ := pure_ok.mp read
      have leads := (leads_skip skip seen (by simp)).trans
        ((leads_expect readDot).trans ((leads_expect readMethod).trans (leads_refer referred)))
      refine leads.imp ?_
      rintro ⟨⟨shape, next⟩, ⟨dotKind, dotShape, dotNext⟩, ⟨methodKind, methodShape, methodNext⟩,
        rfl, same, used⟩
      rw [shape, dotShape, methodShape, same, used, methodNext, dotNext, next]
      exact ⟨.super seen dotKind methodKind, .single _⟩
  case h_7 =>
      obtain ⟨_, skipped, skip, read⟩ := bind_ok.mp read
      obtain ⟨reference, final, referred, read⟩ := bind_ok.mp read
      obtain ⟨rfl, rfl⟩ := pure_ok.mp read
      refine ((leads_skip skip seen (by simp)).trans (leads_refer referred)).imp ?_
      rintro ⟨⟨shape, next⟩, rfl, same, used⟩
      rw [shape, same, used, next]
      exact ⟨.this seen, .single _⟩
  case h_8 =>
      obtain ⟨_, skipped, skip, read⟩ := bind_ok.mp read
      obtain ⟨reference, final, referred, read⟩ := bind_ok.mp read
      obtain ⟨rfl, rfl⟩ := pure_ok.mp read
      refine ((leads_skip skip seen (by simp)).trans (leads_refer referred)).imp ?_
      rintro ⟨⟨shape, next⟩, rfl, same, used⟩
      rw [shape, same, used, next]
      exact ⟨.reference seen, .single _⟩
  case h_9 =>
      obtain ⟨_, skipped, skip, read⟩ := bind_ok.mp read
      obtain ⟨value, middle, readValue, read⟩ := bind_ok.mp read
      obtain ⟨closing, last, readClosing, read⟩ := bind_ok.mp read
      obtain ⟨rfl, rfl⟩ := pure_ok.mp read
      have leads := (leads_skip skip seen (by simp)).trans
        ((sound readValue).trans (leads_expect readClosing))
      refine leads.imp ?_
      rintro ⟨⟨shape, next⟩, ⟨derivation, fresh⟩, closingKind, closingShape, closingNext⟩
      rw [closingShape] at derivation
      rw [shape, closingNext, ← next]
      exact ⟨.group seen derivation closingKind, fresh⟩
  case h_10 => exact absurd read fail_ne_ok

/-- What has been read stays the callee or the object of what follows. -/
theorem sound_callsAfter (sound : Sound nested inner Expr.numbers) {left : Nat}
    {callee value : Expr} (read : callsAfter nested bound left callee before = .ok value after) :
    before.Leads after (∀ start low, Call inner start callee before.rest →
      Fresh low before.nextReference callee.numbers →
      Call inner start value after.rest ∧ Fresh low after.nextReference value.numbers) := by
  induction left generalizing callee before with
  | zero =>
      obtain ⟨rfl, rfl⟩ := pure_ok.mp read
      exact .of_eq (fun _ _ derivation fresh => ⟨derivation, fresh⟩) rfl rfl
  | succ left ih =>
      obtain ⟨called, middle, accepted, read⟩ := bind_ok.mp read
      cases called with
      | true =>
          obtain ⟨⟨values, paren⟩, last, readArguments, read⟩ := bind_ok.mp read
          have leads := (leads_accepts accepted).trans
            ((sound_arguments sound readArguments).trans (ih read))
          refine leads.imp ?_
          rintro ⟨⟨opening, seen, shape, next⟩, ⟨⟨listed, kind⟩, freshArguments⟩, follows⟩
            start low derivation fresh
          rw [shape] at derivation
          rw [next] at freshArguments
          exact follows start low (.call derivation seen listed kind) (fresh.append freshArguments)
      | false =>
          obtain rfl := accepts_false accepted
          obtain ⟨selected, middle, accepted, read⟩ := bind_ok.mp read
          cases selected with
          | true =>
              obtain ⟨name, last, readName, read⟩ := bind_ok.mp read
              have leads := (leads_accepts accepted).trans ((leads_expect readName).trans (ih read))
              refine leads.imp ?_
              rintro ⟨⟨dot, seen, shape, next⟩, ⟨kind, nameShape, nameNext⟩, follows⟩
                start low derivation fresh
              rw [shape, nameShape] at derivation
              rw [← next, ← nameNext] at fresh
              exact follows start low (.get derivation seen kind) fresh
          | false =>
              obtain rfl := accepts_false accepted
              obtain ⟨rfl, rfl⟩ := pure_ok.mp read
              exact .of_eq (fun _ _ derivation fresh => ⟨derivation, fresh⟩) rfl rfl

theorem sound_call (sound : Sound nested inner Expr.numbers) :
    Sound (call nested bound) (Call inner) Expr.numbers := by
  intro before value after read
  obtain ⟨callee, middle, readCallee, read⟩ := bind_ok.mp read
  refine ((sound_primary sound readCallee).trans (sound_callsAfter sound read)).imp ?_
  rintro ⟨⟨derivation, fresh⟩, follows⟩
  exact follows _ _ (.primary derivation) fresh

theorem operatorsInFront_ok {operators : List Token} :
    operatorsInFront before = .ok operators after ↔
      (before.rest.takeWhile fun token => isPrefixOperator token.kind) = operators ∧
        { before with
          rest := before.rest.dropWhile fun token => isPrefixOperator token.kind } = after := by
  change EStateM.Result.ok _ _ = .ok operators after ↔ _
  simp

/-- The operators in front of an operand, looked for one after another. -/
theorem unary_eq (nested : Reading Expr) (bound : Nat) :
    unary nested bound = (do
      match ← acceptWhen isPrefixOperator with
      | some operator => return .unary operator (← unary nested bound)
      | none => call nested bound) := by
  have unfolded (cursor : Cursor) : unary nested bound cursor =
      (do
        let operand ← call nested bound
        return (cursor.rest.takeWhile fun (token : Token) => isPrefixOperator token.kind).foldr
          Expr.unary operand)
        { cursor with
          rest := cursor.rest.dropWhile fun token => isPrefixOperator token.kind } := rfl
  funext cursor
  rw [unfolded]
  obtain ⟨found, after, accepted⟩ := acceptWhen_total isPrefixOperator cursor
  rw [bind_of_ok accepted]
  obtain ⟨rfl, rfl, refused⟩ | ⟨operator, rest, rfl, shape, seen, rfl⟩ := acceptWhen_ok.mp accepted
  · obtain ⟨rest, stop, next, reported⟩ := cursor
    cases rest with
    | nil => simp
    | cons token rest => simp [refused token rest rfl]
  · have further := congrFun (bind_assoc (call nested bound) (fun operand => pure
      ((rest.takeWhile fun token => isPrefixOperator token.kind).foldr Expr.unary operand))
      fun operand => pure (Expr.unary operator operand))
      { cursor with rest := rest.dropWhile fun token => isPrefixOperator token.kind }
    simp only [pure_bind] at further
    simp only [shape, List.takeWhile_cons, List.dropWhile_cons, seen, if_true, List.foldr_cons]
    rw [← further]
    rfl

theorem unary_of_front {before after : List Token} {operand : Expr}
    (derivation : Unary inner (before.dropWhile fun token => isPrefixOperator token.kind)
      operand after) :
    Unary inner before
      ((before.takeWhile fun token => isPrefixOperator token.kind).foldr .unary operand) after := by
  induction before with
  | nil => exact derivation
  | cons token rest ih =>
      cases operator : isPrefixOperator token.kind with
      | true =>
          simp only [List.dropWhile_cons, operator, if_true] at derivation
          simp only [List.takeWhile_cons, operator, if_true]
          exact .operator (by simpa [isPrefixOperator] using operator) (ih derivation)
      | false =>
          simp only [List.dropWhile_cons, operator, Bool.false_eq_true, if_false] at derivation
          simp only [List.takeWhile_cons, operator, Bool.false_eq_true, if_false]
          exact derivation

theorem numbers_operators (operators : List Token) (operand : Expr) :
    (operators.foldr .unary operand).numbers = operand.numbers := by
  induction operators with
  | nil => rfl
  | cons operator others ih => simpa using ih

theorem sound_unary (sound : Sound nested inner Expr.numbers) :
    Sound (unary nested bound) (Unary inner) Expr.numbers := by
  intro before value after read
  obtain ⟨operators, middle, readOperators, read⟩ := bind_ok.mp read
  obtain ⟨rfl, rfl⟩ := operatorsInFront_ok.mp readOperators
  obtain ⟨operand, last, readOperand, read⟩ := bind_ok.mp read
  obtain ⟨rfl, rfl⟩ := pure_ok.mp read
  refine Cursor.Leads.imp (.trans (.of_eq trivial ?_ ?_) (sound_call sound readOperand)) ?_
  · rfl
  · rfl
  rintro ⟨-, derivation, fresh⟩
  rw [numbers_operators]
  exact ⟨unary_of_front (.call derivation), fresh⟩

/-! ### Levels of operators -/

/-- The reading of the levels from a given one on. -/
def operation (nested : Reading Expr) (bound : Nat) : List Level → Reading Expr
  | [] => unary nested bound
  | level :: tighter =>
      leftAssociative level.operators level.build (operation nested bound tighter) bound

/-- The levels one after another are the named productions. -/
theorem disjunction_eq (nested : Reading Expr) (bound : Nat) :
    disjunction nested bound = operation nested bound levels := rfl

theorem numbers_build {level : Level} (known : level ∈ levels) (left : Expr) (operator : Token)
    (right : Expr) :
    (level.build left operator right).numbers = left.numbers ++ right.numbers := by
  simp only [levels, List.mem_cons, List.not_mem_nil, or_false] at known
  rcases known with rfl | rfl | rfl | rfl | rfl | rfl <;> simp

theorem sound_leftAssociativeAfter {level : Level} {tighter : List Level} {operand : Reading Expr}
    (known : level ∈ levels) (sound : Sound operand (Operation inner tighter) Expr.numbers)
    {left value : Expr}
    (read : leftAssociativeAfter level.operators level.build operand bound left before =
      .ok value after) :
    before.Leads after (∀ start low, Operation inner (level :: tighter) start left before.rest →
      Fresh low before.nextReference left.numbers →
      Operation inner (level :: tighter) start value after.rest ∧
        Fresh low after.nextReference value.numbers) := by
  induction bound generalizing left before with
  | zero =>
      obtain ⟨rfl, rfl⟩ := pure_ok.mp read
      exact .of_eq (fun _ _ derivation fresh => ⟨derivation, fresh⟩) rfl rfl
  | succ bound ih =>
      obtain ⟨found, middle, accepted, read⟩ := bind_ok.mp read
      cases found with
      | none =>
          obtain rfl := acceptWhen_none accepted
          obtain ⟨rfl, rfl⟩ := pure_ok.mp read
          exact .of_eq (fun _ _ derivation fresh => ⟨derivation, fresh⟩) rfl rfl
      | some operator =>
          obtain ⟨right, last, readRight, read⟩ := bind_ok.mp read
          refine ((leads_acceptWhen accepted).trans ((sound readRight).trans (ih read))).imp ?_
          rintro ⟨⟨wanted, shape, next⟩, ⟨derivationRight, freshRight⟩, follows⟩
            start low derivation fresh
          rw [shape] at derivation
          rw [next] at freshRight
          apply follows start low (.join derivation (by simpa using wanted) derivationRight)
          rw [numbers_build known]
          exact fresh.append freshRight

theorem sound_operation (sound : Sound nested inner Expr.numbers) {tighter : List Level}
    (known : tighter ⊆ levels) :
    Sound (operation nested bound tighter) (Operation inner tighter) Expr.numbers := by
  induction tighter with
  | nil =>
      intro before value after read
      refine (sound_unary sound read).imp ?_
      rintro ⟨derivation, fresh⟩
      exact ⟨.unary derivation, fresh⟩
  | cons level tighter ih =>
      intro before value after read
      obtain ⟨left, middle, readLeft, read⟩ := bind_ok.mp read
      have soundOperand := ih fun _ membership => known (.tail _ membership)
      have leads := (soundOperand readLeft).trans
        (sound_leftAssociativeAfter (known (.head _)) soundOperand read)
      refine leads.imp ?_
      rintro ⟨⟨derivation, fresh⟩, follows⟩
      exact follows _ _ (.single derivation) fresh

/-! ### Assignments -/

/-- Whether an expression is built by an operator. -/
def isOperation : Expr → Bool
  | .unary _ _ | .binary _ _ _ | .logical _ _ _ => true
  | _ => false

/-- What no operator has built is a call. An assignment reinterprets its target
on this ground. -/
theorem call_of_operation {tighter : List Level} (known : tighter ⊆ levels)
    {before after : List Token} {value : Expr}
    (derivation : Operation inner tighter before value after)
    (target : isOperation value = false) : Call inner before value after := by
  induction derivation with
  | unary value =>
      cases value with
      | call value => exact value
      | operator => simp [isOperation] at target
  | single value ih => exact ih (fun _ membership => known (.tail _ membership)) target
  | join left operator right =>
      have built := known (.head _)
      simp only [levels, List.mem_cons, List.not_mem_nil, or_false] at built
      rcases built with rfl | rfl | rfl | rfl | rfl | rfl <;> simp [isOperation] at target

theorem name_of_call {before after : List Token} {reference : Reference}
    (derivation : Call inner before (.variable reference) after) :
    reference.name.kind = .identifier ∧ before = reference.name :: after := by
  cases derivation with
  | primary value =>
      cases value with
      | reference kind => exact ⟨kind, rfl⟩

theorem property_of_call {before after : List Token} {object : Expr} {name : Token}
    (derivation : Call inner before (.get object name) after) :
    ∃ dot, dot.kind = .mark .dot ∧ name.kind = .identifier ∧
      Call inner before object (dot :: name :: after) := by
  cases derivation with
  | primary value => cases value
  | get object dot name => exact ⟨_, dot, name, object⟩

theorem sound_assignment (sound : Sound nested inner Expr.numbers) :
    Sound (assignment nested bound) (Assignment inner) Expr.numbers := by
  intro before result after read
  obtain ⟨target, middle, readTarget, read⟩ := bind_ok.mp read
  rw [disjunction_eq] at readTarget
  have leadsTarget := sound_operation sound (List.Subset.refl levels) readTarget
  obtain ⟨found, last, accepted, read⟩ := bind_ok.mp read
  cases found with
  | none =>
      obtain rfl := acceptWhen_none accepted
      obtain ⟨rfl, rfl⟩ := pure_ok.mp read
      refine leadsTarget.imp ?_
      rintro ⟨derivation, fresh⟩
      exact ⟨.operation derivation, fresh⟩
  | some equals =>
      obtain ⟨value, behind, readValue, read⟩ := bind_ok.mp read
      have leads := leadsTarget.trans ((leads_acceptWhen accepted).trans (sound readValue))
      cases target with
      | «variable» reference =>
          obtain ⟨target, final, referred, read⟩ := bind_ok.mp read
          obtain ⟨rfl, rfl⟩ := pure_ok.mp read
          refine (leads.trans (leads_refer referred)).imp ?_
          rintro ⟨⟨⟨derivation, freshTarget⟩, ⟨equal, shape, next⟩, value, fresh⟩, rfl, same, used⟩
          obtain ⟨kind, named⟩ :=
            name_of_call (call_of_operation (List.Subset.refl levels) derivation rfl)
          rw [named, shape, same, used]
          refine ⟨.name kind (by simpa using equal) value, ?_⟩
          rw [next] at fresh
          exact (fresh.after freshTarget.le).append (.single _)
      | get object name =>
          obtain ⟨rfl, rfl⟩ := pure_ok.mp read
          refine leads.imp ?_
          rintro ⟨⟨derivation, freshObject⟩, ⟨equal, shape, next⟩, value, fresh⟩
          obtain ⟨dot, dotKind, kind, object⟩ :=
            property_of_call (call_of_operation (List.Subset.refl levels) derivation rfl)
          rw [shape] at object
          rw [next] at fresh
          exact ⟨.property object dotKind kind (by simpa using equal) value,
            freshObject.append fresh⟩
      | _ => exact absurd read failAt_ne_ok

end Expressions

/-- Whatever the bound, expressions are read by the rules. -/
theorem sound_expression (bound : Nat) : Sound (expression bound) Expression Expr.numbers := by
  induction bound with
  | zero =>
      intro before value after read
      exact absurd read fail_ne_ok
  | succ bound ih =>
      intro before value after read
      refine (sound_assignment ih read).imp ?_
      rintro ⟨derivation, fresh⟩
      exact ⟨.nested Expression (fun _ _ _ part => part) derivation, fresh⟩

end Lox.Grammar
