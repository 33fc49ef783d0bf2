import Lox.Proofs.Binding.Correspondence
import Lox.Proofs.Evaluation.Correspondence
import Lox.Proofs.Grammar.Correspondence
import Lox.Proofs.Session.Requests
import Lox.Proofs.Syntax.Renumbering

/-!
# Sessions alike

Two sessions are alike if they differ in nothing but the numbers that were given
to uses of names. Whatever both are asked, they give the same answer and stay
alike: the numbers that a text gets in one of them then stand for those it gets
in the other.
-/

namespace Lox

/-! ## Reading alike -/

/-- An expression that is read follows the rules and gets numbers of its own. -/
theorem Grammar.sound_readExpression {tokens : List Token} {next : Nat} {value : Expr}
    (accepted : (readExpression tokens next).1 = .ok value) :
    Expression (tokens.takeWhile fun token => token.kind ≠ .stop) value [] ∧
      Fresh next (readExpression tokens next).2 value.numbers := by
  obtain ⟨front, closed⟩ := split_eq tokens
  rw [← front]
  have quiet : onlyExpression.Follows Cursor.Unreported := follows_onlyExpression
  have left := quiet (.ofTokens tokens next)
  unfold readExpression at accepted ⊢
  unfold Cursor.Unreported Reading.left at left
  cases ran : onlyExpression (.ofTokens tokens next) with
  | error fault after =>
      rw [ran] at accepted
      cases accepted
  | ok found after =>
      rw [ran] at accepted left
      cases accepted
      obtain ⟨start, _, got, rest⟩ := Reading.bind_ok.mp ran
      obtain ⟨rfl, rfl⟩ := Reading.get_ok.mp got
      obtain ⟨value, middle, read, ended⟩ := Reading.bind_ok.mp rest
      obtain ⟨atEnd, last, seen, result⟩ := Reading.bind_ok.mp ended
      cases seen
      split at result
      · next exhausted =>
          cases result
          obtain ⟨derivation, fresh⟩ := ((sound_expression _ read) left).2.2 closed
          rw [List.isEmpty_iff.mp exhausted] at derivation
          exact ⟨derivation, fresh⟩
      · exact absurd result Reading.fail_ne_ok

/-- All tokens stand for themselves and all numbers for each other. -/
def Likeness.anyNumber : Likeness :=
  .exact fun _ _ => True

theorem Likeness.alike_ofTokens_same (tokens : List Token) (next next' : Nat) :
    (Cursor.ofTokens tokens next).Alike .anyNumber (.ofTokens tokens next') :=
  Grammar.alike_ofTokens (List.forall₂_same.mpr fun _ _ => rfl) rfl next next'

/-- A text holds the same program up to its numbers, or the same faults, whichever
numbers are free. -/
theorem alike_readProgram_text (source : String) (next next' : Nat) :
    Grammar.ReadAlike (List.Forall₂ (Stmt.Alike .anyNumber)) Eq (readProgram source next).1
      (readProgram source next').1 := by
  unfold readProgram
  generalize scan source = scanned
  obtain ⟨tokens, lexical⟩ := scanned
  have read := Grammar.alike_readProgram (fun _ _ => trivial)
    (Likeness.alike_ofTokens_same tokens next next')
  dsimp only
  generalize Grammar.readProgram tokens next = found,
    Grammar.readProgram tokens next' = found' at read ⊢
  obtain ⟨result, after⟩ := found
  obtain ⟨result', after'⟩ := found'
  dsimp only at read ⊢
  cases read with
  | ok same =>
      cases lexical with
      | nil => exact .ok same
      | cons first rest => exact .error rfl
  | error same =>
      rw [Diagnostic.list_eq same]
      cases lexical <;> exact .error rfl

/-- A text holds the same expression up to its numbers, or the same fault. -/
theorem alike_readExpression_text (source : String) (next next' : Nat) :
    Grammar.ReadAlike (Expr.Alike .anyNumber) Eq (readExpression source next).1
      (readExpression source next').1 := by
  unfold readExpression
  generalize scan source = scanned
  obtain ⟨tokens, lexical⟩ := scanned
  have read := Grammar.alike_readExpression (fun _ _ => trivial)
    (Likeness.alike_ofTokens_same tokens next next')
  cases lexical with
  | cons first rest => exact .error rfl
  | nil =>
      dsimp only
      generalize Grammar.readExpression tokens next = found,
        Grammar.readExpression tokens next' = found' at read ⊢
      obtain ⟨result, after⟩ := found
      obtain ⟨result', after'⟩ := found'
      dsimp only at read ⊢
      cases read with
      | ok same => exact .ok same
      | error same =>
          rw [same.eq]
          exact .error rfl

/-- A text holds an expression if it has no lexical fault and its tokens are read as
that expression. -/
theorem readExpression_ok_iff {source : String} {next : Nat} {value : Expr} :
    (readExpression source next).1 = .ok value ↔
      (scan source).2 = [] ∧ (Grammar.readExpression (scan source).1 next).1 = .ok value := by
  unfold readExpression
  generalize scan source = scanned
  obtain ⟨tokens, lexical⟩ := scanned
  cases lexical with
  | cons first rest => simp
  | nil =>
      dsimp only
      generalize Grammar.readExpression tokens next = found
      obtain ⟨result, after⟩ := found
      cases result <;> simp [Except.mapError]

theorem fresh_readExpression_text {source : String} {next : Nat} {value : Expr}
    (accepted : (readExpression source next).1 = .ok value) :
    Fresh next (readExpression source next).2 value.numbers := by
  obtain ⟨clean, read⟩ := readExpression_ok_iff.mp accepted
  have fresh := (Grammar.sound_readExpression read).2
  unfold readExpression
  generalize scan source = scanned at clean fresh
  obtain ⟨tokens, lexical⟩ := scanned
  dsimp only at clean fresh ⊢
  rw [clean]
  exact fresh

theorem supplies_readExpression_text (source : String) (next : Nat) :
    next ≤ (readExpression source next).2 := by
  unfold readExpression
  generalize scan source = scanned
  obtain ⟨tokens, lexical⟩ := scanned
  cases lexical <;> exact Grammar.supplies_readExpression tokens next

/-! ## Sessions alike -/

/-- Two sessions in the same state, up to numbers that stand for each other. All of
these have been given out, and no other number has a distance. -/
structure Session.Alike (number : Nat → Nat → Prop) (one other : Session) : Prop where
  machine : one.machine.Alike (.exact number) other.machine
  apart : (Likeness.exact number).OneToOne
  given : ∀ {first second : Nat}, number first second →
    first < one.nextReference ∧ second < other.nextReference
  vacant : ∀ free, one.nextReference ≤ free → one.machine.distances.get? free = none
  vacant' : ∀ free, other.nextReference ≤ free → other.machine.distances.get? free = none

/-- Two interactions end in the same way: both succeed with related results or both
with the same failure, and the sessions behind them are alike. -/
inductive Session.Agree {α β : Type} (related : Likeness → α → β → Prop) :
    EStateM.Result Failure Session α → EStateM.Result Failure Session β → Prop where
  | ok {value : α} {value' : β} {after after' : Session} {number : Nat → Nat → Prop}
      (results : related (.exact number) value value') (sessions : after.Alike number after') :
      Session.Agree related (.ok value after) (.ok value' after')
  | error {failure : Failure} {after after' : Session} {number : Nat → Nat → Prop}
      (sessions : after.Alike number after') :
      Session.Agree related (.error failure after) (.error failure after')

/-- Two interactions end in the same way in sessions alike. -/
def Session.Corresponds {α β : Type} (number : Nat → Nat → Prop) (step : Interaction α)
    (step' : Interaction β) (related : Likeness → α → β → Prop) : Prop :=
  ∀ ⦃session session' : Session⦄, session.Alike number session' →
    Session.Agree related (step session) (step' session')

namespace Session

variable {α β γ δ : Type} {number : Nat → Nat → Prop}
variable {related : Likeness → α → β → Prop} {one other : Session}

theorem corresponds_pure {value : α} {value' : β} (holds : related (.exact number) value value') :
    Corresponds number (pure value) (pure value') related :=
  fun _ _ sessions => .ok holds sessions

theorem Corresponds.imp {step : Interaction α} {step' : Interaction β}
    {weaker : Likeness → α → β → Prop} (corresponds : Corresponds number step step' related)
    (weaken : ∀ {likeness value value'}, related likeness value value' →
      weaker likeness value value') : Corresponds number step step' weaker := by
  intro session session' sessions
  have ran := corresponds sessions
  generalize step session = result, step' session' = result' at ran
  cases ran with
  | ok results behind => exact .ok (weaken results) behind
  | error behind => exact .error behind

theorem Corresponds.bind {step : Interaction α} {step' : Interaction β} {next : α → Interaction γ}
    {next' : β → Interaction δ} {final : Likeness → γ → δ → Prop}
    (front : Corresponds number step step' related)
    (back : ∀ {number value value'}, related (.exact number) value value' →
      Corresponds number (next value) (next' value') final) :
    Corresponds number (step >>= next) (step' >>= next') final := by
  intro session session' sessions
  have first := front sessions
  rw [step_bind, step_bind]
  generalize step session = result, step' session' = result' at first
  cases first with
  | ok results behind => exact back results behind
  | error behind => exact .error behind

/-! ### Reading -/

/-- More numbers may have been given out. -/
theorem Alike.supply (alike : one.Alike number other) {next next' : Nat}
    (le : one.nextReference ≤ next) (le' : other.nextReference ≤ next') :
    Session.Alike number { one with nextReference := next }
      { other with nextReference := next' } := by
  constructor
  · exact alike.machine
  · exact alike.apart
  · intro first second paired
    have below := alike.given paired
    exact ⟨Nat.lt_of_lt_of_le below.1 le, Nat.lt_of_lt_of_le below.2 le'⟩
  · exact fun free beyond => alike.vacant free (Nat.le_trans le beyond)
  · exact fun free beyond => alike.vacant' free (Nat.le_trans le' beyond)

/-- Numbers given out for the same text in two sessions stand for each other. -/
theorem Alike.extend (alike : one.Alike number other) {next next' : Nat}
    {numbers numbers' : List Nat}
    (fresh : Fresh one.nextReference next numbers)
    (fresh' : Fresh other.nextReference next' numbers') :
    Session.Alike (Likeness.extended number numbers numbers') { one with nextReference := next }
      { other with nextReference := next' } := by
  have supplied := alike.supply fresh.le fresh'.le
  have noted {first second : Nat}
      (paired : Likeness.extended number numbers numbers' first second) :
      one.machine.distances.get? first = other.machine.distances.get? second := by
    cases paired with
    | inl old => exact alike.machine.distances old
    | inr new =>
        obtain ⟨inside, inside'⟩ := List.of_mem_zip new
        rw [alike.vacant _ (fresh.range _ inside).1, alike.vacant' _ (fresh'.range _ inside').1]
  constructor
  · exact alike.machine.widen (Likeness.within_extended _ numbers numbers') noted
  · exact alike.apart.extended alike.given fresh fresh'
  · intro first second paired
    cases paired with
    | inl old => exact supplied.given old
    | inr new =>
        obtain ⟨inside, inside'⟩ := List.of_mem_zip new
        exact ⟨(fresh.range _ inside).2, (fresh'.range _ inside').2⟩
  · exact supplied.vacant
  · exact supplied.vacant'

/-- Reading the same text in both sessions. -/
theorem corresponds_reading {read : Nat → Except Failure α × Nat} (numbers : α → List Nat)
    {loose : α → α → Prop} {related : Likeness → α → α → Prop}
    (same : ∀ next next', Grammar.ReadAlike loose Eq (read next).1 (read next').1)
    (fresh : ∀ next value, (read next).1 = .ok value → Fresh next (read next).2 (numbers value))
    (supplies : ∀ next, next ≤ (read next).2)
    (paired : ∀ value value', loose value value' →
      (numbers value).length = (numbers value').length)
    (renumber : ∀ {number value value'}, loose value value' →
      List.Forall₂ number (numbers value) (numbers value') →
      related (.exact number) value value') :
    Corresponds number (reading read) (reading read) related := by
  intro session session' sessions
  have both := same session.nextReference session'.nextReference
  have given := fresh session.nextReference
  have given' := fresh session'.nextReference
  have supplied := sessions.supply (supplies session.nextReference)
    (supplies session'.nextReference)
  rw [reading_eq, reading_eq]
  generalize (read session.nextReference).1 = result,
    (read session'.nextReference).1 = result' at both given given'
  cases both with
  | error failures =>
      cases failures
      exact .error supplied
  | @ok value value' alike =>
      have numbered := Likeness.paired_extended number (paired value value' alike)
      exact .ok (renumber alike numbered)
        (sessions.extend (given value rfl) (given' value' rfl))

theorem corresponds_readProgram (source : String) :
    Corresponds number (reading (readProgram source)) (reading (readProgram source))
      fun likeness => List.Forall₂ (Stmt.Alike likeness) := by
  apply corresponds_reading Stmt.listNumbers
  · exact alike_readProgram_text source
  · exact fun _ _ read => (placed_of_read read).2
  · exact supplies_read source
  · exact fun _ _ alike => (Stmt.numbers_list alike).length_eq
  · exact fun alike paired => Stmt.renumber_list alike paired

theorem corresponds_readExpression (source : String) :
    Corresponds number (reading (readExpression source)) (reading (readExpression source))
      Expr.Alike := by
  apply corresponds_reading Expr.numbers
  · exact alike_readExpression_text source
  · exact fun _ _ read => fresh_readExpression_text read
  · exact supplies_readExpression_text source
  · exact fun _ _ alike => alike.numbers.length_eq
  · exact fun alike paired => alike.renumber paired

/-! ### Binding -/

/-- Numbers of trees alike have been given out. -/
theorem Alike.below (alike : one.Alike number other) {numbers numbers' : List Nat}
    (paired : List.Forall₂ number numbers numbers') :
    (∀ first ∈ numbers, first < one.nextReference) ∧
      ∀ second ∈ numbers', second < other.nextReference := by
  induction paired with
  | nil => simp
  | cons first _ ih =>
      have below := alike.given first
      simp only [List.mem_cons, forall_eq_or_imp]
      exact ⟨⟨below.1, ih.1⟩, below.2, ih.2⟩

theorem corresponds_bind {program program' : List Stmt}
    (alike : List.Forall₂ (Stmt.Alike (.exact number)) program program') :
    Corresponds number (Session.bind program) (Session.bind program') fun likeness _ _ =>
      List.Forall₂ (Stmt.Alike likeness) program program' := by
  intro session session' sessions
  obtain ⟨faults, noted⟩ := alike_bindProgram sessions.apart alike sessions.machine.distances
  obtain ⟨below, below'⟩ := sessions.below (Stmt.numbers_list alike)
  have bound : Session.Alike number { session with machine := session.bound program }
      { session' with machine := session'.bound program' } := by
    constructor
    · exact sessions.machine.widen (.refl _) noted
    · exact sessions.apart
    · exact sessions.given
    · intro free beyond
      refine (distances_bindProgram program _ fun own => ?_).trans (sessions.vacant free beyond)
      exact absurd (below free own) (Nat.not_lt.mpr beyond)
    · intro free beyond
      refine (distances_bindProgram program' _ fun own => ?_).trans (sessions.vacant' free beyond)
      exact absurd (below' free own) (Nat.not_lt.mpr beyond)
  rw [bind_eq, bind_eq, Diagnostic.list_eq faults]
  cases (bindProgram program' session'.machine.distances).1 with
  | nil => exact .ok alike bound
  | cons first rest => exact .error bound

/-! ### Running -/

theorem halt_eq {halt halt' : Halt} (alike : halt.Alike (.exact number) halt') : halt = halt' := by
  cases alike with
  | outOfSteps => rfl
  | fault same =>
      cases same with
      | output reason => rfl
      | _ name lines =>
          obtain ⟨token, _, rfl, rfl, rfl⟩ := lines
          rfl

/-- Running changes no distance. -/
theorem Alike.run (alike : one.Alike number other) {machine machine' : Machine}
    (machines : machine.Alike (.exact number) machine') (back : one.machine.Back machine)
    (back' : other.machine.Back machine') :
    Session.Alike number { one with machine := machine } { other with machine := machine' } := by
  constructor
  · exact machines
  · exact alike.apart
  · exact alike.given
  · intro free beyond
    exact back.distances ▸ alike.vacant free beyond
  · intro free beyond
    exact back'.distances ▸ alike.vacant' free beyond

theorem corresponds_running {run : Run α} {run' : Run β} {related : Likeness → α → β → Prop}
    (corresponds : Run.Corresponds (.exact number) run run' (related (.exact number)))
    (restores : run.Restores) (restores' : run'.Restores) :
    Corresponds number (running run) (running run') related := by
  intro session session' sessions
  have ran := corresponds sessions.machine
  have back := restores session.machine
  have back' := restores' session'.machine
  unfold running
  unfold Run.behind at back back'
  generalize run session.machine = result, run' session'.machine = result' at ran back back'
  cases ran with
  | ok results machines => exact .ok results (sessions.run machines back back')
  | error halts machines =>
      cases halt_eq halts
      exact .error (sessions.run machines back back')

/-! ### Requests -/

theorem corresponds_interpreting (steps : Nat) {program program' : List Stmt}
    (alike : List.Forall₂ (Stmt.Alike (.exact number)) program program') :
    Corresponds number (running (interpret steps program)) (running (interpret steps program'))
      fun _ _ _ => True :=
  corresponds_running (corresponds_interpret steps alike) (restores_interpret steps program)
    (restores_interpret steps program')

/-- Sessions alike give the same answer to a request. -/
theorem corresponds_perform (request : Request) :
    Corresponds number request.perform request.perform fun likeness =>
      Option.Rel (Value.Alike likeness) := by
  cases request with
  | check source =>
      refine Corresponds.bind (?_ : Corresponds number _ _ fun _ _ _ => True) fun _ =>
        corresponds_pure .none
      exact (corresponds_readProgram source).bind fun alike =>
        (corresponds_bind alike).imp fun _ => trivial
  | run steps source =>
      refine Corresponds.bind (?_ : Corresponds number _ _ fun _ _ _ => True) fun _ =>
        corresponds_pure .none
      refine (corresponds_readProgram source).bind fun alike => ?_
      exact (corresponds_bind alike).bind fun again => corresponds_interpreting steps again
  | runUnbound steps source =>
      refine Corresponds.bind (?_ : Corresponds number _ _ fun _ _ _ => True) fun _ =>
        corresponds_pure .none
      exact (corresponds_readProgram source).bind fun alike => corresponds_interpreting steps alike
  | evaluate steps source =>
      refine Corresponds.bind ?_ fun same => corresponds_pure (.some same)
      refine (corresponds_readExpression source).bind fun alike => ?_
      exact corresponds_running ((correspondsWithin _ steps).evaluate alike)
        ((restoresWithin steps).evaluate _) ((restoresWithin steps).evaluate _)

end Session

end Lox
