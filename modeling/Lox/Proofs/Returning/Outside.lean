import Lox.Proofs.Binding.Rules
import Lox.Proofs.Evaluation.Moments

/-!
# Statements outside of functions

A statement leaves the function around it only by a `return` that stands in it and not
in a function declared in it. The rules of binding allow no such `return` outside of
all functions, so there every statement that ends goes on to the next one.
-/

namespace Lox

/-! ## Steps that never return -/

/-- When the step succeeds, what follows it is next. -/
def Run.NeverReturns (step : Run Flow) : Prop :=
  ∀ before flow after, step before = .ok flow after → flow = .normal

namespace Run

variable {α : Type}

theorem neverReturns_normal : NeverReturns (pure .normal) := by
  intro before flow after ran
  cases ran
  rfl

theorem neverReturns_throw (halt : Halt) : NeverReturns (throw halt) := by
  intro before flow after ran
  cases ran

/-- Only the last step matters. -/
theorem NeverReturns.after {step : Run α} {next : α → Run Flow}
    (back : ∀ value, NeverReturns (next value)) : NeverReturns (step >>= next) := by
  intro before flow after ran
  obtain ⟨value, middle, -, rest⟩ := bind_ok.mp ran
  exact back value middle flow after rest

/-- What would follow a `return` does not matter. -/
theorem NeverReturns.bind {step : Run Flow} {next : Flow → Run Flow}
    (front : NeverReturns step) (back : NeverReturns (next .normal)) :
    NeverReturns (step >>= next) := by
  intro before flow after ran
  obtain ⟨first, middle, ranFirst, rest⟩ := bind_ok.mp ran
  cases front before first middle ranFirst
  exact back middle flow after rest

theorem neverReturns_within (environment : Environment) {step : Run Flow}
    (inside : NeverReturns step) : NeverReturns (within environment step) := by
  intro before flow after ran
  unfold within at ran
  cases result : step { before with environment := environment } with
  | ok value middle =>
      rw [result] at ran
      cases ran
      exact inside _ _ middle result
  | error halt middle =>
      rw [result] at ran
      cases ran

theorem neverReturns_sequence {execute : Stmt → Run Flow} {body : List Stmt}
    (each : ∀ statement ∈ body, NeverReturns (execute statement)) :
    NeverReturns (Flow.sequence execute body) := by
  induction body with
  | nil => exact neverReturns_normal
  | cons first rest ih =>
      have others := ih fun statement inside => each statement (.tail _ inside)
      exact (each first (.head _)).bind others

end Run

open Run

/-! ## Statements -/

/-- Whether a statement has neither a `return` nor another statement in it, apart from
those in functions declared in it. -/
def Stmt.isSimple : Stmt → Bool
  | .expression _ | .print _ | .var _ _ | .function _ | .classDecl _ _ _ => true
  | _ => false

theorem neverReturns_simple {statement : Stmt} (simple : statement.isSimple = true)
    (steps : Nat) : NeverReturns (execute steps statement) := by
  cases steps with
  | zero => exact neverReturns_throw _
  | succ steps =>
      cases statement with
      | expression value => exact .after fun _ => neverReturns_normal
      | print value => exact .after fun _ => .after fun _ => neverReturns_normal
      | var name initializer =>
          cases initializer with
          | none => exact .after fun _ => neverReturns_normal
          | some value => exact .after fun _ => .after fun _ => neverReturns_normal
      | function declaration => exact .after fun _ => .after fun _ => neverReturns_normal
      | classDecl name superclass methods =>
          cases superclass with
          | none => exact .after fun _ => neverReturns_normal
          | some superclass =>
              exact .after fun _ => .after fun _ => .after fun _ => neverReturns_normal
      | _ => cases simple

/-! ## Outside of all functions -/

/-- A statement that binding has nothing against, at a point outside of all functions. -/
def Stmt.Outside (statement : Stmt) : Prop :=
  ∃ around : Surroundings, around.callee? = none ∧ Site.faults (statement.sites around) = []

/-- Statements one behind the other are all outside if they are so together. -/
theorem Stmt.outside_of_listSites {around : Surroundings} {body : List Stmt}
    (outside : around.callee? = none) (clean : Site.faults (Stmt.listSites around body) = []) :
    ∀ statement ∈ body, statement.Outside := by
  induction body generalizing around with
  | nil => simp
  | cons first rest ih =>
      rw [Stmt.listSites, Site.faults_append, List.append_eq_nil_iff] at clean
      have others := ih (by simpa using outside) clean.2
      exact List.forall_mem_cons.mpr ⟨⟨around, outside, clean.1⟩, others⟩

/-- Outside of all functions no statement returns. -/
theorem Stmt.Outside.neverReturns {statement : Stmt} (outside : statement.Outside) (steps : Nat) :
    NeverReturns (execute steps statement) := by
  induction steps generalizing statement with
  | zero => exact neverReturns_throw _
  | succ steps ih =>
      obtain ⟨around, free, clean⟩ := outside
      cases statement with
      | block body =>
          rw [Stmt.sites] at clean
          have inside : Surroundings.callee? (.scope [] :: around) = none := free
          have members := Stmt.outside_of_listSites inside clean
          exact .after fun _ => .after fun inner => neverReturns_within inner
            (neverReturns_sequence fun statement inside => ih (members statement inside))
      | conditional condition consequent alternative =>
          simp only [Stmt.sites, Site.faults_append, List.append_eq_nil_iff] at clean
          apply NeverReturns.after
          intro value
          split
          · exact ih ⟨around, free, clean.1.2⟩
          · cases alternative with
            | none => exact neverReturns_normal
            | some statement => exact ih ⟨_, by simpa using free, clean.2⟩
      | whileLoop condition body =>
          have again : (Stmt.whileLoop condition body).Outside := ⟨around, free, clean⟩
          simp only [Stmt.sites, Site.faults_append, List.append_eq_nil_iff] at clean
          apply NeverReturns.after
          intro value
          split
          · exact (ih ⟨around, free, clean.2⟩).bind (ih again)
          · exact neverReturns_normal
      | forLoop initializer condition increment body =>
          cases initializer with
          | some initializer =>
              simp only [Stmt.sites, Site.faults_append, List.append_eq_nil_iff] at clean
              have rest : (Stmt.forLoop none condition increment body).Outside := by
                refine ⟨around.declaring initializer.declares, by simpa using free, ?_⟩
                simpa [Stmt.sites, Stmt.optionSites, Stmt.optionDeclares, and_assoc] using
                  ⟨clean.1.1.2, clean.1.2, clean.2⟩
              exact .after fun _ => ih rest
          | none =>
              have again : (Stmt.forLoop none condition increment body).Outside :=
                ⟨around, free, clean⟩
              simp only [Stmt.sites, Site.faults_append, List.append_eq_nil_iff] at clean
              apply NeverReturns.after
              intro goesOn
              split
              · refine NeverReturns.bind (ih ⟨_, ?_, clean.2⟩) ?_
                · simpa using free
                · cases increment with
                  | none => exact ih again
                  | some step => exact .after fun _ => ih again
              · exact neverReturns_normal
      | returning keyword value =>
          rw [Stmt.sites, Site.faults_cons] at clean
          simp [Site.faults, Site.fault?, free] at clean
      | expression value => exact neverReturns_simple rfl _
      | print value => exact neverReturns_simple rfl _
      | var name initializer => exact neverReturns_simple rfl _
      | function declaration => exact neverReturns_simple rfl _
      | classDecl name superclass methods => exact neverReturns_simple rfl _

/-- Every statement of a program that binding has nothing against is outside of all
functions. -/
theorem Stmt.outside_of_accepted {program : List Stmt} {distances : Distances}
    (clean : (bindProgram program distances).1 = []) :
    ∀ statement ∈ program, statement.Outside := by
  rw [faults_bindProgram] at clean
  exact Stmt.outside_of_listSites rfl clean

end Lox
