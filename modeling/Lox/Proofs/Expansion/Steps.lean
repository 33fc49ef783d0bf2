import Lox.Proofs.Evaluation.Restoring
import Lox.Proofs.Expansion.Machines

/-!
# Steps of expanded programs

An expanded program needs other numbers of steps than the program, since its loops are
nested in other ways. Of two runs one may run out of steps, then, but where neither does,
they end in the same way. Steps that are put together from such steps are such steps again.
-/

namespace Lox

/-- Which of two runs may run out of steps: that of the program, or that of the expanded
one. -/
inductive Shortage where
  | plain
  | expanded

/-- The other run has steps enough not to run out of them before this one. -/
def Shortage.Allows (short : Shortage) (steps steps' : Nat) : Prop :=
  match short with
  | .plain => 3 * steps ≤ steps'
  | .expanded => 2 * steps' ≤ steps

variable {short : Shortage} {expansion : Expansion} {layout : Padding.Layout} {padding : Padding}

/-- Two runs end in the same way, the second one of an expanded program: both succeed with
related results, or both halt with the same fault, or the one that may runs out of steps. -/
inductive Run.Matched {α β : Type} (short : Shortage) (expansion : Expansion)
    (layout : Padding.Layout) (padding : Padding) (related : Padding.Layout → α → β → Prop) :
    EStateM.Result Halt Machine α → EStateM.Result Halt Machine β → Prop where
  | ok {value : α} {value' : β} {after after' : Machine} {grown : Padding.Layout}
      (grows : layout <+: grown) (results : related grown value value')
      (machines : after.Expands expansion grown padding after') :
      Run.Matched short expansion layout padding related (.ok value after) (.ok value' after')
  | fault {fault : RuntimeFault} {after after' : Machine} {grown : Padding.Layout}
      (grows : layout <+: grown) (machines : after.Expands expansion grown padding after') :
      Run.Matched short expansion layout padding related (.error (.fault fault) after)
        (.error (.fault fault) after')
  | plain {after : Machine} {result' : EStateM.Result Halt Machine β} (stops : short = .plain) :
      Run.Matched short expansion layout padding related (.error .outOfSteps after) result'
  | expanded {result : EStateM.Result Halt Machine α} {after' : Machine}
      (stops : short = .expanded) :
      Run.Matched short expansion layout padding related result (.error .outOfSteps after')

/-- Two steps at a point of a program and of an expanded one end in the same way. -/
def Run.Matches {α β : Type} (short : Shortage) (expansion : Expansion) (layout : Padding.Layout)
    (padding : Padding) (step : Run α) (step' : Run β)
    (related : Padding.Layout → α → β → Prop) : Prop :=
  ∀ ⦃machine machine' : Machine⦄, machine.Expands expansion layout padding machine' →
    Run.Matched short expansion layout padding related (step machine) (step' machine')

namespace Run

variable {α β γ δ : Type} {related : Padding.Layout → α → β → Prop}

theorem Matched.later {grown : Padding.Layout} (grows : layout <+: grown)
    {result : EStateM.Result Halt Machine α} {result' : EStateM.Result Halt Machine β}
    (matched : Matched short expansion grown padding related result result') :
    Matched short expansion layout padding related result result' := by
  cases matched with
  | ok further results machines => exact .ok (grows.trans further) results machines
  | fault further machines => exact .fault (grows.trans further) machines
  | plain stops => exact .plain stops
  | expanded stops => exact .expanded stops

/-! ## Steps put together -/

theorem matches_pure {value : α} {value' : β} (holds : related layout value value') :
    Matches short expansion layout padding (pure value) (pure value') related :=
  fun _ _ machines => .ok List.prefix_rfl holds machines

theorem matches_fail (fault : RuntimeFault) :
    Matches short expansion layout padding (fail fault : Run α) (fail fault : Run β) related :=
  fun _ _ machines => .fault List.prefix_rfl machines

/-- A step that the expanded program has no steps for. -/
theorem matches_out (stops : short = .expanded) (step : Run α) :
    Matches short expansion layout padding step (throw .outOfSteps : Run β) related :=
  fun _ _ _ => .expanded stops

theorem matches_get : Matches short expansion layout padding (get : Run Machine)
    (get : Run Machine) fun grown => Machine.Expands expansion grown padding :=
  fun _ _ machines => .ok List.prefix_rfl machines machines

theorem Matches.bind {step : Run α} {step' : Run β} {next : α → Run γ} {next' : β → Run δ}
    {final : Padding.Layout → γ → δ → Prop}
    (front : Matches short expansion layout padding step step' related)
    (back : ∀ {grown value value'}, layout <+: grown → related grown value value' →
      Matches short expansion grown padding (next value) (next' value') final) :
    Matches short expansion layout padding (step >>= next) (step' >>= next') final := by
  intro machine machine' machines
  have first := front machines
  rw [step_bind, step_bind]
  generalize step machine = result, step' machine' = result' at first
  cases first with
  | ok grows results behind => exact (back grows results behind).later grows
  | fault grows behind => exact .fault grows behind
  | plain stops => exact .plain stops
  | expanded stops => exact .expanded stops

/-- Steps in other environments, as at the points of a program and of the expanded one. -/
theorem matches_within {inside : Padding} {environment environment' : Environment}
    (around : layout.Around inside environment environment') {step : Run α} {step' : Run β}
    (inner : Matches short expansion layout inside step step' related) :
    Matches short expansion layout padding (within environment step) (within environment' step')
      related := by
  intro machine machine' machines
  have ran := inner (machines.withEnvironment around)
  unfold within
  generalize step _ = result, step' _ = result' at ran
  cases ran with
  | ok grows results behind =>
      exact .ok grows results (behind.withEnvironment (machines.around.grow grows))
  | fault grows behind =>
      exact .fault grows (behind.withEnvironment (machines.around.grow grows))
  | plain stops => exact .plain stops
  | expanded stops => exact .expanded stops

/-- A step of the expanded program in a scope that the program does not have. -/
theorem matches_between {step : Run α} {step' : Run β} (restores : Restores step)
    (inner : ∀ {grown}, layout <+: grown →
      Matches short expansion grown padding.deepen step step' related) :
    Matches short expansion layout padding step
      (do
        let inside ← newScope (← get).environment .empty
        within inside step')
      related := by
  intro machine machine' machines
  have grows : layout <+: layout ++ [none] := List.prefix_append _ _
  have ran := inner grows machines.addBetween
  have same := (restores machine).environment
  change Matched short expansion layout padding related (step machine)
    (within ((machine'.store.addScope .empty).1 :: machine'.environment) step'
      { machine' with store := (machine'.store.addScope .empty).2 })
  unfold within
  unfold behind at same
  generalize step machine = result, step' _ = result' at ran same
  cases ran with
  | ok further results left =>
      have around := machines.around.grow (grows.trans further)
      exact .ok (grows.trans further) results { left with around := same ▸ around }
  | fault further left =>
      have around := machines.around.grow (grows.trans further)
      exact .fault (grows.trans further) { left with around := same ▸ around }
  | plain stops => exact .plain stops
  | expanded stops => exact .expanded stops

theorem matches_orFail {found : Option α} {found' : Option β} {fault : RuntimeFault}
    (same : Option.Rel (related layout) found found') :
    Matches short expansion layout padding (orFail found fault) (orFail found' fault) related := by
  cases same with
  | none => exact matches_fail fault
  | some holds => exact matches_pure holds

/-! ## Single steps -/

theorem matches_modifyStore {change change' : Store → Store}
    (changes : ∀ {store store' : Store},
      store.Expands layout (expansion.kinship layout) store' →
        (change store).Expands layout (expansion.kinship layout) (change' store')) :
    Matches short expansion layout padding (modifyStore change) (modifyStore change')
      fun _ _ _ => True :=
  fun _ _ machines => .ok List.prefix_rfl trivial (machines.withStore (changes machines.store))

theorem matches_newIdentity :
    Matches short expansion layout padding newIdentity newIdentity fun _ => Eq := by
  intro machine machine' machines
  refine .ok List.prefix_rfl machines.nextIdentity.symm { machines with nextIdentity := ?_ }
  exact congrArg (· + 1) machines.nextIdentity

/-- A new scope of both programs. -/
theorem matches_newScope {outer outer' : Environment} {inside : Padding}
    (around : layout.Around inside outer outer') {bindings bindings' : Bindings Value}
    (paired : bindings.Paired Eq (expansion.Values layout) bindings') :
    Matches short expansion layout padding (newScope outer bindings) (newScope outer' bindings')
      fun grown => grown.Around (0 :: inside) := by
  intro machine machine' machines
  have grows : layout <+: layout ++ [some ⟨machine.store.scopes.size⟩] := List.prefix_append _ _
  refine .ok grows (.scope ?_ (around.grow grows)) (machines.addScope paired)
  exact Padding.Layout.stands_concat.mpr (.inr ⟨machines.store.size, rfl⟩)

theorem matches_newInstance {cls cls' : Class} (same : cls.Akin (expansion.kinship layout) cls') :
    Matches short expansion layout padding (newInstance cls) (newInstance cls')
      fun grown => Instance.Akin (expansion.kinship grown) := by
  intro machine machine' machines
  refine .ok List.prefix_rfl ⟨?_, same⟩ (machines.withStore machines.store.addInstance)
  exact congrArg InstanceRef.mk machines.store.fields

/-- Binding a name in the innermost scope, which both programs have. -/
theorem matches_define (level : expansion.rule.declaration padding) (name : String)
    {value value' : Value} (same : expansion.Values layout value value') :
    Matches short expansion layout padding (define name value) (define name value')
      fun _ _ _ => True := by
  obtain ⟨outside, rfl⟩ := level
  intro machine machine' machines
  obtain ⟨scope, scope', outer, outer', here, here', stands⟩ := machines.around.atLevel
  have defined (machine : Machine) {scope : ScopeRef} {outer : Environment}
      (here : machine.environment = scope :: outer) (value : Value) :
      define name value machine =
        .ok () { machine with store := machine.store.define scope name value } := by
    obtain ⟨_, _, _, _, _, _, _⟩ := machine
    cases here
    rfl
  rw [defined machine here, defined machine' here']
  exact .ok List.prefix_rfl trivial (machines.withStore (machines.store.define stands name same))

section Uses

variable {reference : Reference} {machine machine' : Machine}
variable (shifts : expansion.Shifts padding reference)
include shifts

theorem matches_read :
    Matches short expansion layout padding (read reference) (read reference) expansion.Values := by
  apply matches_get.bind
  intro grown machine machine' grows machines
  apply matches_orFail
  rw [machines.plain, machines.expanded, shifts]
  cases expansion.plain.get? reference.id with
  | some distance => exact machines.store.lookupAt? machines.around distance _
  | none =>
      simp only [Option.map_none, lookup?_globalEnvironment]
      exact (machines.store.bound machines.globals).get? rfl

/-- A use assigns to the scope that stands for the one it assigns to in the program. -/
theorem target?_expands (machines : machine.Expands expansion layout padding machine') :
    Option.Rel layout.Stands (target? reference machine) (target? reference machine') := by
  unfold target?
  rw [machines.plain, machines.expanded, shifts]
  cases expansion.plain.get? reference.id with
  | some distance => exact machines.around.scopeAt? distance
  | none =>
      simp only [Option.map_none, binder?_globalEnvironment]
      rw [(machines.store.bound machines.globals).contains rfl]
      split
      · exact .some machines.globals
      · exact .none

theorem matches_write {value value' : Value} (same : expansion.Values layout value value') :
    Matches short expansion layout padding (write reference value) (write reference value')
      fun _ _ _ => True := by
  apply matches_get.bind
  intro grown machine machine' grows machines
  have found : Matches short expansion grown padding
      (orFail (target? reference machine) (.variableAt reference.name))
      (orFail (target? reference machine') (.variableAt reference.name))
      fun grown => grown.Stands := matches_orFail (target?_expands shifts machines)
  apply found.bind
  intro further scope scope' later stands
  have held := same.widen (expansion.within_kinship (grows.trans later))
  exact matches_modifyStore fun stores => stores.define stands _ held

end Uses

theorem matches_print {value value' : Value} (same : expansion.Values layout value value') :
    Matches short expansion layout padding (print value) (print value') fun _ _ _ => True := by
  intro machine machine' machines
  unfold print
  rw [same.pieces, machines.sink]
  rcases machine.sink.writeAll (value'.pieces ++ ["\n"]) with ⟨refusal, sink⟩
  have left : Machine.Expands expansion layout padding { machine with sink := sink }
      { machine' with sink := sink } := { machines with sink := rfl }
  cases refusal with
  | none => exact .ok List.prefix_rfl trivial left
  | some reason => exact .fault List.prefix_rfl left

theorem matches_flush :
    Matches short expansion layout padding flush flush fun _ _ _ => True := by
  apply matches_get.bind
  intro grown machine machine' grows machines
  rw [machines.sink]
  cases machine.sink.flush with
  | none => exact matches_pure trivial
  | some reason => exact matches_fail _

theorem matches_callHost (function : Native) (arguments arguments' : List Value) (line : Nat) :
    Matches short expansion layout padding (callHost function arguments line)
      (callHost function arguments' line) expansion.Values := by
  apply matches_get.bind
  intro grown machine machine' grows machines
  refine Matches.bind (?_ : Matches short expansion grown padding _ _ fun _ _ _ => True) ?_
  · intro _ _ _
    exact .ok List.prefix_rfl trivial
      { machines with hostCalls := congrArg (· + 1) machines.hostCalls }
  · intro _ _ _ _ _
    obtain ⟨time, tells, tells'⟩ := machines.host
    rw [tells, tells', machines.hostCalls]
    cases time function machine.hostCalls with
    | ok amount => exact matches_pure (.number amount)
    | error message => exact matches_fail _

theorem matches_ofOperator (operator : Token) {result : Except TypeFault Value}
    (plain : ∀ value, result = .ok value → ∀ kinship, value.Akin kinship value) :
    Matches short expansion layout padding (ofOperator operator result)
      (ofOperator operator result) expansion.Values := by
  cases result with
  | ok value => exact matches_pure (plain value rfl _)
  | error fault => exact matches_fail _

/-! ## Lists of expressions -/

section Lists

variable {evaluate evaluate' : Expr → Run Value}

theorem matches_goesOn {condition : Option Expr}
    (suits : ∀ value ∈ condition, expansion.Suits padding value)
    (agree : ∀ {value}, expansion.Suits padding value →
      Matches short expansion layout padding (evaluate value) (evaluate' value)
        expansion.Values) :
    Matches short expansion layout padding (goesOn evaluate condition)
      (goesOn evaluate' condition) fun _ => Eq := by
  cases condition with
  | none => exact matches_pure rfl
  | some value =>
      exact (agree (suits value rfl)).bind fun _ values => matches_pure values.isTruthy

theorem matches_collect {values : List Expr} (suits : expansion.ListSuits padding values)
    (agree : ∀ {layout value}, expansion.Suits padding value →
      Matches short expansion layout padding (evaluate value) (evaluate' value)
        expansion.Values) :
    Matches short expansion layout padding (collect evaluate values) (collect evaluate' values)
      fun grown => List.Forall₂ (expansion.Values grown) := by
  induction values generalizing layout with
  | nil => exact matches_pure .nil
  | cons first rest ih =>
      apply (agree suits.1).bind
      intro grown value value' grows held
      apply (ih suits.2).bind
      intro further others others' later rest
      exact matches_pure (.cons (held.widen (expansion.within_kinship later)) rest)

end Lists

end Run

end Lox
