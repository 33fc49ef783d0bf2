import Lox.Proofs.Expansion.Calls
import Lox.Proofs.Returning.Outside

/-!
# Expanded programs run alike

An expanded program does on its machine what the program does on the other one. Each turn
of a loop is a step of its own in the program, and a few more in the expanded one; what
comes in front of the first turn is the other way round.
-/

namespace Lox

open Run

variable {short : Shortage} {expansion : Expansion} {layout : Padding.Layout} {padding : Padding}
variable {steps steps' : Nat}

/-! ## Steps -/

namespace Shortage

theorem Allows.inner (allows : short.Allows (steps + 1) (steps' + 1)) :
    short.Allows steps steps' := by
  cases short <;> unfold Allows at * <;> omega

/-- The program makes a step less in front of the first turn of a loop. -/
theorem Allows.clause (allows : short.Allows (steps + 2) (steps' + 1)) :
    short.Allows steps steps' := by
  cases short <;> unfold Allows at * <;> omega

/-- The expanded program makes a step more in each turn of a loop. -/
theorem Allows.turn (allows : short.Allows (steps + 1) (steps' + 2)) :
    short.Allows steps steps' := by
  cases short <;> unfold Allows at * <;> omega

/-- The expanded program makes another step more in front of the increment. -/
theorem Allows.increment (allows : short.Allows (steps + 1) (steps' + 2)) :
    short.Allows steps (steps' - 1) := by
  cases short <;> unfold Allows at * <;> omega

/-- Only the expanded program can have few steps where the program has one. -/
theorem Allows.expanded (allows : short.Allows (steps + 1) steps') (few : steps' < 3) :
    short = .expanded := by
  cases short
  · unfold Allows at allows
    omega
  · rfl

end Shortage

/-! ## Evaluation -/

/-- What takes no more than a number of steps ends in the same way in an expanded program
with another number of steps. -/
structure MatchesWithin (short : Shortage) (expansion : Expansion) (steps steps' : Nat) : Prop where
  evaluate : ∀ {layout padding value}, expansion.Suits padding value →
    Matches short expansion layout padding (evaluate steps value) (evaluate steps' value)
      expansion.Values
  execute : ∀ {layout padding statement statement'},
    statement.Expands expansion.rule padding statement' →
    Matches short expansion layout padding (execute steps statement) (execute steps' statement')
      fun grown => Flow.Akin (expansion.kinship grown)
  invoke : ∀ {layout padding callable callable' arguments arguments'} (line : Nat),
    callable.Akin (expansion.kinship layout) callable' →
    List.Forall₂ (expansion.Values layout) arguments arguments' →
    Matches short expansion layout padding (invoke steps callable arguments line)
      (invoke steps' callable' arguments' line) expansion.Values

/-- A run that may stop stops where it has no steps. -/
theorem matches_spent {α β : Type} {related : Padding.Layout → α → β → Prop} {step : Run α}
    {step' : Run β} (allows : short.Allows 0 steps') (plain : step = throw .outOfSteps)
    (expanded : steps' = 0 → step' = throw .outOfSteps) :
    Matches short expansion layout padding step step' related := by
  cases short with
  | plain =>
      subst plain
      exact fun _ _ _ => .plain rfl
  | expanded =>
      have none : steps' = 0 := by
        unfold Shortage.Allows at allows
        omega
      exact expanded none ▸ matches_out rfl step

theorem matchesWithin_zero (allows : short.Allows 0 steps') :
    MatchesWithin short expansion 0 steps' := by
  refine ⟨fun _ => ?_, fun _ => ?_, fun _ _ _ => ?_⟩
  all_goals exact matches_spent allows rfl fun none => none ▸ rfl

theorem matchesWithin_out (stops : short = .expanded) : MatchesWithin short expansion steps 0 :=
  ⟨fun _ => matches_out stops _, fun _ => matches_out stops _, fun _ _ _ => matches_out stops _⟩

theorem matches_evaluate (below : MatchesWithin short expansion steps steps') {value : Expr}
    (suits : expansion.Suits padding value) :
    Matches short expansion layout padding (evaluate (steps + 1) value)
      (evaluate (steps' + 1) value) expansion.Values := by
  cases value with
  | literal literal => exact matches_pure (Value.akin_literal literal)
  | grouping inner => exact below.evaluate suits
  | unary operator operand =>
      have inner : expansion.Suits padding operand := suits
      apply (below.evaluate inner).bind
      intro grown held held' _ values
      rw [values.unary]
      exact matches_ofOperator operator fun _ succeeds _ => Value.akin_unary succeeds
  | binary left operator right =>
      apply (below.evaluate suits.1).bind
      intro first one one' _ ones
      apply (below.evaluate suits.2).bind
      intro second two two' grows twos
      rw [(ones.widen (expansion.within_kinship grows)).binary twos]
      exact matches_ofOperator operator fun _ succeeds _ => Value.akin_binary succeeds
  | logical left operator right =>
      apply (below.evaluate suits.1).bind
      intro grown one one' _ ones
      rw [ones.decides]
      split
      · exact matches_pure ones
      · exact below.evaluate suits.2
  | «variable» reference => exact matches_read suits
  | assign reference value =>
      apply (below.evaluate suits.2).bind
      intro grown held held' _ values
      apply (matches_write suits.1 values).bind
      exact fun grows _ => matches_pure (values.widen (expansion.within_kinship grows))
  | call callee paren arguments =>
      apply (below.evaluate suits.1).bind
      intro first function function' _ functions
      apply (matches_collect suits.2 below.evaluate).bind
      intro second values values' grows given
      have found := (functions.widen (expansion.within_kinship grows)).callable?
      generalize function.callable? = callable, function'.callable? = callable' at found
      cases found with
      | none => exact matches_fail _
      | some same =>
          dsimp only
          rw [given.length_eq, same.arity]
          split
          · exact below.invoke paren.line same given
          · exact matches_fail _
  | get object name =>
      have inner : expansion.Suits padding object := suits
      apply (below.evaluate inner).bind
      intro grown held held' _ values
      cases values with
      | object same => exact matches_property name same
      | _ => exact matches_fail _
  | set object name value =>
      apply (below.evaluate suits.1).bind
      intro first held held' _ values
      cases values with
      | object same =>
          apply (below.evaluate suits.2).bind
          intro second stored stored' grows others
          have same := same.widen (expansion.within_kinship grows)
          apply (matches_setProperty name same others).bind
          exact fun later _ => matches_pure (others.widen (expansion.within_kinship later))
      | _ => exact matches_fail _
  | this reference => exact matches_read suits
  | super reference method => exact matches_superMethod method suits

/-! ## Loops -/

/-- A turn of a loop: its body, and then its increment. -/
def Run.turn (steps : Nat) (body : Stmt) (increment : Option Expr) : Run Flow := do
  match ← execute steps body with
  | .returned value => return .returned value
  | .normal =>
      match increment with
      | none => return .normal
      | some step =>
          let _ ← evaluate steps step
          return .normal

theorem restores_turn (steps : Nat) (body : Stmt) (increment : Option Expr) :
    Restores (turn steps body increment) := by
  have within := restoresWithin steps
  refine (within.execute body).bind fun flow => ?_
  cases flow with
  | returned value => exact restores_pure _
  | normal =>
      cases increment with
      | none => exact restores_pure _
      | some step => exact (within.evaluate step).bind fun _ => restores_pure _

/-- A loop makes its turns one by one. -/
theorem execute_forLoop (steps : Nat) (condition increment : Option Expr) (body : Stmt) :
    execute (steps + 1) (.forLoop none condition increment body) = (do
      if ← goesOn (evaluate steps) condition then
        match ← turn steps body increment with
        | .returned value => return .returned value
        | .normal => execute steps (.forLoop none condition increment body)
      else return .normal) := by
  conv_lhs => unfold execute
  refine bind_congr fun goesOn => ?_
  split
  · unfold turn
    rw [bind_assoc]
    refine bind_congr fun flow => ?_
    cases flow with
    | returned value => rw [pure_bind]
    | normal =>
        cases increment with
        | none => rw [pure_bind]
        | some step => simp only [bind_assoc, pure_bind]
  · rfl

/-- What takes less than a number of steps ends in the same way in an expanded program that
has enough steps for it. -/
def MatchesBelow (short : Shortage) (expansion : Expansion) (steps : Nat) : Prop :=
  ∀ ⦃inner inner' : Nat⦄, inner < steps → short.Allows inner inner' →
    MatchesWithin short expansion inner inner'

theorem MatchesBelow.mono (below : MatchesBelow short expansion (steps + 1)) :
    MatchesBelow short expansion steps :=
  fun _ _ less => below (Nat.lt_succ_of_lt less)

theorem matches_condition (within : MatchesWithin short expansion steps steps')
    (few : steps' = 0 → short = .expanded) {condition : Option Expr}
    (suits : ∀ value ∈ condition, expansion.Suits padding value) :
    Matches short expansion layout padding (goesOn (evaluate steps) condition)
      (evaluate steps' (condition.getD (.literal (.bool true))))
      fun _ goesOn value => value.isTruthy = goesOn := by
  cases condition with
  | some value =>
      rw [← bind_pure (evaluate steps' _)]
      exact (within.evaluate (suits value rfl)).bind fun _ values =>
        matches_pure values.isTruthy.symm
  | none =>
      cases steps' with
      | zero => exact matches_out (few rfl) _
      | succ steps' => exact matches_pure rfl

/-- In the block of an expanded loop there is one turn of the loop. -/
theorem matches_turn {body body' : Stmt} {increment : Option Expr}
    (inside : MatchesWithin short expansion steps steps')
    (behind : MatchesWithin short expansion steps (steps' - 1))
    (few : steps' = 0 → short = .expanded)
    (expands : body.Expands expansion.rule padding body')
    (suits : ∀ value ∈ increment, expansion.Suits padding value) :
    Matches short expansion layout padding (turn steps body increment)
      (Flow.sequence (execute steps') (body' :: (increment.map Stmt.expression).toList))
      fun grown => Flow.Akin (expansion.kinship grown) := by
  apply (inside.execute expands).bind
  intro grown flow flow' _ flows
  cases flows with
  | returned same => exact matches_pure (.returned same)
  | normal =>
      cases increment with
      | none => exact matches_pure .normal
      | some step =>
          cases steps' with
          | zero => exact fun _ _ _ => .expanded (few rfl)
          | succ steps' =>
              have last : Flow.sequence (execute (steps' + 1)) [.expression step] =
                  (do
                    let _ ← evaluate steps' step
                    return .normal) := by
                simp [Flow.sequence, execute]
              exact last ▸ (behind.evaluate (suits step rfl)).bind fun _ _ => matches_pure .normal

/-- A loop behind its first clause ends in the same way once it is expanded. -/
theorem matches_whileOf {condition increment : Option Expr} {body body' : Stmt}
    (tested : ∀ value ∈ condition, expansion.Suits padding value)
    (stepped : ∀ value ∈ increment, expansion.Suits padding.deepen value)
    (expands : body.Expands expansion.rule padding.deepen body')
    (below : MatchesBelow short expansion steps) (allows : short.Allows steps steps') :
    Matches short expansion layout padding (execute steps (.forLoop none condition increment body))
      (execute steps' (.whileOf condition increment body'))
      fun grown => Flow.Akin (expansion.kinship grown) := by
  -- The layout is another one in every turn, since each of them opens scopes.
  induction steps generalizing layout steps' with
  | zero => exact matches_spent allows rfl fun none => none ▸ rfl
  | succ steps ih =>
      cases steps' with
      | zero => exact matches_out (allows.expanded (by decide)) _
      | succ steps' =>
          have here {inner' : Nat} (allows : short.Allows steps inner') :
              MatchesWithin short expansion steps inner' := below (Nat.lt_succ_self steps) allows
          have few : steps' = 0 → short = .expanded := fun none =>
            allows.expanded (none ▸ by decide)
          rw [execute_forLoop]
          apply (matches_condition (here allows.inner) few tested).bind
          rintro grown _ value _ rfl
          split
          · have turned {layout : Padding.Layout} :
                Matches short expansion layout padding (turn steps body increment)
                  (execute steps' (.block (body' :: (increment.map Stmt.expression).toList)))
                  fun grown => Flow.Akin (expansion.kinship grown) := by
              cases steps' with
              | zero => exact matches_out (few rfl) _
              | succ steps' =>
                  exact matches_between (restores_turn _ _ _) fun _ =>
                    matches_turn (here allows.turn) (here allows.increment)
                      (fun none => allows.expanded (none ▸ by decide)) expands stepped
            apply turned.bind
            intro further flow flow' _ flows
            cases flows with
            | returned same => exact matches_pure (.returned same)
            | normal => exact ih below.mono allows.inner
          · exact matches_pure .normal

/-! ## Lists of statements -/

/-- The first clause of a loop, in front of it. -/
def Run.clause (steps : Nat) : Option Stmt → Run Unit
  | none => return ()
  | some statement => do
      let _ ← execute steps statement

/-- Statements follow one that never returns. -/
theorem Run.NeverReturns.sequence {execute : Stmt → Run Flow} {first : Stmt}
    (never : NeverReturns (execute first)) (rest : List Stmt) :
    Flow.sequence execute (first :: rest) = (do
      let _ ← execute first
      Flow.sequence execute rest) := by
  funext machine
  rw [Flow.sequence, step_bind, step_bind]
  cases ran : execute first machine with
  | error halt after => rfl
  | ok flow after =>
      cases never machine flow after ran
      rfl

theorem sequence_clause {clause : Option Stmt} (rest : List Stmt)
    (moved : ∀ statement ∈ clause, expansion.rule.clause statement) :
    Flow.sequence (execute steps) (clause.toList ++ rest) = (do
      Run.clause steps clause
      Flow.sequence (execute steps) rest) := by
  cases clause with
  | none => rfl
  | some statement =>
      have simple : statement.isSimple = true := by
        rcases moved statement rfl with ⟨_, _, rfl⟩ | ⟨_, rfl⟩ <;> rfl
      have never := neverReturns_simple simple steps
      simp only [Option.toList_some, List.singleton_append, never.sequence, Run.clause, bind_assoc,
        pure_bind]

theorem interpret_clause (clause : Option Stmt) (rest : List Stmt) :
    interpret steps (clause.toList ++ rest) = (do
      Run.clause steps clause
      interpret steps rest) := by
  cases clause with
  | none => rfl
  | some statement =>
      simp only [Option.toList_some, List.singleton_append, interpret, Run.clause, bind_assoc,
        pure_bind]

/-- A loop that stands in a list ends in the same way once it is expanded there. -/
theorem matches_loop {initializer : Option Stmt} {condition increment : Option Expr}
    {body body' : Stmt}
    (first : ∀ clause ∈ initializer, clause.Expands expansion.rule padding clause)
    (tested : ∀ value ∈ condition, expansion.Suits padding value)
    (stepped : ∀ value ∈ increment, expansion.Suits padding.deepen value)
    (expands : body.Expands expansion.rule padding.deepen body')
    (below : MatchesBelow short expansion (steps + 1))
    (allows : short.Allows (steps + 1) (steps' + 1)) :
    Matches short expansion layout padding
      (execute steps (.forLoop initializer condition increment body))
      (do
        Run.clause steps' initializer
        execute steps' (.whileOf condition increment body'))
      fun grown => Flow.Akin (expansion.kinship grown) := by
  cases initializer with
  | none => exact matches_whileOf tested stepped expands below.mono allows.inner
  | some clause =>
      cases steps with
      | zero => exact matches_spent allows.inner rfl fun none => absurd allows (by
          subst none
          cases short <;> unfold Shortage.Allows <;> omega)
      | succ steps =>
          have began : Matches short expansion layout padding (execute steps clause)
              (Run.clause steps' (some clause)) fun _ _ _ => True := by
            have within := below (by omega) allows.clause
            rw [← bind_pure (execute steps clause)]
            exact (within.execute (first clause rfl)).bind fun _ _ => matches_pure trivial
          exact began.bind fun _ _ =>
            matches_whileOf tested stepped expands below.mono.mono allows.clause

theorem matches_sequence {body body' : List Stmt}
    (expands : Stmt.ListExpands expansion.rule padding body body')
    (below : MatchesBelow short expansion (steps + 1))
    (allows : short.Allows (steps + 1) (steps' + 1)) :
    Matches short expansion layout padding (Flow.sequence (execute steps) body)
      (Flow.sequence (execute steps') body') fun grown => Flow.Akin (expansion.kinship grown) := by
  induction body generalizing layout body' with
  | nil =>
      cases expands
      exact matches_pure .normal
  | cons first rest ih =>
      have behind {layout : Padding.Layout} {flow flow' : Flow} {rest' : List Stmt}
          (flows : flow.Akin (expansion.kinship layout) flow')
          (tail : Stmt.ListExpands expansion.rule padding rest rest') :
          Matches short expansion layout padding
            (match flow with
            | .returned value => return .returned value
            | .normal => Flow.sequence (execute steps) rest)
            (match flow' with
            | .returned value => return .returned value
            | .normal => Flow.sequence (execute steps') rest')
            fun grown => Flow.Akin (expansion.kinship grown) := by
        cases flows with
        | normal => exact ih tail
        | returned held => exact matches_pure (.returned held)
      cases expands with
      | cons head tail =>
          have within := below (Nat.lt_succ_self steps) allows.inner
          exact (within.execute head).bind fun _ flows => behind flows tail
      | loop moved clause tested stepped bare fourth tail =>
          rw [sequence_clause _ moved, Flow.sequence, Flow.sequence, ← bind_assoc]
          have looped := @matches_loop short expansion layout padding _ _ _ _ _ _ _ clause tested
            stepped fourth below allows
          exact looped.bind fun _ flows => behind flows tail

/-! ## Statements and calls -/

/-- A loop behind its first clause. -/
theorem matches_forLoop (within : MatchesWithin short expansion steps steps')
    {condition increment : Option Expr} {body statement' : Stmt}
    (expands : (Stmt.forLoop none condition increment body).Expands expansion.rule padding
      statement') :
    Matches short expansion layout padding
      (execute (steps + 1) (.forLoop none condition increment body))
      (execute (steps' + 1) statement') fun grown => Flow.Akin (expansion.kinship grown) := by
  have again := expands
  cases expands with
  | forLoop first tested stepped fourth =>
      cases first
      apply (matches_goesOn tested within.evaluate).bind
      rintro grown goesOn _ _ rfl
      split
      · apply (within.execute fourth).bind
        intro further flow flow' _ flows
        cases flows with
        | returned same => exact matches_pure (.returned same)
        | normal =>
            cases increment with
            | none => exact within.execute again
            | some step =>
                exact (within.evaluate (stepped step rfl)).bind fun _ _ => within.execute again
      · exact matches_pure .normal

theorem matches_execute (below : MatchesBelow short expansion (steps + 1))
    (allows : short.Allows (steps + 1) (steps' + 1)) {statement statement' : Stmt}
    (expands : statement.Expands expansion.rule padding statement') :
    Matches short expansion layout padding (execute (steps + 1) statement)
      (execute (steps' + 1) statement') fun grown => Flow.Akin (expansion.kinship grown) := by
  have within := below (Nat.lt_succ_self steps) allows.inner
  have done {layout : Padding.Layout} : Matches short expansion layout padding (pure Flow.normal)
      (pure Flow.normal) fun grown => Flow.Akin (expansion.kinship grown) :=
    matches_pure .normal
  cases expands with
  | expression suits => exact (within.evaluate suits).bind fun _ _ => done
  | print suits =>
      exact (within.evaluate suits).bind fun _ values => (matches_print values).bind fun _ _ => done
  | @var _ name initializer level suits =>
      cases initializer with
      | none => exact (matches_define level _ .nil).bind fun _ _ => done
      | some value =>
          exact (within.evaluate (suits value rfl)).bind fun _ values =>
            (matches_define level _ values).bind fun _ _ => done
  | block parts =>
      apply matches_get.bind
      intro first machine machine' _ machines
      apply (matches_newScope machines.around Bindings.paired_empty).bind
      intro second inner inner' _ around
      exact matches_within around (matches_sequence parts below allows)
  | conditional suits second third =>
      apply (within.evaluate suits).bind
      intro grown held held' _ values
      rw [values.isTruthy]
      split
      · exact within.execute second
      · cases third with
        | none => exact done
        | some alternative => exact within.execute alternative
  | whileLoop suits second =>
      apply (within.evaluate suits).bind
      intro first held held' _ values
      rw [values.isTruthy]
      split
      · apply (within.execute second).bind
        intro grown flow flow' _ flows
        cases flows with
        | normal => exact within.execute (.whileLoop suits second)
        | returned same => exact matches_pure (.returned same)
      · exact done
  | forLoop first tested stepped fourth =>
      have again := Stmt.Expands.forLoop .none tested stepped fourth
      cases first with
      | none => exact matches_forLoop within again
      | some initializer =>
          exact (within.execute initializer).bind fun _ _ => within.execute again
  | function level parts =>
      have name := parts.name
      have declares : Matches short expansion layout padding (Closure.declare _ false)
          (Closure.declare _ false) (Closure.Expands expansion id) :=
        matches_declare parts fun initializes => absurd initializes Bool.false_ne_true
      apply declares.bind
      intro grown closure closure' _ closures
      rw [name]
      exact (matches_define level _ (.function closures)).bind fun _ _ => done
  | @returning _ _ value suits =>
      cases value with
      | none => exact matches_pure (.returned .nil)
      | some value =>
          exact (within.evaluate (suits value rfl)).bind fun _ values =>
            matches_pure (.returned values)
  | @classDecl _ name superclass _ _ level suits parts =>
      cases superclass with
      | none => exact (matches_declareClass level name .none parts).bind fun _ _ => done
      | some superclass =>
          apply (within.evaluate (suits superclass rfl)).bind
          intro first held held' _ values
          apply (matches_superclassOf name superclass values).bind
          intro second found found' _ classes
          exact (matches_declareClass level name (.some classes) parts).bind fun _ _ => done

theorem matches_invoke (below : MatchesBelow short expansion (steps + 1))
    (allows : short.Allows (steps + 1) (steps' + 1)) {callable callable' : Callable}
    {arguments arguments' : List Value} (line : Nat)
    (same : callable.Akin (expansion.kinship layout) callable')
    (given : List.Forall₂ (expansion.Values layout) arguments arguments') :
    Matches short expansion layout padding (invoke (steps + 1) callable arguments line)
      (invoke (steps' + 1) callable' arguments' line) expansion.Values := by
  have within := below (Nat.lt_succ_self steps) allows.inner
  cases same with
  | native host => exact matches_callHost host _ _ line
  | @function closure closure' closures =>
      obtain ⟨inside, around, expands, _⟩ := closures.declared
      have bindings := parameterBindings_expands expands.parameters given
      have parts : Stmt.ListExpands expansion.rule (0 :: inside) closure.declaration.body
          closure'.declaration.body := by
        generalize closure.declaration = declaration, closure'.declaration = declaration' at expands
        cases expands with
        | intro parts => exact parts
      apply (matches_newScope around bindings).bind
      intro grown inner inner' grows entered
      apply (matches_within entered (matches_sequence parts below allows)).bind
      intro further flow flow' later flows
      exact matches_result (closures.grow (grows.trans later)) flows
  | @cls found found' classes =>
      apply (matches_newInstance classes).bind
      intro first object object' grows objects
      have initializes := (classes.widen (expansion.within_kinship grows)).initializer?
      generalize found.initializer? = method, found'.initializer? = method' at initializes
      cases initializes with
      | none => exact matches_pure (.object objects)
      | some methods =>
          apply (matches_bindMethod methods objects).bind
          intro second bound bound' later closures
          have given := given.imp fun _ _ held =>
            held.widen (expansion.within_kinship (grows.trans later))
          have objects := objects.widen (expansion.within_kinship later)
          apply (within.invoke line (.function closures) given).bind
          exact fun last _ => matches_pure (.object (objects.widen (expansion.within_kinship last)))

/-- Where the other run has enough steps, expanded trees end in the same way. -/
theorem matchesWithin (steps : Nat) {steps' : Nat} (allows : short.Allows steps steps') :
    MatchesWithin short expansion steps steps' := by
  -- A loop takes a step for every turn, so its body runs with any smaller number of them.
  induction steps using Nat.strongRecOn generalizing steps' with
  | ind steps ih =>
      have below : MatchesBelow short expansion steps := fun inner _ less => ih inner less
      cases steps with
      | zero => exact matchesWithin_zero allows
      | succ steps =>
          cases steps' with
          | zero => exact matchesWithin_out (allows.expanded (by decide))
          | succ steps' =>
              exact ⟨matches_evaluate (below (Nat.lt_succ_self steps) allows.inner),
                matches_execute below allows, matches_invoke below allows⟩

/-- Expanded programs end in the same way. -/
theorem matches_interpret {program program' : List Stmt}
    (expands : Stmt.ListExpands expansion.rule padding program program')
    (allows : short.Allows (steps + 1) (steps' + 1)) :
    Matches short expansion layout padding (interpret steps program) (interpret steps' program')
      fun _ _ _ => True := by
  induction program generalizing layout program' with
  | nil =>
      cases expands
      exact matches_flush
  | cons first rest ih =>
      cases expands with
      | cons head tail =>
          exact ((matchesWithin steps allows.inner).execute head).bind fun _ _ => ih tail
      | @loop _ initializer _ _ _ _ _ _ moved clause tested stepped bare fourth tail =>
          have looped := @matches_loop short expansion layout padding _ _ _ _ _ _ _ clause tested
            stepped fourth (fun inner _ _ => matchesWithin inner) allows
          rw [interpret_clause, interpret, interpret, ← bind_assoc]
          exact looped.bind fun _ _ => ih tail

end Lox
