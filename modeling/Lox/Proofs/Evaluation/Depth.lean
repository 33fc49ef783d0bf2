import Lox.Proofs.Evaluation.Restoring

/-!
# How deep a run is

A run enters the parts of what it evaluates, and the analysis visits them too. Between a
whole and a part of it both open the same number of scopes: one for a block, one for the
body of a function, and those of the class around the body of a method.
-/

namespace Lox

open Analysis

/-- The number of scopes that are opened on the way from a whole to a part of it. -/
def Node.opens : Node → Node → Nat
  | .stmt (.block _), _ => 1
  | .stmt (.function _), _ => 1
  | .stmt (.classDecl _ superclass _), .stmt _ => (receiverScopes superclass).length + 1
  | _, _ => 0

/-! ## Parts of a visit -/

namespace Analysis

variable (analysis : Analysis)

/-- A method is in a scope for the object and in one more if there is a superclass. -/
theorem length_receiverScopes (superclass : Option Expr) :
    (receiverScopes superclass).length = superclass.toList.length + 1 := by
  cases superclass <;> rfl

@[simp] theorem length_scopes_declare (name : Token) :
    (analysis.declare name).scopes.length = analysis.scopes.length := by
  unfold declare
  split
  · rfl
  · next around => split <;> simp [report, around]

@[simp] theorem length_scopes_introduce (name : Token) :
    (analysis.introduce name).scopes.length = analysis.scopes.length := by
  simp [(passes_introduce analysis name).scopes]

@[simp] theorem scopes_checkReturn (keyword : Token) (hasValue : Bool) :
    (analysis.checkReturn keyword hasValue).scopes = analysis.scopes := by
  simp [(passes_checkReturn analysis keyword hasValue).scopes]

@[simp] theorem length_scopes_enterClass (name : Token) (superclass : Option Expr) :
    (analysis.enterClass name superclass).scopes.length =
      (receiverScopes superclass).length + analysis.scopes.length := by
  simp [(enterClass_passes analysis name superclass).2.1]

end Analysis

/-- A visit has as many scopes more than the one that contains it as are opened between
the two. -/
theorem Visit.Contains.length_scopes {visit part : Visit} (contains : visit.Contains part) :
    part.analysis.scopes.length = visit.analysis.scopes.length + visit.node.opens part.node := by
  cases contains with
  | member | functionBody | methodBody =>
      simp [Node.opens, scopes_stmts, scopes_enterFunction, openScope, Nat.add_comm,
        Nat.add_left_comm]
  | _ => simp [Node.opens, scopes_stmt, scopes_atSuperclass]

/-! ## Parts of a run -/

/-- The environment in which something is come to, from the environment of what it is entered
from. A part is inside the scopes between the whole and it, and the body of a function is in a
scope of its own inside those of the function. -/
inductive Activity.Moves (environment : Environment) :
    Activity → Activity → Environment → Prop where
  | part {node part : Node} (scopes : List ScopeRef) (opened : scopes.length = node.opens part) :
      Moves environment (.node node) (.node part) (scopes ++ environment)
  | call {node : Node} {callable : Callable} {arguments : List Value} :
      Moves environment (.node node) (.call callable arguments) environment
  | body {closure : Closure} {arguments : List Value} {statement : Stmt} (scope : ScopeRef) :
      Moves environment (.call (.function closure) arguments) (.node (.stmt statement))
        (scope :: closure.environment)
  | construct {found : Class} {bound : Closure} {arguments : List Value} :
      Moves environment (.call (.cls found) arguments) (.call (.function bound) arguments)
        environment

namespace Moment.Enters

variable {moment next : Moment} {node part : Node}

/-- What is evaluated on the way to a moment leaves the machine in the same place, but for
the scopes that are opened there. -/
theorem moves (enters : moment.Enters next) : ∃ environment,
    Activity.Moves moment.machine.environment moment.activity next.activity environment ∧
      Machine.Back { moment.machine with environment := environment } next.machine := by
  cases enters with
  | grouping | operand | left | logicalLeft | assigned | callee | object | changed | effect
  | printed | initializer | condition | whileCondition | forInitializer | forCondition
  | returned | superclass => exact ⟨_, .part [] rfl, .refl _⟩
  | right ran | logicalRight ran | stored ran | consequent ran | alternative ran
  | whileBody ran => exact ⟨_, .part [] rfl, back_of_evaluate ran⟩
  | argument ran collected =>
      exact ⟨_, .part [] rfl, (back_of_evaluate ran).trans (back_of_collect collected)⟩
  | call ran collected =>
      exact ⟨_, .call, (back_of_evaluate ran).trans (back_of_collect collected)⟩
  | member opened ran =>
      cases opened
      have back := back_of_sequence ran
      exact ⟨_, .part [_] rfl, back.environment, back.distances, back.host, back.policy⟩
  | whileAgain ran _ round =>
      exact ⟨_, .part [] rfl, (back_of_evaluate ran).trans (back_of_execute round)⟩
  | forRest ran => exact ⟨_, .part [] rfl, back_of_execute ran⟩
  | forBody holds => exact ⟨_, .part [] rfl, back_of_goesOn holds⟩
  | forIncrement holds round | forAgain holds round =>
      exact ⟨_, .part [] rfl, (back_of_goesOn holds).trans (back_of_execute round)⟩
  | forNext holds round ran =>
      have again := (back_of_goesOn holds).trans (back_of_execute round)
      exact ⟨_, .part [] rfl, again.trans (back_of_evaluate ran)⟩
  | body opened _ ran =>
      cases opened
      have back := back_of_sequence ran
      exact ⟨_, .body _, back.environment, back.distances, back.host, back.policy⟩
  | construct created _ bound =>
      have back := (Run.restores_newInstance _).of_ok created
      exact ⟨_, .construct, back.trans ((restores_bindMethod _ _).of_ok bound)⟩

/-- Entering a moment changes no distance. -/
theorem distances (enters : moment.Enters next) :
    next.machine.distances = moment.machine.distances := by
  obtain ⟨_, -, back⟩ := enters.moves
  exact back.distances

/-- A part that is entered is as deep as the scopes between the whole and it make it. -/
theorem length_environment (enters : moment.Enters next) (whole : moment.activity = .node node)
    (entered : next.activity = .node part) :
    next.machine.environment.length =
      moment.machine.environment.length + node.opens part := by
  obtain ⟨environment, moves, back⟩ := enters.moves
  rw [whole, entered] at moves
  rw [back.environment]
  cases moves with
  | part scopes opened => simp [opened, Nat.add_comm]

/-- The body of a function consists of statements, which are in a scope of its own inside
those of the function. -/
theorem of_body {closure : Closure} {arguments : List Value} (enters : moment.Enters next)
    (called : moment.activity = .call (.function closure) arguments)
    (entered : next.activity = .node part) :
    (∃ statement, part = .stmt statement) ∧
      next.machine.environment.length = closure.environment.length + 1 := by
  obtain ⟨environment, moves, back⟩ := enters.moves
  rw [called, entered] at moves
  rw [back.environment]
  cases moves with
  | body scope => exact ⟨⟨_, rfl⟩, by simp⟩

/-- What is entered from an expression or statement is a part of it at every visit of it,
or the whole once more. -/
theorem contains {visit : Visit} (enters : moment.Enters next)
    (whole : moment.activity = .node visit.node) (entered : next.activity = .node part) :
    part = visit.node ∨ ∃ analysis loose, visit.Contains ⟨part, analysis, loose⟩ := by
  obtain ⟨node, analysis, loose⟩ := visit
  cases enters with
  | body | construct => cases whole
  | call => cases entered
  | whileAgain | forAgain | forNext =>
      cases whole
      cases entered
      exact .inl rfl
  | _ =>
      cases whole
      cases entered
      exact .inr ⟨_, _, by constructor⟩

/-- A part of a block is not the block itself. -/
theorem member_ne_block (front back : List Stmt) (statement : Stmt) :
    statement ≠ .block (front ++ statement :: back) := by
  intro same
  have among : statement ∈ front ++ statement :: back := by simp
  have smaller := List.sizeOf_lt_of_mem among
  have size := congrArg sizeOf same
  rw [Stmt.block.sizeOf_spec] at size
  omega

/-- What is come to once more opens no scope. -/
theorem opens_self (enters : moment.Enters next) (whole : moment.activity = .node node)
    (again : next.activity = .node node) : node.opens node = 0 := by
  cases enters with
  | body | construct => cases whole
  | call => cases again
  | member =>
      cases whole
      exact absurd (Node.stmt.inj (Activity.node.inj again)) (member_ne_block _ _ _)
  | superclass =>
      cases whole
      cases again
  | _ =>
      cases whole
      rfl

end Moment.Enters

/-- A run has the same distances at all of its moments. -/
theorem Moment.Occurs.distances {steps : Nat} {program : List Stmt} {machine : Machine}
    {moment : Moment} (occurs : Moment.Occurs steps program machine moment) :
    moment.machine.distances = machine.distances := by
  obtain ⟨statement, reached, reach, enters⟩ := occurs
  induction enters with
  | refl => exact reach.back.distances
  | tail _ step ih => exact step.distances.trans ih

end Lox
