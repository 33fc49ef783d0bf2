import Lox.Proofs.Evaluation.Depth
import Lox.Proofs.Reach.Evaluation

/-!
# What evaluation leaves alone

Evaluation touches only what it can reach: from the globals, the scopes around it
and the values given to it. Every other scope and instance that was there keeps
its contents, and does not come within reach. The scopes around a scope and the
class of an instance never change, reached or not.
-/

namespace Lox

open Run

variable {machine before after : Machine} {shape : Shape} {given : List Value}

/-! ## Everything within reach as a territory -/

/-- What a machine reaches, together with all places that are still free. -/
def Machine.reach (machine : Machine) (shape : Shape) (given : List Value) : Territory where
  toShape := shape
  covers location := machine.Reaches given location ∨ ¬ machine.store.Has location

theorem Machine.Reaches.root {location : Location} (root : machine.Root given location) :
    machine.Reaches given location :=
  ⟨location, root, .refl⟩

/-- Nothing leads out of what is within reach. -/
theorem Machine.Shaped.confined (shaped : machine.Shaped shape)
    (host : machine.host.Conservative) (given : List Value) :
    machine.Confined (machine.reach shape given) := by
  refine ⟨shaped, .inl (.root (.inl rfl)), ?_, fun _ absent => .inr absent, ?_, host⟩
  · exact fun reference member => .inl (.root (.inr (.inl member)))
  · rintro one other (⟨root, isRoot, path⟩ | absent) leads
    · exact .inl ⟨root, isRoot, path.tail leads⟩
    · obtain ⟨name, value, part, held, -⟩ := leads
      rw [Store.contents_of_not_has absent] at held
      nomatch held

/-- What is given to a run is within its reach. -/
theorem Machine.reach_holds (value : Value) (member : value ∈ given)
    (fits : ∀ part, value.Has part → shape.Fits machine.store part) :
    (machine.reach shape given).Holds machine.store value.Has := fun part has =>
  ⟨fits part has, fun _ mentions => .inl (.root (.inr (.inr ⟨value, member, part, has, mentions⟩)))⟩

/-- Whatever a machine inside of a territory reaches from inside is inside. -/
theorem Machine.Confined.covers_of_reaches {territory : Territory}
    (confined : machine.Confined territory)
    (holds : ∀ value ∈ given, territory.Holds machine.store value.Has) {location : Location}
    (reaches : machine.Reaches given location) : territory.covers location := by
  obtain ⟨root, isRoot, path⟩ := reaches
  induction path with
  | refl =>
      obtain rfl | around | ⟨value, member, part, has, mentions⟩ := isRoot
      · exact confined.globals
      · exact confined.around.inside _ around
      · exact (holds value member part has).inside _ mentions
  | tail _ leads ih => exact confined.closed _ _ ih leads

/-! ## What a step leaves alone -/

/-- A later machine beside an earlier one: what was there and out of reach is as it
was and still out of reach, also from the results. -/
structure Machine.Framed (before : Machine) (shape : Shape) (given : List Value) (after : Machine)
    (results : List Value) : Prop where
  environment : after.environment = before.environment
  untouched : ∀ location, before.store.Has location → ¬ before.Reaches given location →
    after.store.Has location ∧ after.store.contents location = before.store.contents location ∧
      ¬ after.Reaches (given ++ results) location
  shaped : ∃ grown : Shape, after.Shaped grown ∧
    (∀ reference, before.store.Has (.scope reference) →
      grown.enclosing reference = shape.enclosing reference) ∧
    (∀ reference, before.store.Has (.object reference) →
      grown.cls reference = shape.cls reference) ∧
    ∀ value ∈ given ++ results, ∀ part, value.Has part → grown.Fits after.store part

/-- A step that leaves alone what is out of reach, whether it succeeds or halts. -/
def Run.Frames {α : Type} (step : Run α) (shape : Shape) (given : List Value)
    (results : α → List Value) (before : Machine) : Prop :=
  match step before with
  | .ok value after => before.Framed shape given after (results value)
  | .error _ after => before.Framed shape given after []

theorem Machine.Onward.framed {grown : Territory} {results : List Value}
    (onward : before.Onward (before.reach shape given) grown after)
    (fits : ∀ value ∈ given, ∀ part, value.Has part → shape.Fits before.store part)
    (holds : ∀ value ∈ results, grown.Holds after.store value.Has) :
    before.Framed shape given after results := by
  have allHold : ∀ value ∈ given ++ results, grown.Holds after.store value.Has := by
    intro value member
    obtain old | new := List.mem_append.mp member
    · exact (Machine.reach_holds value old (fits value old)).onward onward
    · exact holds value new
  refine ⟨onward.environment, ?_, grown.toShape, onward.confined.shaped, onward.grows.enclosing,
    onward.grows.cls, fun value member part has => (allHold value member part has).fits⟩
  intro location has unreached
  have outside : ¬ (before.reach shape given).covers location := by
    rintro (reached | absent)
    · exact unreached reached
    · exact absent has
  refine ⟨onward.grows.has _ has, onward.grows.untouched _ outside, fun reaches => outside ?_⟩
  rw [← onward.grows.covers]
  exact onward.confined.covers_of_reaches allHold reaches

/-- The machine behind a step that stays inside of a territory. -/
theorem Run.Stays.behind {α : Type} {step : Run α} {territory : Territory}
    {result : Territory → Store → α → Prop} (stays : step.Stays territory before result) :
    (∃ grown, (step.behind before).Shaped grown) ∧ (step.behind before).host.Conservative := by
  unfold Run.Stays at stays
  unfold Run.behind
  cases ran : step before with
  | error halt after =>
      rw [ran] at stays
      obtain ⟨grown, onward⟩ := stays
      exact ⟨⟨grown.toShape, onward.confined.shaped⟩, onward.confined.host⟩
  | ok value after =>
      rw [ran] at stays
      obtain ⟨grown, onward, -⟩ := stays
      exact ⟨⟨grown.toShape, onward.confined.shaped⟩, onward.confined.host⟩

/-- A step that stays within reach leaves all else alone. -/
theorem Run.Stays.frames {α : Type} {step : Run α} {parts : α → Part → Prop}
    {results : α → List Value}
    (stays : step.Stays (before.reach shape given) before (Territory.Yields parts))
    (fits : ∀ value ∈ given, ∀ part, value.Has part → shape.Fits before.store part)
    (among : ∀ value, ∀ result ∈ results value, ∀ part, result.Has part → parts value part) :
    step.Frames shape given results before := by
  unfold Run.Stays at stays
  unfold Run.Frames
  cases ran : step before with
  | error halt after =>
      rw [ran] at stays
      obtain ⟨grown, onward⟩ := stays
      exact onward.framed fits (by simp)
  | ok value after =>
      rw [ran] at stays
      obtain ⟨grown, onward, holds⟩ := stays
      exact onward.framed fits fun result member part has =>
        holds part (among value result member part has)

/-! ## Closures made by a call -/

theorem Run.Restores.environment_ok {α : Type} {step : Run α} {value : α}
    (restores : step.Restores) (ran : step before = .ok value after) :
    after.environment = before.environment :=
  Run.behind_ok ran ▸ (restores before).environment

/-- What a name bound in the innermost scope stands for afterwards. -/
theorem Run.found_of_define {name : String} {value found : Value}
    (ran : define name value before = .ok () after)
    (bound : after.environment.lookupAt? after.store 0 name = some found) : found = value := by
  obtain ⟨store, environment, distances, nextIdentity, hostCalls, sink, host⟩ := before
  obtain ⟨-, rfl⟩ := EStateM.Result.ok.inj ran
  cases environment with
  | nil => nomatch bound
  | cons reference outer =>
      have held : ((store.define reference name value).contents (.scope reference)).get? name =
          some found := bound
      rw [Store.contents_define] at held
      split at held
      · rw [Bindings.get?_set_self] at held
        exact (Option.some.inj held).symm
      · next absent =>
          rw [Store.contents_of_not_has fun has => absent ⟨rfl, has⟩] at held
          nomatch held

theorem declare_ok {declaration : FunctionDecl} {isInitializer : Bool} {made : Closure}
    (ran : Closure.declare declaration isInitializer before = .ok made after) :
    made.environment = before.environment := by
  obtain ⟨rfl, -⟩ := EStateM.Result.ok.inj ran
  rfl

/-- Methods are declared in the environment around them. -/
theorem declareMethods_ok {declarations : List FunctionDecl} {methods members : Bindings Closure}
    (ran : declareMethods declarations methods before = .ok members after)
    (inside : ∀ name method, methods.get? name = some method →
      method.environment = before.environment) :
    ∀ name method, members.get? name = some method → method.environment = before.environment := by
  induction declarations generalizing before methods with
  | nil =>
      obtain ⟨rfl, -⟩ := EStateM.Result.ok.inj ran
      exact inside
  | cons declaration rest ih =>
      obtain ⟨made, middle, declared, rest⟩ := Run.bind_ok.mp ran
      have back := (restores_declare _ _).environment_ok declared
      rw [← back]
      apply ih rest
      intro name method held
      rw [back]
      rw [Bindings.get?_set] at held
      split at held
      · cases held
        exact declare_ok declared
      · exact inside name method held

theorem methodEnvironment_ok {outer inner : Environment} {superclass : Option Class}
    (ran : methodEnvironment outer superclass before = .ok inner after) :
    ∃ new, inner = new ++ outer := by
  cases superclass with
  | none =>
      obtain ⟨rfl, -⟩ := EStateM.Result.ok.inj ran
      exact ⟨[], rfl⟩
  | some found =>
      obtain ⟨rfl, -⟩ := EStateM.Result.ok.inj ran
      exact ⟨[_], rfl⟩

theorem Class.own_extend (own : ClassLayer) (superclass : Option Class) :
    (Class.extend own superclass).own = own := by
  cases superclass <;> rfl

/-- The own methods of a class that has just been declared. -/
theorem declareClass_ok {name : Token} {superclass : Option Class} {methods : List FunctionDecl}
    {cls : Class} {text : String} {made : Closure}
    (ran : declareClass name superclass methods before = .ok () after)
    (bound : after.environment.lookupAt? after.store 0 name.lexeme = some (.cls cls))
    (own : cls.own.methods.get? text = some made) :
    ∃ new, made.environment = new ++ before.environment := by
  obtain ⟨_, defined, ranDefine, ran⟩ := Run.bind_ok.mp ran
  obtain ⟨_, _, looked, ran⟩ := Run.bind_ok.mp ran
  obtain ⟨rfl, rfl⟩ := EStateM.Result.ok.inj looked
  obtain ⟨inner, entered, ranEnter, ran⟩ := Run.bind_ok.mp ran
  obtain ⟨members, declared, ranMembers, ran⟩ := Run.bind_ok.mp ran
  obtain ⟨identity, counted, -, ran⟩ := Run.bind_ok.mp ran
  have same := Value.cls.inj (Run.found_of_define ran bound)
  obtain ⟨new, around⟩ := methodEnvironment_ok ranEnter
  refine ⟨new, ?_⟩
  rw [← (restores_define _ _).environment_ok ranDefine, ← around]
  unfold Run.within at ranMembers
  split at ranMembers
  · next within =>
      obtain ⟨rfl, -⟩ := EStateM.Result.ok.inj ranMembers
      rw [same, Class.own_extend] at own
      exact declareMethods_ok within (fun _ _ held => nomatch held) text made own
  · nomatch ranMembers

namespace Moment

/-- A moment is one of a call of a function. -/
def Calls (moment : Moment) (closure : Closure) : Prop :=
  ∃ arguments, moment.activity = .call (.function closure) arguments

/-- One moment enters another one without calling anything. -/
def Proceeds (one other : Moment) : Prop :=
  one.Enters other ∧ ∃ node, other.activity = .node node

/-- A closure is declared at a moment: as a function, or as a method of a class. -/
inductive Declares : Moment → Closure → Prop where
  | function {steps : Nat} {declaration : FunctionDecl} {machine after : Machine} {flow : Flow}
      {made : Closure} (ran : execute steps (.function declaration) machine = .ok flow after)
      (bound : after.environment.lookupAt? after.store 0 declaration.name.lexeme =
        some (.function made)) :
      Declares ⟨steps, .node (.stmt (.function declaration)), machine⟩ made
  | method {steps : Nat} {name : Token} {superclass : Option Expr} {methods : List FunctionDecl}
      {machine after : Machine} {flow : Flow} {cls : Class} {text : String} {made : Closure}
      (ran : execute steps (.classDecl name superclass methods) machine = .ok flow after)
      (bound : after.environment.lookupAt? after.store 0 name.lexeme = some (.cls cls))
      (own : cls.own.methods.get? text = some made) :
      Declares ⟨steps, .node (.stmt (.classDecl name superclass methods)), machine⟩ made

/-- A closure is made by a call if it is declared in the body of the called function
while the call lasts. -/
def Makes (call : Moment) (made : Closure) : Prop :=
  ∃ moment, Relation.ReflTransGen Proceeds call moment ∧ moment.Declares made

/-- Within a call, environments only get longer on the way inward. -/
theorem Proceeds.environment {one other : Moment} {node : Node} (inside : one.activity = .node node)
    (proceeds : one.Proceeds other) :
    ∃ new, other.machine.environment = new ++ one.machine.environment := by
  obtain ⟨enters, other, isNode⟩ := proceeds
  obtain ⟨environment, moves, back⟩ := enters.moves
  rw [inside, isNode] at moves
  cases moves with
  | part scopes => exact ⟨scopes, back.environment⟩

/-- A call begins in a scope of its own inside the environment of its function. -/
theorem Proceeds.environment_of_calls {call other : Moment} {closure : Closure}
    (calls : call.Calls closure) (proceeds : call.Proceeds other) :
    other.machine.environment = ⟨call.machine.store.scopes.size⟩ :: closure.environment := by
  obtain ⟨arguments, isCall⟩ := calls
  obtain ⟨enters, node, isNode⟩ := proceeds
  cases enters with
  | body entered _ ran =>
      cases isCall
      obtain ⟨rfl, rfl⟩ := EStateM.Result.ok.inj entered
      exact (Run.restores_sequence (restoresWithin _).execute _).environment_ok ran
  | call | construct => nomatch isNode
  | _ => nomatch isCall

/-- A closure goes outward to the scopes around its declaration. -/
theorem Declares.environment {moment : Moment} {made : Closure} (declares : moment.Declares made) :
    ∃ new, made.environment = new ++ moment.machine.environment := by
  cases declares with
  | @function steps declaration machine after flow made ran bound =>
      cases steps with
      | zero => nomatch ran
      | succ steps =>
          obtain ⟨closure, middle, declared, ran⟩ := Run.bind_ok.mp ran
          obtain ⟨_, last, defined, ran⟩ := Run.bind_ok.mp ran
          obtain ⟨-, rfl⟩ := EStateM.Result.ok.inj ran
          have same := Value.function.inj (Run.found_of_define defined bound)
          exact ⟨[], same ▸ declare_ok declared⟩
  | @method steps name superclass methods machine after flow cls text made ran bound own =>
      cases steps with
      | zero => nomatch ran
      | succ steps =>
          cases superclass with
          | none =>
              obtain ⟨_, last, declared, ran⟩ := Run.bind_ok.mp ran
              obtain ⟨-, rfl⟩ := EStateM.Result.ok.inj ran
              exact declareClass_ok declared bound own
          | some superclass =>
              obtain ⟨value, first, evaluated, ran⟩ := Run.bind_ok.mp ran
              obtain ⟨found, second, isClass, ran⟩ := Run.bind_ok.mp ran
              obtain ⟨_, last, declared, ran⟩ := Run.bind_ok.mp ran
              obtain ⟨-, rfl⟩ := EStateM.Result.ok.inj ran
              have back := ((restores_superclassOf _ _ _).environment_ok isClass).trans
                (((restoresWithin _).evaluate _).environment_ok evaluated)
              exact back ▸ declareClass_ok declared bound own

/-- A closure made by a call goes outward through the scope of the call to the scopes
around the called function. -/
theorem Makes.environment {call : Moment} {closure made : Closure} (calls : call.Calls closure)
    (makes : call.Makes made) :
    ∃ new, made.environment =
      new ++ ⟨call.machine.store.scopes.size⟩ :: closure.environment := by
  obtain ⟨moment, path, declares⟩ := makes
  have inward : ∀ {other}, Relation.TransGen Proceeds call other →
      (∃ node, other.activity = .node node) ∧ ∃ new, other.machine.environment =
        new ++ ⟨call.machine.store.scopes.size⟩ :: closure.environment := by
    intro other path
    induction path with
    | single first => exact ⟨first.2, [], first.environment_of_calls calls⟩
    | tail _ step ih =>
        obtain ⟨⟨node, isNode⟩, front, around⟩ := ih
        obtain ⟨new, longer⟩ := step.environment isNode
        exact ⟨step.2, new ++ front, by rw [longer, around, List.append_assoc]⟩
  obtain rfl | path := Relation.reflTransGen_iff_eq_or_transGen.mp path
  · obtain ⟨arguments, isCall⟩ := calls
    cases declares <;> nomatch isCall
  · obtain ⟨-, front, around⟩ := inward path
    obtain ⟨new, longer⟩ := declares.environment
    exact ⟨new ++ front, by rw [longer, around, List.append_assoc]⟩

end Moment

/-- Two environments that go outward in the same way, each through a scope of its own to
the same scopes, share no scope on the way. -/
theorem Shape.Links.disjoint {front front' : List ScopeRef} {one other : ScopeRef}
    {outer : Environment} (links : shape.Links (front ++ one :: outer))
    (links' : shape.Links (front' ++ other :: outer)) (apart : one ≠ other) :
    List.Disjoint (front ++ [one]) (front' ++ [other]) := by
  intro shared member member'
  obtain ⟨before, behind, split⟩ := List.append_of_mem member
  obtain ⟨before', behind', split'⟩ := List.append_of_mem member'
  have enclosing {front before behind : List ScopeRef} {last : ScopeRef}
      (links : shape.Links (front ++ last :: outer))
      (split : front ++ [last] = before ++ shared :: behind) :
      shape.enclosing shared = behind ++ outer := by
    rw [List.append_cons, split, List.append_assoc] at links
    exact links.tail.1
  have same : behind = behind' :=
    List.append_cancel_right ((enclosing links split).symm.trans (enclosing links' split'))
  have ends := congrArg List.getLast? split
  have ends' := congrArg List.getLast? split'
  rw [List.getLast?_concat, List.getLast?_append_cons, same] at ends
  rw [List.getLast?_concat, List.getLast?_append_cons] at ends'
  exact apart (Option.some.inj (ends.trans ends'.symm))

/-! ## Evaluation -/

section Evaluation

variable (shaped : machine.Shaped shape) (host : machine.host.Conservative)
include shaped host

theorem frames_evaluate (steps : Nat) (value : Expr) :
    (evaluate steps value).Frames shape [] (fun result => [result]) machine :=
  ((staysWithin steps).evaluate (shaped.confined host _) value).frames (by simp)
    fun _ _ member _ has => List.mem_singleton.mp member ▸ has

theorem frames_execute (steps : Nat) (statement : Stmt) :
    (execute steps statement).Frames shape [] Flow.values machine :=
  ((staysWithin steps).execute (shaped.confined host _) statement).frames (by simp)
    fun _ result member _ has => ⟨result, member, has⟩

theorem frames_invoke (steps : Nat) (callable : Callable) (arguments : List Value) (line : Nat)
    (fits : ∀ value ∈ callable.value :: arguments, ∀ part, value.Has part →
      shape.Fits machine.store part) :
    (invoke steps callable arguments line).Frames shape (callable.value :: arguments)
      (fun result => [result]) machine := by
  have holds := (staysWithin steps).invoke (shaped.confined host _) callable arguments line
    (Machine.reach_holds _ List.mem_cons_self (fits _ List.mem_cons_self))
    fun argument member => Machine.reach_holds _ (List.mem_cons_of_mem _ member)
      (fits _ (List.mem_cons_of_mem _ member))
  exact holds.frames fits fun _ _ member _ has => List.mem_singleton.mp member ▸ has

/-- A machine has a shape after any evaluation. -/
theorem shaped_evaluate (steps : Nat) (value : Expr) :
    (∃ grown, ((evaluate steps value).behind machine).Shaped grown) ∧
      ((evaluate steps value).behind machine).host.Conservative :=
  ((staysWithin steps).evaluate (shaped.confined host []) value).behind

/-- A machine has a shape after any program. -/
theorem shaped_interpret (steps : Nat) (program : List Stmt) :
    (∃ grown, ((interpret steps program).behind machine).Shaped grown) ∧
      ((interpret steps program).behind machine).host.Conservative :=
  (stays_interpret (shaped.confined host []) steps program).behind

end Evaluation

/-- Closures that two calls of one function make share no scope of those calls. A call
begins with a new scope, so two calls begin with different numbers of scopes. -/
theorem disjoint_of_makes {closure one other : Closure} {first second : Moment} {store : Store}
    (calls : first.Calls closure) (calls' : second.Calls closure)
    (different : first.machine.store.scopes.size ≠ second.machine.store.scopes.size)
    (makes : first.Makes one) (makes' : second.Makes other)
    (fits : shape.Fits store (.environment one.environment))
    (fits' : shape.Fits store (.environment other.environment)) :
    ∃ own own', one.environment = own ++ closure.environment ∧
      other.environment = own' ++ closure.environment ∧ own.Disjoint own' := by
  obtain ⟨front, around⟩ := makes.environment calls
  obtain ⟨front', around'⟩ := makes'.environment calls'
  rw [around] at fits
  rw [around'] at fits'
  refine ⟨front ++ [⟨first.machine.store.scopes.size⟩],
    front' ++ [⟨second.machine.store.scopes.size⟩], ?_, ?_, ?_⟩
  · rw [around, List.append_assoc]
    rfl
  · rw [around', List.append_assoc]
    rfl
  · exact fits.1.disjoint fits'.1 fun same => different (congrArg ScopeRef.index same)

end Lox
