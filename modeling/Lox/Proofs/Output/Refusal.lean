import Lox.Proofs.Evaluation.Restoring

/-!
# Sinks that refuse

The same step is taken on two machines that differ in their sinks only: one sink refuses
nothing, the other one follows a policy. Up to the first refusal nobody can tell them
apart. A refusal comes at a `print`, and the step then ends there and then, with what the
other machine had when it came to that `print`.
-/

namespace Lox

/-- The same machine, where the sink refuses other things from now on. -/
def Machine.withPolicy (policy : SinkPolicy) (machine : Machine) : Machine :=
  { machine with sink := { machine.sink with policy := policy } }

/-- On a machine where nothing is refused some pieces have been written. -/
def Machine.Wrote (before : Machine) (pieces : List String) (after : Machine) : Prop :=
  after.sink = ⟨.unlimited, before.sink.accepted ++ String.join pieces⟩

theorem Machine.Wrote.trans {before middle after : Machine} {front back : List String}
    (first : before.Wrote front middle) (second : middle.Wrote back after) :
    before.Wrote (front ++ back) after := by
  simp only [Machine.Wrote] at first second ⊢
  simp [second, first, String.append_assoc]

/-! ## Pieces that are written -/

/-- What is taken of a refused piece is the beginning of it. -/
theorem Refusal.front_append (refusal : Refusal) (piece : String) :
    ∃ back, refusal.front piece ++ back = piece :=
  ⟨String.ofList (piece.toList.drop refusal.taken), by simp [front, ← String.ofList_append]⟩

namespace Sink

/-- A sink that refuses nothing takes every piece. -/
theorem writeAll_unlimited (accepted : String) (pieces : List String) :
    writeAll ⟨.unlimited, accepted⟩ pieces =
      (none, ⟨.unlimited, accepted ++ String.join pieces⟩) := by
  induction pieces generalizing accepted with
  | nil => simp [writeAll]
  | cons piece rest ih =>
      have taken :
          write ⟨.unlimited, accepted⟩ piece = (none, ⟨.unlimited, accepted ++ piece⟩) := by
        by_cases empty : piece = ""
        · simp [write, empty]
        · simp [write, empty, SinkPolicy.unlimited]
      simp [writeAll, taken, ih, String.append_assoc]

/-- Pieces behind others are offered only if none of those is refused. -/
theorem writeAll_append (sink : Sink) (front back : List String) :
    writeAll sink (front ++ back) =
      match writeAll sink front with
      | (none, middle) => writeAll middle back
      | (some reason, left) => (some reason, left) := by
  induction front generalizing sink with
  | nil => rfl
  | cons piece rest ih =>
      simp only [List.cons_append, writeAll]
      cases sink.write piece with
      | mk refused after =>
          cases refused with
          | none => exact ih after
          | some reason => rfl

/-- A sink takes all pieces, or those in front of one that it refuses and what it takes
of that one. -/
theorem writeAll_eq (policy : SinkPolicy) (accepted : String) (pieces : List String) :
    writeAll ⟨policy, accepted⟩ pieces = (none, ⟨policy, accepted ++ String.join pieces⟩) ∨
      ∃ taken refused rest refusal, pieces = taken ++ refused :: rest ∧ refused ≠ "" ∧
        policy.refusesWrite (accepted ++ String.join taken) refused = some refusal ∧
        writeAll ⟨policy, accepted⟩ pieces =
          (some refusal.reason,
            ⟨policy, accepted ++ String.join taken ++ refusal.front refused⟩) := by
  induction pieces generalizing accepted with
  | nil => simp [writeAll]
  | cons piece rest ih =>
      by_cases refused : piece ≠ "" ∧ ∃ refusal, policy.refusesWrite accepted piece = some refusal
      · obtain ⟨nonempty, refusal, refuses⟩ := refused
        refine .inr ⟨[], piece, rest, refusal, rfl, nonempty, by simpa using refuses, ?_⟩
        simp [writeAll, write, nonempty, refuses]
      · have taken : write ⟨policy, accepted⟩ piece = (none, ⟨policy, accepted ++ piece⟩) := by
          by_cases empty : piece = ""
          · simp [write, empty]
          · have takes : policy.refusesWrite accepted piece = none :=
              Option.eq_none_iff_forall_ne_some.mpr fun refusal refuses =>
                refused ⟨empty, refusal, refuses⟩
            simp [write, empty, takes]
        have further : writeAll ⟨policy, accepted⟩ (piece :: rest) =
            writeAll ⟨policy, accepted ++ piece⟩ rest := by
          simp [writeAll, taken]
        rw [further]
        cases ih (accepted ++ piece) with
        | inl all => exact .inl (by simp [all, String.append_assoc])
        | inr some =>
            obtain ⟨front, refused, back, refusal, shape, nonempty, refuses, written⟩ := some
            refine .inr ⟨piece :: front, refused, back, refusal, by simp [shape], nonempty, ?_, ?_⟩
            · simpa [String.append_assoc] using refuses
            · simpa [String.append_assoc] using written

/-- A sink that refuses none of some pieces takes them all. -/
theorem writeAll_eq_of_none {policy : SinkPolicy} {accepted : String} {pieces : List String}
    (taken : (writeAll ⟨policy, accepted⟩ pieces).1 = none) :
    writeAll ⟨policy, accepted⟩ pieces = (none, ⟨policy, accepted ++ String.join pieces⟩) := by
  cases writeAll_eq policy accepted pieces with
  | inl all => exact all
  | inr some =>
      obtain ⟨_, _, _, _, -, -, -, written⟩ := some
      rw [written] at taken
      nomatch taken

/-- Whatever a sink takes of some pieces, it takes a prefix of their text. -/
theorem prefix_writeAll (policy : SinkPolicy) (accepted : String) (pieces : List String) :
    ∃ missing, accepted ++ String.join pieces =
      (writeAll ⟨policy, accepted⟩ pieces).2.accepted ++ missing := by
  cases writeAll_eq policy accepted pieces with
  | inl all => exact ⟨"", by simp [all]⟩
  | inr some =>
      obtain ⟨taken, refused, rest, refusal, shape, -, -, written⟩ := some
      obtain ⟨back, split⟩ := refusal.front_append refused
      rw [written, shape]
      have whole : refusal.front refused ++ (back ++ String.join rest) =
          refused ++ String.join rest := by
        rw [← String.append_assoc, split]
      exact ⟨back ++ String.join rest, by simp [whole, String.append_assoc]⟩

end Sink

/-! ## Where a run breaks off -/

namespace Moment

/-- At a moment the sink refuses a piece of what is printed there. What is left is the
machine that has evaluated the printed value, with the pieces in front of the refused one
accepted and what is taken of that one. In which environment it is left depends on what was
around. -/
inductive Breaks (policy : SinkPolicy) : Moment → String → Machine → Prop where
  | print {steps : Nat} {value : Expr} {machine shown : Machine} {result : Value}
      {taken rest : List String} {refused : String} {refusal : Refusal}
      {environment : Environment}
      (ran : evaluate steps value machine = .ok result shown)
      (pieces : result.pieces ++ ["\n"] = taken ++ refused :: rest) (nonempty : refused ≠ "")
      (refuses : policy.refusesWrite (shown.sink.accepted ++ String.join taken) refused =
        some refusal) :
      Breaks policy ⟨steps + 1, .node (.stmt (.print value)), machine⟩ refusal.reason
        { shown with
          environment := environment
          sink := ⟨policy, shown.sink.accepted ++ String.join taken ++ refusal.front refused⟩ }

/-- A moment at which the sink refuses a piece is entered from another one. -/
def Leads (policy : SinkPolicy) (moment : Moment) (reason : String) (after : Machine) : Prop :=
  ∃ last, Relation.ReflTransGen Enters moment last ∧ last.Breaks policy reason after

variable {policy : SinkPolicy} {moment inner : Moment} {reason : String} {after : Machine}

theorem Leads.enter (enters : moment.Enters inner) (leads : inner.Leads policy reason after) :
    moment.Leads policy reason after := by
  obtain ⟨last, path, breaks⟩ := leads
  exact ⟨last, path.head enters, breaks⟩

theorem Leads.elsewhere (leads : moment.Leads policy reason after) (environment : Environment) :
    moment.Leads policy reason { after with environment := environment } := by
  obtain ⟨last, path, breaks⟩ := leads
  cases breaks with
  | print ran pieces nonempty refuses => exact ⟨_, path, .print ran pieces nonempty refuses⟩

end Moment

/-! ## Steps under both sinks -/

/-- A run ends with a machine, and for another reason than that its output was refused. -/
inductive Run.Heard {α : Type} : EStateM.Result Halt Machine α → Machine → Prop where
  | ok {value : α} {after : Machine} : Run.Heard (.ok value after) after
  | error {halt : Halt} {after : Machine} (silent : ∀ reason, halt ≠ .fault (.output reason)) :
      Run.Heard (.error halt after) after

/-- What becomes of a run that ends with a machine if nothing is refused. Its pieces are
offered to a sink: where they are all taken the run ends in the same way, and otherwise
the refusal of one of them cuts it short. -/
inductive Run.Cut {α : Type} (policy : SinkPolicy) (breaks : String → Machine → Prop)
    (offered : Option String × Sink) (after : Machine) :
    EStateM.Result Halt Machine α → EStateM.Result Halt Machine α → Prop where
  | ok {value : α} (taken : offered.1 = none) :
      Run.Cut policy breaks offered after
        (.ok value (after.withPolicy policy)) (.ok value after)
  | error {halt : Halt} (taken : offered.1 = none) :
      Run.Cut policy breaks offered after
        (.error halt (after.withPolicy policy)) (.error halt after)
  | short {result : EStateM.Result Halt Machine α} {reason : String} {left : Machine}
      (refused : offered = (some reason, left.sink)) (broken : breaks reason left) :
      Run.Cut policy breaks offered after (.error (.fault (.output reason)) left) result

/-- A step is taken on a machine where nothing is refused, and on the same machine under
another policy, which breaks it off at certain places at most. -/
def Run.Cuts {α : Type} (policy : SinkPolicy) (machine : Machine)
    (breaks : String → Machine → Prop) (step : Run α) : Prop :=
  machine.sink.policy = .unlimited → ∃ pieces after, machine.Wrote pieces after ∧
    Run.Heard (step machine) after ∧
    Run.Cut policy breaks ((machine.withPolicy policy).sink.writeAll pieces) after
      (step (machine.withPolicy policy)) (step machine)

namespace Run

variable {α β : Type} {policy : SinkPolicy} {machine : Machine}
variable {breaks broken : String → Machine → Prop}

/-! ### Steps put together -/

/-- Nothing is written where the sink stays as it is. -/
theorem wrote_nothing {after : Machine} (unhindered : machine.sink.policy = .unlimited)
    (kept : after.sink = machine.sink) : machine.Wrote [] after := by
  simp only [Machine.Wrote, kept, String.join_nil, String.append_empty, ← unhindered]

theorem cuts_of_ok {step : Run α} {value : α} {after : Machine}
    (free : step machine = .ok value after)
    (limited : step (machine.withPolicy policy) = .ok value (after.withPolicy policy))
    (kept : after.sink = machine.sink) : Cuts policy machine breaks step := by
  intro unhindered
  refine ⟨[], after, wrote_nothing unhindered kept, ?_⟩
  rw [free, limited]
  exact ⟨.ok, .ok rfl⟩

theorem cuts_of_error {step : Run α} {halt : Halt} {after : Machine}
    (free : step machine = .error halt after)
    (limited : step (machine.withPolicy policy) = .error halt (after.withPolicy policy))
    (kept : after.sink = machine.sink) (silent : ∀ reason, halt ≠ .fault (.output reason)) :
    Cuts policy machine breaks step := by
  intro unhindered
  refine ⟨[], after, wrote_nothing unhindered kept, ?_⟩
  rw [free, limited]
  exact ⟨.error silent, .error rfl⟩

theorem cuts_pure (value : α) : Cuts policy machine breaks (pure value) :=
  cuts_of_ok rfl rfl rfl

theorem cuts_throw {halt : Halt} (silent : ∀ reason, halt ≠ .fault (.output reason)) :
    Cuts policy machine breaks (throw halt : Run α) :=
  cuts_of_error rfl rfl rfl silent

/-- A fault with a line to blame is none of the output. -/
theorem cuts_fail {fault : RuntimeFault} (placed : fault.line?.isSome = true) :
    Cuts policy machine breaks (fail fault : Run α) := by
  apply cuts_throw
  intro reason same
  rw [Halt.fault.inj same] at placed
  nomatch placed

theorem cuts_orFail (result : Option α) {fault : RuntimeFault}
    (placed : fault.line?.isSome = true) : Cuts policy machine breaks (orFail result fault) := by
  cases result with
  | none => exact cuts_fail placed
  | some value => exact cuts_pure value

theorem Cuts.bind {step : Run α} {next : α → Run β} (front : Cuts policy machine breaks step)
    (back : ∀ value middle, step machine = .ok value middle →
      Cuts policy middle breaks (next value)) :
    Cuts policy machine breaks (step >>= next) := by
  intro unhindered
  obtain ⟨pieces, middle, wrote, heard, cut⟩ := front unhindered
  simp only [step_bind]
  generalize ran : step machine = free at heard cut
  generalize step (machine.withPolicy policy) = limited at cut
  cases heard with
  | error silent =>
      refine ⟨pieces, middle, wrote, .error silent, ?_⟩
      cases cut with
      | error taken => exact .error taken
      | short refused broken => exact .short refused broken
  | ok =>
      have policy_middle : middle.sink.policy = .unlimited := by rw [wrote]
      obtain ⟨more, after, further, heard, rest⟩ := back _ _ ran policy_middle
      refine ⟨pieces ++ more, after, wrote.trans further, heard, ?_⟩
      cases cut with
      | ok taken =>
          -- The sink goes on behind the first step with everything that was written there.
          have offered : (machine.withPolicy policy).sink.writeAll (pieces ++ more) =
              (middle.withPolicy policy).sink.writeAll more := by
            have all := Sink.writeAll_eq_of_none taken
            simp only [Machine.withPolicy] at all ⊢
            rw [Sink.writeAll_append, all, wrote]
          rw [offered]
          exact rest
      | short refused broken =>
          refine .short ?_ broken
          rw [Sink.writeAll_append, refused]

/-- A step that breaks off at fewer places. -/
theorem Cuts.widen {step : Run α} (cuts : Cuts policy machine broken step)
    (wider : ∀ reason left, broken reason left → breaks reason left) :
    Cuts policy machine breaks step := by
  intro unhindered
  obtain ⟨pieces, after, wrote, heard, cut⟩ := cuts unhindered
  refine ⟨pieces, after, wrote, heard, ?_⟩
  generalize step machine = free at cut
  generalize step (machine.withPolicy policy) = limited at cut
  cases cut with
  | ok taken => exact .ok taken
  | error taken => exact .error taken
  | short refused broken => exact .short refused (wider _ _ broken)

/-- What a step reads does not tell the policies apart. -/
theorem cuts_get {next : Machine → Run α} (same : next (machine.withPolicy policy) = next machine)
    (back : Cuts policy machine breaks (next machine)) :
    Cuts policy machine breaks (get >>= next) := by
  intro unhindered
  obtain ⟨pieces, after, wrote, heard, cut⟩ := back unhindered
  have read : (get >>= next) (machine.withPolicy policy) =
      next machine (machine.withPolicy policy) := congrFun same _
  exact ⟨pieces, after, wrote, heard, read ▸ cut⟩

theorem Cuts.within {environment : Environment} {step : Run α}
    (inside : Cuts policy { machine with environment := environment } broken step)
    (wider : ∀ reason left, broken reason left →
      breaks reason { left with environment := machine.environment }) :
    Cuts policy machine breaks (within environment step) := by
  intro unhindered
  obtain ⟨pieces, after, wrote, heard, cut⟩ := inside unhindered
  have moved : { machine.withPolicy policy with environment := environment } =
      { machine with environment := environment }.withPolicy policy := rfl
  refine ⟨pieces, { after with environment := machine.environment }, wrote, ?_, ?_⟩
  · simp only [Run.within]
    generalize step _ = free at heard
    cases heard with
    | ok => exact .ok
    | error silent => exact .error silent
  · simp only [Run.within, moved]
    generalize step _ = free at cut
    generalize step _ = limited at cut
    cases cut with
    | ok taken => exact .ok taken
    | error taken => exact .error taken
    | short refused broken => exact .short refused (wider _ _ broken)

/-! ### Single steps -/

theorem cuts_newIdentity : Cuts policy machine breaks newIdentity :=
  cuts_of_ok rfl rfl rfl

theorem cuts_newScope (outer : Environment) (bindings : Bindings Value) :
    Cuts policy machine breaks (newScope outer bindings) :=
  cuts_of_ok rfl rfl rfl

theorem cuts_newInstance (cls : Class) : Cuts policy machine breaks (newInstance cls) :=
  cuts_of_ok rfl rfl rfl

theorem cuts_modifyStore (change : Store → Store) :
    Cuts policy machine breaks (modifyStore change) :=
  cuts_of_ok rfl rfl rfl

theorem cuts_define (name : String) (value : Value) :
    Cuts policy machine breaks (define name value) := by
  obtain ⟨store, environment, distances, nextIdentity, hostCalls, sink, host⟩ := machine
  cases environment with
  | nil => exact cuts_of_ok rfl rfl rfl
  | cons scope outer => exact cuts_of_ok rfl rfl rfl

theorem cuts_read (reference : Reference) : Cuts policy machine breaks (read reference) :=
  cuts_get rfl (cuts_orFail _ rfl)

theorem cuts_write (reference : Reference) (value : Value) :
    Cuts policy machine breaks (write reference value) :=
  cuts_get rfl ((cuts_orFail _ rfl).bind fun _ _ _ => cuts_modifyStore _)

theorem callHost_ok (machine : Machine) {function : Native} {arguments : List Value}
    {result : Value} (answer : machine.host function machine.hostCalls arguments = .ok result)
    (line : Nat) :
    callHost function arguments line machine =
      .ok result { machine with hostCalls := machine.hostCalls + 1 } := by
  simp only [callHost, step_bind]
  dsimp only [get, getThe, MonadStateOf.get, EStateM.get, set, EStateM.set]
  rw [answer]
  rfl

theorem callHost_error (machine : Machine) {function : Native} {arguments : List Value}
    {message : String} (answer : machine.host function machine.hostCalls arguments = .error message)
    (line : Nat) :
    callHost function arguments line machine =
      .error (.fault (.type (.reported message) line))
        { machine with hostCalls := machine.hostCalls + 1 } := by
  simp only [callHost, step_bind]
  dsimp only [get, getThe, MonadStateOf.get, EStateM.get, set, EStateM.set]
  rw [answer]
  rfl

/-- A host function does not see the sink. -/
theorem cuts_callHost (function : Native) (arguments : List Value) (line : Nat) :
    Cuts policy machine breaks (callHost function arguments line) := by
  cases answer : machine.host function machine.hostCalls arguments with
  | ok result =>
      exact cuts_of_ok (callHost_ok machine answer line)
        (callHost_ok (machine.withPolicy policy) answer line) rfl
  | error message =>
      exact cuts_of_error (callHost_error machine answer line)
        (callHost_error (machine.withPolicy policy) answer line) rfl fun _ => nofun

theorem cuts_ofOperator (operator : Token) (result : Except TypeFault Value) :
    Cuts policy machine breaks (ofOperator operator result) := by
  cases result with
  | ok value => exact cuts_pure value
  | error fault => exact cuts_fail rfl

/-- To print is to have everything accepted, or the pieces in front of a refused one and
what is taken of that one. -/
theorem cuts_print (value : Value) :
    Cuts policy machine
      (fun reason left => ∃ taken refused rest refusal,
        value.pieces ++ ["\n"] = taken ++ refused :: rest ∧ refused ≠ "" ∧
        policy.refusesWrite (machine.sink.accepted ++ String.join taken) refused = some refusal ∧
        reason = refusal.reason ∧
        left = { machine with sink :=
          ⟨policy, machine.sink.accepted ++ String.join taken ++ refusal.front refused⟩ })
      (print value) := by
  intro unhindered
  have sink : machine.sink = ⟨.unlimited, machine.sink.accepted⟩ := by rw [← unhindered]
  let after := { machine with
    sink := ⟨.unlimited, machine.sink.accepted ++ String.join (value.pieces ++ ["\n"])⟩ }
  have free : print value machine = .ok () after := by
    rw [print, sink, Sink.writeAll_unlimited]
  rw [free]
  refine ⟨value.pieces ++ ["\n"], after, rfl, .ok, ?_⟩
  have limited := Sink.writeAll_eq policy machine.sink.accepted (value.pieces ++ ["\n"])
  cases limited with
  | inl all =>
      have same : print value (machine.withPolicy policy) = .ok () (after.withPolicy policy) := by
        simp only [print, Machine.withPolicy, all]
        rfl
      rw [same]
      exact .ok (congrArg Prod.fst all)
  | inr some =>
      obtain ⟨taken, refused, rest, refusal, shape, nonempty, refuses, written⟩ := some
      have same : print value (machine.withPolicy policy) =
          .error (.fault (.output refusal.reason)) { machine with sink :=
            ⟨policy, machine.sink.accepted ++ String.join taken ++ refusal.front refused⟩ } := by
        simp only [print, Machine.withPolicy, written]
      rw [same]
      exact .short written ⟨taken, refused, rest, refusal, shape, nonempty, refuses, rfl, rfl⟩

/-! ### Lists of expressions and statements -/

theorem cuts_goesOn {evaluate : Expr → Run Value} {condition : Option Expr}
    (cuts : ∀ value, condition = some value → Cuts policy machine breaks (evaluate value)) :
    Cuts policy machine breaks (goesOn evaluate condition) := by
  cases condition with
  | none => exact cuts_pure true
  | some condition => exact (cuts condition rfl).bind fun _ _ _ => cuts_pure _

theorem cuts_collect {evaluate : Expr → Run Value} {values : List Expr}
    (cuts : ∀ front value back results middle, values = front ++ value :: back →
      collect evaluate front machine = .ok results middle →
      Cuts policy middle breaks (evaluate value)) :
    Cuts policy machine breaks (collect evaluate values) := by
  induction values generalizing machine with
  | nil => exact cuts_pure []
  | cons first rest ih =>
      apply (cuts [] first rest [] machine rfl rfl).bind
      intro value middle ran
      refine Cuts.bind (ih ?_) fun _ _ _ => cuts_pure _
      intro front other back results last shape collected
      apply cuts (first :: front) other back (value :: results) last (by rw [shape]; rfl)
      simp only [collect, step_bind, ran, collected]
      rfl

theorem cuts_sequence {execute : Stmt → Run Flow} {body : List Stmt}
    (cuts : ∀ front statement back middle, body = front ++ statement :: back →
      Flow.sequence execute front machine = .ok .normal middle →
      Cuts policy middle breaks (execute statement)) :
    Cuts policy machine breaks (Flow.sequence execute body) := by
  induction body generalizing machine with
  | nil => exact cuts_pure _
  | cons first rest ih =>
      apply (cuts [] first rest machine rfl rfl).bind
      intro flow middle ran
      cases flow with
      | returned value => exact cuts_pure _
      | normal =>
          apply ih
          intro front statement back last shape passed
          apply cuts (first :: front) statement back last (by rw [shape]; rfl)
          simp only [Flow.sequence, step_bind, ran, passed]

end Run

open Run

/-! ## Functions and classes -/

section Classes

variable {policy : SinkPolicy} {machine : Machine} {breaks : String → Machine → Prop}

theorem cuts_declare (declaration : FunctionDecl) (isInitializer : Bool) :
    Cuts policy machine breaks (Closure.declare declaration isInitializer) :=
  cuts_newIdentity.bind fun _ _ _ => cuts_get rfl (cuts_pure _)

theorem cuts_bindMethod (method : Closure) (object : Instance) :
    Cuts policy machine breaks (method.bind object) :=
  (cuts_newScope _ _).bind fun _ _ _ => cuts_newIdentity.bind fun _ _ _ => cuts_pure _

theorem cuts_result (closure : Closure) (flow : Flow) :
    Cuts policy machine breaks (closure.result flow) := by
  simp only [Closure.result]
  split
  · exact cuts_get rfl (cuts_orFail _ rfl)
  · cases flow with
    | normal => exact cuts_pure _
    | returned value => exact cuts_pure value

theorem cuts_property (object : Instance) (name : Token) :
    Cuts policy machine breaks (object.property name) := by
  apply cuts_get rfl
  split
  · exact cuts_pure _
  · exact (cuts_orFail _ rfl).bind fun _ _ _ =>
      (cuts_bindMethod _ _).bind fun _ _ _ => cuts_pure _

theorem cuts_superMethod (reference : Reference) (method : Token) :
    Cuts policy machine breaks (superMethod reference method) := by
  apply cuts_get rfl
  apply (cuts_orFail _ rfl).bind
  intro distance _ _
  split
  · cases distance with
    | zero => exact cuts_fail rfl
    | succ distance =>
        dsimp only
        split
        · exact (cuts_orFail _ rfl).bind fun _ _ _ =>
            (cuts_bindMethod _ _).bind fun _ _ _ => cuts_pure _
        · exact cuts_fail rfl
  · exact cuts_fail rfl

theorem cuts_superclassOf (name : Token) (superclass : Expr) (value : Value) :
    Cuts policy machine breaks (superclassOf name superclass value) := by
  cases value with
  | cls found => exact cuts_pure found
  | _ => exact cuts_fail rfl

theorem cuts_declareMethods (methods : List FunctionDecl) (before : Bindings Closure) :
    Cuts policy machine breaks (declareMethods methods before) := by
  induction methods generalizing machine before with
  | nil => exact cuts_pure before
  | cons first rest ih => exact (cuts_declare _ _).bind fun _ _ _ => ih _

theorem cuts_methodEnvironment (outer : Environment) (superclass : Option Class) :
    Cuts policy machine breaks (methodEnvironment outer superclass) := by
  cases superclass with
  | none => exact cuts_pure outer
  | some superclass => exact cuts_newScope _ _

theorem cuts_declareClass (name : Token) (superclass : Option Class)
    (methods : List FunctionDecl) :
    Cuts policy machine breaks (declareClass name superclass methods) := by
  apply (cuts_define _ _).bind
  intro _ middle _
  apply cuts_get rfl
  apply (cuts_methodEnvironment _ _).bind
  intro inner outside _
  have declared : Cuts policy { outside with environment := inner } (fun _ _ => False)
      (declareMethods methods .empty) := cuts_declareMethods _ _
  apply (declared.within fun _ _ => False.elim).bind
  intro _ _ _
  exact cuts_newIdentity.bind fun _ _ _ => cuts_define _ _

end Classes

end Lox
