import Lox.Proofs.Binding.Correspondence
import Lox.Proofs.Binding.Visits
import Lox.Proofs.Evaluation.Correspondence
import Lox.Proofs.Evaluation.Restoring
import Lox.Proofs.Syntax.Renumbering

/-!
# Programs in portions

Several programs run one after another on one machine. Their names may be bound
program by program, just before each of them runs, or all at once before the
first. That makes no difference, because the top level of a program is outside of
all scopes and every number has its own distance.
-/

namespace Lox

/-- A program with the distances it runs with. -/
structure Portion where
  program : List Stmt
  distances : Distances

/-- Run a program with its distances. -/
def Portion.run (steps : Nat) (portion : Portion) : Run Unit := do
  modify fun machine => { machine with distances := portion.distances }
  interpret steps portion.program

/-- Run programs one after another, up to the first that halts. -/
def Portion.runAll (steps : Nat) : List Portion → Run Unit
  | [] => pure ()
  | portion :: rest => do
      portion.run steps
      runAll steps rest

/-- Bind the names of programs one after another. -/
def Portion.bound : List (List Stmt) → Distances → List Portion
  | [], _ => []
  | program :: rest, distances =>
      let noted := (bindProgram program distances).2
      ⟨program, noted⟩ :: bound rest noted

/-- Programs that are bound one after another without a fault. -/
def Portion.Clean : List (List Stmt) → Distances → Prop
  | [], _ => True
  | program :: rest, distances =>
      (bindProgram program distances).1 = [] ∧ Clean rest (bindProgram program distances).2

/-! ## Running portions -/

section Running

variable {machine : Machine} {steps : Nat}

theorem Portion.runAll_cons (steps : Nat) (portion : Portion) (rest : List Portion)
    (machine : Machine) :
    runAll steps (portion :: rest) machine =
      match interpret steps portion.program { machine with distances := portion.distances } with
      | .ok _ after => runAll steps rest after
      | .error halt after => .error halt after := by
  have ran : portion.run steps machine =
      interpret steps portion.program { machine with distances := portion.distances } := rfl
  rw [runAll, Run.step_bind, ran]
  cases interpret steps portion.program { machine with distances := portion.distances } <;> rfl

/-- The sink passes everything on. -/
def Machine.Flushes (machine : Machine) : Prop :=
  ∀ accepted, machine.sink.policy.refusesFlush accepted = none

theorem Machine.Flushes.flush (flushes : machine.Flushes) : Run.flush machine = .ok () machine := by
  have passed : machine.sink.flush = none := flushes _
  unfold Run.flush
  dsimp only [bind, EStateM.bind, get, getThe, MonadStateOf.get, EStateM.get]
  rw [passed]
  rfl

theorem Machine.Flushes.back {after : Machine} (flushes : machine.Flushes)
    (back : machine.Back after) : after.Flushes := by
  intro accepted
  rw [back.policy]
  exact flushes accepted

/-- Where the sink passes everything on, it makes no difference how often it is
asked to. -/
theorem interpret_append (flushes : machine.Flushes) (front back : List Stmt) :
    interpret steps (front ++ back) machine =
      (interpret steps front >>= fun _ => interpret steps back) machine := by
  induction front generalizing machine with
  | nil => rw [Run.step_bind, interpret, flushes.flush, List.nil_append]
  | cons first rest ih =>
      rw [Run.step_bind, List.cons_append, interpret, interpret, Run.step_bind, Run.step_bind]
      cases ran : execute steps first machine with
      | error halt after => rfl
      | ok flow after =>
          have later := ih (flushes.back (back_of_execute ran))
          rw [Run.step_bind] at later
          exact later

/-- A program in several parts runs part by part. -/
theorem interpret_flatten (flushes : machine.Flushes) (programs : List (List Stmt)) :
    interpret steps programs.flatten machine =
      Portion.runAll steps
        (programs.map fun program => ⟨program, machine.distances⟩) machine := by
  generalize noted : machine.distances = distances
  induction programs generalizing machine with
  | nil => exact flushes.flush
  | cons first rest ih =>
      rw [List.flatten_cons, interpret_append flushes, Run.step_bind, List.map_cons,
        Portion.runAll_cons, ← noted]
      have restored := restores_interpret steps first machine
      cases ran : interpret steps first machine with
      | error halt after => rfl
      | ok result after =>
          rw [Run.behind_ok ran] at restored
          rw [noted]
          exact ih (flushes.back restored) (restored.distances.trans noted)

end Running

/-! ## Portions alike -/

/-- Two lists of portions that run in the same way. From portion to portion more numbers
may stand for each other, within certain bounds. -/
inductive Portion.Alike (likeness : Likeness) :
    (Nat → Nat → Prop) → List Portion → List Portion → Prop where
  | nil {number : Nat → Nat → Prop} : Portion.Alike likeness number [] []
  | cons {number wider : Nat → Nat → Prop} {portion portion' : Portion} {rest rest' : List Portion}
      (within : ∀ {one other : Nat}, number one other → wider one other)
      (bounded : ∀ {one other : Nat}, wider one other → likeness.number one other)
      (programs : List.Forall₂ (Stmt.Alike (likeness.numbered wider)) portion.program
        portion'.program)
      (noted : ∀ {one other : Nat}, wider one other →
        portion.distances.get? one = portion'.distances.get? other)
      (later : Portion.Alike likeness wider rest rest') :
      Portion.Alike likeness number (portion :: rest) (portion' :: rest')

variable {likeness : Likeness}

/-- Portions alike end in the same way on machines alike. -/
theorem corresponds_portions (steps : Nat) {number : Nat → Nat → Prop}
    {portions portions' : List Portion}
    (alike : Portion.Alike likeness number portions portions')
    (bounded : ∀ {one other : Nat}, number one other → likeness.number one other)
    {machine machine' : Machine} (machines : machine.Alike (likeness.numbered number) machine') :
    ∃ wider : Nat → Nat → Prop, (∀ {one other : Nat}, wider one other → likeness.number one other) ∧
      Run.Agree (likeness.numbered wider) (fun _ _ => True) (Portion.runAll steps portions machine)
        (Portion.runAll steps portions' machine') := by
  induction alike generalizing machine machine' with
  | nil => exact ⟨_, bounded, .ok trivial machines⟩
  | @cons number wider portion portion' rest rest' within below programs noted later ih =>
      have widened : (likeness.numbered number).Within (likeness.numbered wider) := ⟨id, within⟩
      have ran := corresponds_interpret steps programs (machines.widen widened noted)
      rw [Portion.runAll_cons, Portion.runAll_cons]
      generalize
        interpret steps portion.program { machine with distances := portion.distances } = result,
        interpret steps portion'.program { machine' with distances := portion'.distances } = result'
        at ran
      cases ran with
      | error halts behind => exact ⟨wider, below, .error halts behind⟩
      | ok _ behind => exact ih below behind

/-! ## Binding in portions -/

/-- Without a fault, the names behind a part of a program are bound as in a program
of their own. -/
theorem bindProgram_append {front : List Stmt} {distances : Distances}
    (clean : (bindProgram front distances).1 = []) (back : List Stmt) :
    bindProgram (front ++ back) distances =
      bindProgram back (bindProgram front distances).2 := by
  have passed := Analysis.passes_stmts front (.start distances)
  have outside : Analysis.stmts front (.start distances) =
      .start (Analysis.stmts front (.start distances)).distances := by
    have scopes : (Analysis.stmts front (.start distances)).scopes = [] := passed.scopes
    have body := passed.body
    have enclosure := passed.enclosure
    change (Analysis.stmts front (.start distances)).faults = [] at clean
    generalize Analysis.stmts front (.start distances) = analysis at *
    obtain ⟨_, _, _, _, _⟩ := analysis
    subst scopes body enclosure clean
    rfl
  unfold bindProgram
  dsimp only
  rw [Analysis.stmts_append]
  exact outside ▸ rfl

section Binding

variable {programs programs' : List (List Stmt)} {distances distances' : Distances}

/-- Programs alike that are bound one after another are portions alike. -/
theorem Portion.alike_bound (apart : likeness.OneToOne)
    (alike : List.Forall₂ (List.Forall₂ (Stmt.Alike likeness)) programs programs')
    (noted : ∀ {one other : Nat}, likeness.number one other →
      distances.get? one = distances'.get? other)
    (clean : Clean programs distances) :
    Clean programs' distances' ∧
      Portion.Alike likeness likeness.number (bound programs distances)
        (bound programs' distances') := by
  induction alike generalizing distances distances' with
  | nil => exact ⟨trivial, .nil⟩
  | @cons program program' rest rest' same _ ih =>
      obtain ⟨faults, found⟩ := alike_bindProgram apart same noted
      obtain ⟨none, later⟩ := clean
      rw [none, List.forall₂_nil_left_iff] at faults
      obtain ⟨laterClean, portions⟩ := ih found later
      exact ⟨⟨faults, laterClean⟩, .cons id id same found portions⟩

/-- Programs that are bound one after another are portions alike those of programs alike
that are bound all at once. -/
theorem Portion.alike_boundAtOnce (apart : likeness.OneToOne)
    (alike : List.Forall₂ (List.Forall₂ (Stmt.Alike likeness)) programs programs')
    (noted : ∀ {one other : Nat}, likeness.number one other →
      distances.get? one = distances'.get? other)
    (clean : Clean programs distances)
    (nodup : (Stmt.listNumbers programs'.flatten).Nodup)
    {number : Nat → Nat → Prop}
    (bounded : ∀ {one other : Nat}, number one other → likeness.number one other)
    (earlier : ∀ {one other : Nat}, number one other →
      other ∉ Stmt.listNumbers programs'.flatten) :
    (bindProgram programs'.flatten distances').1 = [] ∧
      Portion.Alike likeness number (bound programs distances)
        (programs'.map fun program => ⟨program, (bindProgram programs'.flatten distances').2⟩) := by
  induction alike generalizing distances distances' number with
  | nil => exact ⟨rfl, .nil⟩
  | @cons program program' rest rest' same _ ih =>
      obtain ⟨faults, found⟩ := alike_bindProgram apart same noted
      obtain ⟨none, later⟩ := clean
      rw [none, List.forall₂_nil_left_iff] at faults
      rw [List.flatten_cons, Stmt.listNumbers_append] at nodup earlier
      rw [List.flatten_cons, bindProgram_append faults]
      have disjoint := List.nodup_append.mp nodup
      have own : List.Forall₂ likeness.number (Stmt.listNumbers program)
          (Stmt.listNumbers program') := Stmt.numbers_list same
      have paired : List.Forall₂ (Likeness.extended number (Stmt.listNumbers program)
          (Stmt.listNumbers program')) (Stmt.listNumbers program) (Stmt.listNumbers program') :=
        Likeness.paired_extended _ own.length_eq
      have wider {one other : Nat} (inside : Likeness.extended number (Stmt.listNumbers program)
          (Stmt.listNumbers program') one other) : likeness.number one other := by
        cases inside with
        | inl old => exact bounded old
        | inr new => exact (List.forall₂_iff_zip.mp own).2 new
      have behind {one other : Nat} (inside : Likeness.extended number (Stmt.listNumbers program)
          (Stmt.listNumbers program') one other) : other ∉ Stmt.listNumbers rest'.flatten := by
        cases inside with
        | inl old => exact fun twice => earlier old (List.mem_append_right _ twice)
        | inr new => exact fun twice => disjoint.2.2 _ (List.of_mem_zip new).2 _ twice rfl
      obtain ⟨laterClean, portions⟩ := ih found later disjoint.2.1 wider behind
      refine ⟨laterClean, .cons .inl wider (Stmt.renumber_list same paired) ?_ portions⟩
      intro one other inside
      rw [found (wider inside)]
      have kept := (Analysis.passes_stmts rest'.flatten
        (.start (bindProgram program' distances').2)).distances other (behind inside)
      exact kept.symm

end Binding

end Lox
