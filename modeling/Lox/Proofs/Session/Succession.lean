import Lox.Proofs.Evaluation.Portions
import Lox.Proofs.Session.Alike

/-!
# Texts in succession

Texts that are run one after another, up to the first that fails. Where nothing is
wrong with any of them, they can all be read before the first is run, and what is
left to do is to run their programs one after another.
-/

namespace Lox

/-- A text in which reading and binding find nothing wrong. -/
def Faultless (source : String) : Prop :=
  ∃ program, (readProgram source 0).1 = .ok program ∧ (bindProgram program .empty).1 = []

/-- Run texts one after another, up to the first that fails. -/
def Session.runAll (steps : Nat) : List String → Interaction Unit
  | [] => pure ()
  | source :: rest => do
      Session.run steps source
      runAll steps rest

/-! ## Faultless texts -/

section Faultless

variable {source : String} {next : Nat} {distances : Distances}

/-- A text holds a program if it has no lexical faults and its tokens are those of
one. -/
theorem readProgram_ok_iff {program : List Stmt} :
    (readProgram source next).1 = .ok program ↔
      (scan source).2 = [] ∧ (Grammar.readProgram (scan source).1 next).1 = .ok program := by
  unfold readProgram
  generalize scan source = scanned
  obtain ⟨tokens, lexical⟩ := scanned
  dsimp only
  generalize Grammar.readProgram tokens next = found
  obtain ⟨result, after⟩ := found
  cases lexical <;> cases result <;> simp

theorem Faultless.clean (faultless : Faultless source) : (scan source).2 = [] := by
  obtain ⟨_, read, _⟩ := faultless
  exact (readProgram_ok_iff.mp read).1

/-- Whichever numbers are free, a faultless text holds a program. -/
theorem Faultless.read (faultless : Faultless source) (next : Nat) :
    ∃ program, (readProgram source next).1 = .ok program := by
  obtain ⟨program, read, _⟩ := faultless
  have same := alike_readProgram_text source 0 next
  rw [read] at same
  generalize (readProgram source next).1 = result at same ⊢
  cases same with
  | ok _ => exact ⟨_, rfl⟩

/-- Binding programs alike finds faults in both or in none, if no number of theirs has
a distance yet. -/
theorem bound_of_alike {likeness : Likeness} {program program' : List Stmt}
    {distances' : Distances} {low low' high high' : Nat}
    (alike : List.Forall₂ (Stmt.Alike likeness) program program')
    (fresh : Fresh low high (Stmt.listNumbers program))
    (fresh' : Fresh low' high' (Stmt.listNumbers program'))
    (vacant : ∀ free, low ≤ free → distances.get? free = none)
    (vacant' : ∀ free, low' ≤ free → distances'.get? free = none)
    (clean : (bindProgram program distances).1 = []) :
    (bindProgram program' distances').1 = [] := by
  have paired := Likeness.paired_extended (fun _ _ => False)
    (Stmt.numbers_list alike).length_eq
  have unpaired : (likeness.numbered fun _ _ => False).OneToOne := fun _ _ _ _ => False.elim
  have apart := unpaired.extended False.elim fresh fresh'
  have noted {one other : Nat} (inside : Likeness.extended (fun _ _ => False)
      (Stmt.listNumbers program) (Stmt.listNumbers program') one other) :
      distances.get? one = distances'.get? other := by
    cases inside with
    | inl impossible => exact impossible.elim
    | inr new =>
        obtain ⟨own, own'⟩ := List.of_mem_zip new
        rw [vacant one (fresh.range one own).1, vacant' other (fresh'.range other own').1]
  have renumbered := Stmt.renumber_list alike paired
  have faults := (alike_bindProgram apart renumbered noted).1
  rw [clean, List.forall₂_nil_left_iff] at faults
  exact faults

/-- Binding a faultless text finds no fault, whatever was noted for other numbers. -/
theorem Faultless.bound (faultless : Faultless source) {program : List Stmt}
    (read : (readProgram source next).1 = .ok program)
    (vacant : ∀ free, next ≤ free → distances.get? free = none) :
    (bindProgram program distances).1 = [] := by
  obtain ⟨first, readFirst, clean⟩ := faultless
  have same := alike_readProgram_text source 0 next
  rw [read, readFirst] at same
  cases same with
  | ok same =>
      exact bound_of_alike same (Session.placed_of_read readFirst).2 (Session.placed_of_read read).2
        (fun free _ => Distances.get?_empty free) vacant clean

end Faultless

/-! ## Reading ahead -/

/-- The programs of texts that are read one after another, with the numbers that are
free before the first and after the last. -/
inductive Reads : List String → Nat → List (List Stmt) → Nat → Prop where
  | nil {next : Nat} : Reads [] next [] next
  | cons {source : String} {rest : List String} {next last : Nat} {program : List Stmt}
      {programs : List (List Stmt)} (read : (readProgram source next).1 = .ok program)
      (later : Reads rest (readProgram source next).2 programs last) :
      Reads (source :: rest) next (program :: programs) last

namespace Reads

variable {sources : List String} {next last : Nat} {programs : List (List Stmt)}

theorem fresh (reads : Reads sources next programs last) :
    Fresh next last (Stmt.listNumbers programs.flatten) := by
  induction reads with
  | nil => exact .nil (Nat.le_refl _)
  | cons read _ ih =>
      rw [List.flatten_cons, Stmt.listNumbers_append]
      exact (Session.placed_of_read read).2.append ih

/-- Faultless texts can be read one after another. -/
theorem exists_of_faultless (faultless : ∀ source ∈ sources, Faultless source) (next : Nat) :
    ∃ programs last, Reads sources next programs last := by
  induction sources generalizing next with
  | nil => exact ⟨[], next, .nil⟩
  | cons source rest ih =>
      obtain ⟨program, read⟩ := (faultless source (.head _)).read next
      obtain ⟨programs, last, later⟩ :=
        ih (fun other inside => faultless other (.tail _ inside)) (readProgram source next).2
      exact ⟨program :: programs, last, .cons read later⟩

/-- Binding faultless texts one after another finds no fault. -/
theorem clean (reads : Reads sources next programs last)
    (faultless : ∀ source ∈ sources, Faultless source) {distances : Distances}
    (vacant : ∀ free, next ≤ free → distances.get? free = none) :
    Portion.Clean programs distances := by
  induction reads generalizing distances with
  | nil => trivial
  | @cons source rest next last program programs read _ ih =>
      refine ⟨(faultless source (.head _)).bound read vacant, ?_⟩
      apply ih fun other inside => faultless other (.tail _ inside)
      intro free beyond
      have fresh := (Session.placed_of_read read).2
      have above := Nat.le_trans fresh.le beyond
      rw [Session.distances_bindProgram program distances, vacant free above]
      intro own
      exact absurd (fresh.range free own).2 (Nat.not_lt.mpr beyond)

end Reads

/-! ## Running what was read -/

/-- A run on the machine of a session, as the step of the session that it is. -/
inductive Session.Carries :
    EStateM.Result Halt Machine Unit → EStateM.Result Failure Session Unit → Prop where
  | ok {machine : Machine} {next : Nat} : Session.Carries (.ok () machine) (.ok () ⟨machine, next⟩)
  | error {halt : Halt} {machine : Machine} {next : Nat} :
      Session.Carries (.error halt machine) (.error (.ofHalt halt) ⟨machine, next⟩)

namespace Session

variable {session : Session} {source : String} {program : List Stmt}

/-- A text in which nothing is wrong is run. -/
theorem run_eq (session : Session) (steps : Nat)
    (read : (readProgram source session.nextReference).1 = .ok program)
    (clean : (bindProgram program session.machine.distances).1 = []) :
    Session.run steps source session =
      match interpret steps program (session.bound program) with
      | .ok _ machine => .ok () ⟨machine, (readProgram source session.nextReference).2⟩
      | .error halt machine =>
          .error (.ofHalt halt) ⟨machine, (readProgram source session.nextReference).2⟩ := by
  rw [run_outcome]
  cases finished : interpret steps program (session.bound program) <;>
    simp only [read, clean, finished]

theorem carries_run (steps : Nat)
    (read : (readProgram source session.nextReference).1 = .ok program)
    (clean : (bindProgram program session.machine.distances).1 = []) :
    Carries (interpret steps program (session.bound program))
      (Session.run steps source session) := by
  rw [run_eq session steps read clean]
  cases interpret steps program (session.bound program) with
  | ok _ machine => exact .ok
  | error halt machine => exact .error

/-- Texts in succession are their programs one after another, each bound when its
turn comes. -/
theorem carries_runAll (steps : Nat) {sources : List String} {programs : List (List Stmt)}
    {last : Nat} (reads : Reads sources session.nextReference programs last)
    (clean : Portion.Clean programs session.machine.distances) :
    Carries
      (Portion.runAll steps (Portion.bound programs session.machine.distances) session.machine)
      (runAll steps sources session) := by
  obtain ⟨machine, next⟩ := session
  dsimp only at reads clean ⊢
  induction reads generalizing machine with
  | nil => exact .ok
  | @cons source rest next last program programs read _ ih =>
      rw [Portion.bound, Portion.runAll_cons, runAll, step_bind,
        run_eq ⟨machine, next⟩ steps read clean.1]
      have restored := restores_interpret steps program (Session.bound ⟨machine, next⟩ program)
      change Carries (match interpret steps program (Session.bound ⟨machine, next⟩ program) with
        | .ok _ after => _
        | .error halt after => _) _
      cases ran : interpret steps program (Session.bound ⟨machine, next⟩ program) with
      | error halt after => exact .error
      | ok _ after =>
          rw [Run.behind_ok ran] at restored
          have noted : after.distances = (bindProgram program machine.distances).2 :=
            restored.distances
          have later := ih after (noted ▸ clean.2)
          rw [noted] at later
          exact later

end Session

end Lox
