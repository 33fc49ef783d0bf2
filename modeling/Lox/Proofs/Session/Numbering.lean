import Lox.Proofs.Binding.Ledger
import Lox.Proofs.Evaluation.Depth
import Lox.Proofs.Session.Alike

/-!
# The numbers of a process

All machines of a process take the numbers of uses of names from one supply. So no number
is in two trees, or twice in one, whatever has been read in between and whatever of it had
faults. A program that is bound on a machine notes distances of its own uses only, each at
most once. What is noted for the uses in a tree therefore stays as it is, whatever is read,
bound and run afterwards.
-/

namespace Lox

/-! ## What is read -/

/-- What a text is read as. -/
inductive Tree where
  | program (statements : List Stmt)
  | expression (value : Expr)

/-- The numbers of the uses of names in a tree. -/
def Tree.numbers : Tree → List Nat
  | .program statements => Stmt.listNumbers statements
  | .expression value => value.numbers

/-- The tree that a text holds as a program, if it has no fault, and the next free number. -/
def Tree.readProgram (source : String) (next : Nat) : Option Tree × Nat :=
  ((Lox.readProgram source next).1.toOption.map .program, (Lox.readProgram source next).2)

/-- The tree that a text holds as an expression, if it has no fault, and the next free
number. -/
def Tree.readExpression (source : String) (next : Nat) : Option Tree × Nat :=
  ((Lox.readExpression source next).1.toOption.map .expression,
    (Lox.readExpression source next).2)

/-- What the text of a request is read as, and the next free number. -/
def Request.read : Request → Nat → Option Tree × Nat
  | .check source | .run _ source | .runUnbound _ source => Tree.readProgram source
  | .evaluate _ source => Tree.readExpression source

/-- The program whose names a request binds, if there is one. -/
def Request.bound? : Request → Nat → Option (List Stmt)
  | .check source, next | .run _ source, next => (readProgram source next).1.toOption
  | .runUnbound _ _, _ | .evaluate _ _, _ => none

/-- Distances once the names of a program have been bound, if there is one. -/
def Distances.binding (distances : Distances) : Option (List Stmt) → Distances
  | some program => (bindProgram program distances).2
  | none => distances

/-- The numbers in what is read are given out by the supply. A text with a fault has no tree,
and the numbers that it has taken are not given out again. -/
theorem fresh_readProgram (source : String) (next : Nat) :
    Fresh next (Tree.readProgram source next).2
      ((Tree.readProgram source next).1.toList.flatMap Tree.numbers) := by
  unfold Tree.readProgram
  cases read : (readProgram source next).1 with
  | error failure => exact .nil (Session.supplies_read source next)
  | ok program =>
      have fresh := (Session.placed_of_read read).2
      simpa [Except.toOption, Tree.numbers] using fresh

theorem fresh_readExpression (source : String) (next : Nat) :
    Fresh next (Tree.readExpression source next).2
      ((Tree.readExpression source next).1.toList.flatMap Tree.numbers) := by
  unfold Tree.readExpression
  cases read : (readExpression source next).1 with
  | error failure => exact .nil (supplies_readExpression_text source next)
  | ok value =>
      have fresh := fresh_readExpression_text read
      simpa [Except.toOption, Tree.numbers] using fresh

/-- The numbers of a program that is bound are among those of the tree that is read. -/
theorem Request.read_of_bound {request : Request} {next : Nat} {program : List Stmt}
    (bound : request.bound? next = some program) :
    request.read next = (some (.program program), (request.read next).2) := by
  cases request with
  | check source | run _ source =>
      simp only [bound?] at bound
      simp [read, Tree.readProgram, bound]
  | runUnbound | evaluate => cases bound

theorem Request.fresh_read (request : Request) (next : Nat) :
    Fresh next (request.read next).2 ((request.read next).1.toList.flatMap Tree.numbers) := by
  cases request with
  | check source | run _ source | runUnbound _ source => exact fresh_readProgram source next
  | evaluate _ source => exact fresh_readExpression source next

/-! ## What a request leaves behind -/

namespace Session

/-- The session behind an interaction, however that ends. -/
def behind {α : Type} (interaction : Interaction α) (session : Session) : Session :=
  match interaction session with
  | .ok _ after => after
  | .error _ after => after

variable {session : Session}

/-- What an interaction leaves of the supply of numbers and of the distances, however it
ends. -/
structure Leaves {α : Type} (interaction : Interaction α) (session : Session) (next : Nat)
    (distances : Distances) : Prop where
  numbers : (behind interaction session).nextReference = next
  distances : (behind interaction session).machine.distances = distances

theorem behind_bind {α β : Type} (interaction : Interaction α) (further : α → Interaction β)
    (session : Session) :
    behind (interaction >>= further) session =
      match interaction session with
      | .ok value after => behind (further value) after
      | .error _ after => after := by
  rw [behind, step_bind]
  cases interaction session <;> rfl

theorem leaves_pure {α : Type} (value : α) (session : Session) :
    Leaves (pure value) session session.nextReference session.machine.distances :=
  ⟨rfl, rfl⟩

/-- Running takes no numbers and notes no distances. -/
theorem leaves_running {α : Type} {run : Run α} (restores : run.Restores) (session : Session) :
    Leaves (running run) session session.nextReference session.machine.distances := by
  have back := (restores session.machine).distances
  have ran : behind (running run) session =
      { session with machine := run.behind session.machine } := by
    unfold behind running Run.behind
    cases run session.machine <;> rfl
  rw [← back]
  exact ⟨by rw [ran], by rw [ran]⟩

/-- Binding notes distances also where there are faults. -/
theorem leaves_bind (program : List Stmt) (session : Session) :
    Leaves (Session.bind program) session session.nextReference
      (bindProgram program session.machine.distances).2 := by
  have bound : behind (Session.bind program) session =
      { session with machine := session.bound program } := by
    rw [behind, bind_eq]
    cases (bindProgram program session.machine.distances).1 <;> rfl
  exact ⟨by rw [bound], by rw [bound]; rfl⟩

/-- What comes behind an interaction may take no numbers and note no distances. -/
theorem Leaves.follow {α β : Type} {interaction : Interaction α} {further : α → Interaction β}
    {next : Nat} {distances : Distances} (first : Leaves interaction session next distances)
    (second : ∀ value after, Leaves (further value) after after.nextReference
      after.machine.distances) :
    Leaves (interaction >>= further) session next distances := by
  obtain ⟨numbers, noted⟩ := first
  constructor
  · rw [behind_bind, ← numbers, behind]
    cases interaction session with
    | ok value after => exact (second value after).numbers
    | error failure after => rfl
  · rw [behind_bind, ← noted, behind]
    cases interaction session with
    | ok value after => exact (second value after).distances
    | error failure after => rfl

/-- Reading takes the numbers that the text needs, also where it has faults. -/
theorem leaves_reading {α β : Type} {read : Nat → Except Failure α × Nat}
    {further : α → Interaction β} {session : Session} {program : Option (List Stmt)}
    (failed : ∀ failure, (read session.nextReference).1 = .error failure → program = none)
    (passed : ∀ value, (read session.nextReference).1 = .ok value →
      Leaves (further value) { session with nextReference := (read session.nextReference).2 }
        (read session.nextReference).2 (session.machine.distances.binding program)) :
    Leaves (reading read >>= further) session (read session.nextReference).2
      (session.machine.distances.binding program) := by
  cases result : (read session.nextReference).1 with
  | error failure =>
      have left : behind (reading read >>= further) session =
          { session with nextReference := (read session.nextReference).2 } := by
        rw [behind_bind, reading_eq, result]
      rw [failed failure result]
      exact ⟨by rw [left], by rw [left]; rfl⟩
  | ok value =>
      have left : behind (reading read >>= further) session = behind (further value)
          { session with nextReference := (read session.nextReference).2 } := by
        rw [behind_bind, reading_eq, result]
      have leaves := passed value result
      exact ⟨left ▸ leaves.numbers, left ▸ leaves.distances⟩

/-- Where a text is read as a program, that is the program whose names are bound. -/
theorem leaves_readProgram {α : Type} {source : String} {further : List Stmt → Interaction α}
    {session : Session}
    (passed : ∀ program, Leaves (further program)
      { session with nextReference := (readProgram source session.nextReference).2 }
      (readProgram source session.nextReference).2
      (bindProgram program session.machine.distances).2) :
    Leaves (reading (readProgram source) >>= further) session
      (readProgram source session.nextReference).2
      (session.machine.distances.binding
        (readProgram source session.nextReference).1.toOption) := by
  apply leaves_reading
  · intro failure result
    rw [result]
    rfl
  · intro program result
    rw [result]
    exact passed program

/-- However a request ends, it has taken the numbers that its text needs, and it has noted
the distances of the program whose names it binds. -/
theorem leaves_perform (request : Request) (session : Session) :
    Leaves request.perform session (request.read session.nextReference).2
      (session.machine.distances.binding (request.bound? session.nextReference)) := by
  -- The number behind the text is taken out of what is read here and not by comparison, for
  -- which the reading itself would be unfolded.
  cases request <;> dsimp only [Request.read, Tree.readProgram, Tree.readExpression, Request.bound?]
  case check source =>
    have checks : Leaves (Session.check source) session _ _ :=
      leaves_readProgram fun program => leaves_bind program _
    exact checks.follow fun _ => leaves_pure none
  case run steps source =>
    have runs : Leaves (Session.run steps source) session _ _ :=
      leaves_readProgram fun program => (leaves_bind program _).follow fun _ =>
        leaves_running (restores_interpret steps program)
    exact runs.follow fun _ => leaves_pure none
  case runUnbound steps source =>
    have runs : Leaves (Session.runUnbound steps source) session _
        (session.machine.distances.binding none) :=
      leaves_reading (fun _ _ => rfl) fun program _ =>
        leaves_running (restores_interpret steps program) _
    exact runs.follow fun _ => leaves_pure none
  case evaluate steps source =>
    have evaluates : Leaves (Session.evaluate steps source) session _
        (session.machine.distances.binding none) :=
      leaves_reading (fun _ _ => rfl) fun value _ =>
        leaves_running ((restoresWithin steps).evaluate value) _
    exact evaluates.follow fun value => leaves_pure (some value)

theorem next_takes (session : Session) (request : Request) :
    (session.next request).nextReference = (request.read session.nextReference).2 ∧
      (session.next request).machine.distances =
        session.machine.distances.binding (request.bound? session.nextReference) := by
  have left : session.next request = behind request.perform session := by
    unfold Session.next behind
    cases request.perform session <;> rfl
  rw [left]
  exact ⟨(leaves_perform request session).numbers, (leaves_perform request session).distances⟩

end Session

/-! ## Processes -/

/-- Something that a process is asked to do: to read a text and return its tree, or to make
a request to one of its machines. -/
inductive Call where
  | readProgram (source : String)
  | readExpression (source : String)
  | request (which : Nat) (request : Request)

namespace Call

/-- What the text of a call is read as, and the next free number. -/
def read : Call → Nat → Option Tree × Nat
  | .readProgram source => Tree.readProgram source
  | .readExpression source => Tree.readExpression source
  | .request _ asked => asked.read

/-- The program whose names a call binds on a machine, if there is one. -/
def bound? : Call → Nat → Nat → Option (List Stmt)
  | .request which asked, other, next => if other = which then asked.bound? next else none
  | .readProgram _, _, _ | .readExpression _, _, _ => none

theorem fresh_read (call : Call) (next : Nat) :
    Fresh next (call.read next).2 ((call.read next).1.toList.flatMap Tree.numbers) := by
  cases call with
  | readProgram source => exact fresh_readProgram source next
  | readExpression source => exact fresh_readExpression source next
  | request which asked => exact asked.fresh_read next

/-- A program whose names are bound has been read by the same call. -/
theorem fresh_of_bound {call : Call} {which next : Nat} {program : List Stmt}
    (bound : call.bound? which next = some program) :
    Fresh next (call.read next).2 (Stmt.listNumbers program) := by
  cases call with
  | readProgram | readExpression => cases bound
  | request other asked =>
      simp only [bound?] at bound
      obtain ⟨-, bound⟩ := Option.ite_none_right_eq_some.mp bound
      have fresh := asked.fresh_read next
      rw [Request.read_of_bound bound] at fresh
      simpa [read, Tree.numbers] using fresh

end Call

/-- Machines that take the numbers of uses of names from one supply. -/
structure Process where
  machines : Nat → Machine
  nextReference : Nat

namespace Process

/-- A process in which nothing has been read. -/
def start (host : Nat → Host) (policy : Nat → SinkPolicy) : Process :=
  ⟨fun which => .start (host which) (policy which), 0⟩

/-- One machine of a process, with the supply of all of them. -/
def session (process : Process) (which : Nat) : Session :=
  ⟨process.machines which, process.nextReference⟩

/-- The process after a call, whether that failed or not. -/
def next (process : Process) : Call → Process
  | .readProgram source =>
      { process with nextReference := (Lox.readProgram source process.nextReference).2 }
  | .readExpression source =>
      { process with nextReference := (Lox.readExpression source process.nextReference).2 }
  | .request which request =>
      let after := (process.session which).next request
      ⟨fun other => if other = which then after.machine else process.machines other,
        after.nextReference⟩

/-- The process after several calls. -/
def reach (process : Process) (calls : List Call) : Process :=
  calls.foldl next process

/-- The trees that are read in several calls. -/
def trees : Process → List Call → List Tree
  | _, [] => []
  | process, call :: rest =>
      (call.read process.nextReference).1.toList ++ (process.next call).trees rest

variable {process : Process} {call : Call}

@[simp] theorem reach_nil (process : Process) : process.reach [] = process := rfl

@[simp] theorem reach_cons (process : Process) (call : Call) (calls : List Call) :
    process.reach (call :: calls) = (process.next call).reach calls := rfl

theorem reach_append (process : Process) (past future : List Call) :
    process.reach (past ++ future) = (process.reach past).reach future :=
  List.foldl_append

/-- A call takes the numbers that its text needs. On each machine it notes the distances of
the program whose names it binds there. -/
theorem next_takes (process : Process) (call : Call) :
    (process.next call).nextReference = (call.read process.nextReference).2 ∧
      ∀ which, ((process.next call).machines which).distances =
        (process.machines which).distances.binding
          (call.bound? which process.nextReference) := by
  cases call with
  | readProgram | readExpression => exact ⟨rfl, fun _ => rfl⟩
  | request here request =>
      obtain ⟨numbers, distances⟩ := (process.session here).next_takes request
      refine ⟨numbers, fun which => ?_⟩
      by_cases same : which = here
      · subst same
        simpa [next, Call.bound?, session] using distances
      · simp [next, Call.bound?, same, Distances.binding]

/-- The numbers in the trees that are read are all different, and all taken from the
supply. -/
theorem fresh_trees (process : Process) (calls : List Call) :
    Fresh process.nextReference (process.reach calls).nextReference
      ((process.trees calls).flatMap Tree.numbers) := by
  induction calls generalizing process with
  | nil => exact .nil (Nat.le_refl _)
  | cons call rest ih =>
      have read := call.fresh_read process.nextReference
      rw [← (process.next_takes call).1] at read
      rw [trees, List.flatMap_append]
      exact read.append (ih (process.next call))

/-- A call leaves the distances of numbers alone that were given out before. -/
theorem unchanged_next {number : Nat} (given : number < process.nextReference) (which : Nat) :
    ((process.next call).machines which).distances.get? number =
      (process.machines which).distances.get? number := by
  rw [(process.next_takes call).2]
  cases bound : call.bound? which process.nextReference with
  | none => rfl
  | some program =>
      apply Session.distances_bindProgram
      intro inside
      exact Nat.not_lt.mpr ((Call.fresh_of_bound bound).range number inside).1 given

theorem supplies_next (process : Process) (call : Call) :
    process.nextReference ≤ (process.next call).nextReference :=
  (process.next_takes call).1 ▸ (call.fresh_read process.nextReference).le

theorem unchanged_reach {number : Nat} (given : number < process.nextReference)
    (calls : List Call) (which : Nat) :
    ((process.reach calls).machines which).distances.get? number =
      (process.machines which).distances.get? number := by
  induction calls generalizing process with
  | nil => rfl
  | cons call rest ih =>
      have later := Nat.lt_of_lt_of_le given (process.supplies_next call)
      exact (ih later).trans (unchanged_next given which)

/-- The numbers in the trees read so far have been given out. -/
theorem given_of_trees {calls : List Call} {tree : Tree} (read : tree ∈ process.trees calls)
    {number : Nat} (inside : number ∈ tree.numbers) :
    number < (process.reach calls).nextReference :=
  ((process.fresh_trees calls).range number (List.mem_flatMap.mpr ⟨tree, read, inside⟩)).2

/-- What binding the names of a program does to the distances on a machine. The analysis
enters each distance in a ledger as it notes it. Only uses in the program have an entry
there, and none has two. -/
structure Accounted (program : List Stmt) (before after : Distances) : Prop where
  forget : (Ledger.ofProgram program before).analysis = Analysis.stmts program (.start before)
  noted : after = Ledger.noted (Ledger.ofProgram program before).entries before
  own : ∀ entry ∈ (Ledger.ofProgram program before).entries,
    entry.1 ∈ Stmt.listNumbers program
  once : ((Ledger.ofProgram program before).entries.map Prod.fst).Nodup

/-- A program whose uses have numbers of their own is accounted for. -/
theorem accounted_of_nodup {program : List Stmt} (nodup : (Stmt.listNumbers program).Nodup)
    (before : Distances) : Accounted program before (bindProgram program before).2 where
  forget := Ledger.ofProgram_forget program before
  noted := Ledger.noted_ofProgram program before
  own entry inside := by
    have entered : entry.1 ∈ (Ledger.ofProgram program before).entries.map Prod.fst :=
      List.mem_map_of_mem inside
    exact List.count_pos_iff.mp (Nat.lt_of_lt_of_le (List.count_pos_iff.mpr entered)
      (Ledger.count_ofProgram program before entry.1))
  once := List.nodup_iff_count_le_one.mpr fun number =>
    Nat.le_trans (Ledger.count_ofProgram program before number)
      (List.nodup_iff_count_le_one.mp nodup number)

/-- Whatever a process reads, binds and runs, on however many machines and with whatever
faults, no number is that of two uses in the trees that are read. Binding a program notes
distances of its own uses only, each at most once, and no other call notes any. So what is
noted for the uses in a tree is the same after all later calls, and at every moment of a
later run. -/
theorem numbers_given_once (host : Nat → Host) (policy : Nat → SinkPolicy)
    (calls : List Call) :
    let process := Process.start host policy
    ((process.trees calls).flatMap Tree.numbers).Nodup ∧
    (∀ past call future, calls = past ++ call :: future → ∀ which,
      let before := ((process.reach past).machines which).distances
      let after := ((process.reach (past ++ [call])).machines which).distances
      match call.bound? which (process.reach past).nextReference with
      | some program => Accounted program before after
      | none => after = before) ∧
    ∀ past future, calls = past ++ future → ∀ tree ∈ process.trees past,
      ∀ number ∈ tree.numbers, ∀ which,
        let noted := ((process.reach past).machines which).distances.get? number
        ((process.reach calls).machines which).distances.get? number = noted ∧
        ∀ steps source rest program moment,
          future = .request which (.run steps source) :: rest →
          ((process.reach past).session which).Accepts source program →
          Moment.Occurs steps program (((process.reach past).session which).bound program)
            moment →
          moment.machine.distances.get? number = noted := by
  intro process
  refine ⟨(process.fresh_trees calls).nodup, ?_, ?_⟩
  · intro past call future _ which before after
    have distances : after =
        before.binding (call.bound? which (process.reach past).nextReference) := by
      have taken := ((process.reach past).next_takes call).2 which
      rwa [← reach_nil ((process.reach past).next call), ← reach_cons, ← reach_append] at taken
    rw [distances]
    cases bound : call.bound? which (process.reach past).nextReference with
    | none => rfl
    | some program => exact accounted_of_nodup (Call.fresh_of_bound bound).nodup before
  · intro past future shape tree read number inside which noted
    have given := given_of_trees read inside
    constructor
    · rw [shape, reach_append]
      exact unchanged_reach given future which
    · intro steps source rest program moment _ accepts occurs
      rw [occurs.distances]
      apply Session.distances_bindProgram
      intro again
      have fresh := (Session.placed_of_read accepts.1).2
      exact Nat.not_lt.mpr (fresh.range number again).1 given

end Process

end Lox
