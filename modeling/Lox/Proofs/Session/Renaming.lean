import Lox.Proofs.Renaming.Binding
import Lox.Proofs.Renaming.Evaluation
import Lox.Proofs.Renaming.Reading
import Lox.Proofs.Session.Agreement
import Lox.Proofs.Session.Frame
import Lox.Proofs.Session.Rejection

/-!
# Local names make no difference

A session accepts a program with a local variable renamed if it accepts the program, and
both end alike, whatever the session was asked before. Numbers of uses of names are given
out anew for the renamed text, so that its program is compared in two steps: first with
the numbers of the program it was made from, and then with its own.
-/

namespace Lox

variable {respelling : Respelling}

/-! ## Machines at the start of a run -/

theorem Respelling.names_false_iff {name name' : String} :
    respelling.Names false name name' ↔ name = name' := by
  simp [Respelling.Names, eq_comm]

theorem Layout.changes_replicate (size : Nat) (reference : ScopeRef) :
    Layout.changes (List.replicate size false) reference = false := by
  unfold Layout.changes
  rw [List.getD_eq_getElem?_getD, List.getElem?_replicate]
  split <;> rfl

section Unchanged

variable {store : Store} {shape : Shape}

/-- A store without scopes in which the name changes. -/
abbrev Layout.unchanged (store : Store) : Layout :=
  List.replicate store.scopes.size false

/-- Nothing changes around any environment of a store without such scopes. -/
theorem Layout.around_unchanged {environment : Environment}
    (fits : shape.Fits store (.environment environment)) :
    (Layout.unchanged store).Around environment [] := by
  intro distance reference found
  have inside : reference ∈ environment := List.mem_of_getElem? found
  rw [List.getElem?_replicate_of_lt (fits.2 reference inside), Marks.changes_nil]

/-- A function of such a store stands for itself. -/
theorem Closure.respelled_self {closure : Closure} {enter : Marks → Marks}
    (unmarked : true ∉ enter []) (fits : ∀ part, closure.Has part → shape.Fits store part) :
    closure.Respelled respelling enter (Layout.unchanged store) closure :=
  ⟨rfl, rfl, rfl, [], Layout.around_unchanged (fits _ rfl),
    closure.declaration.renames_self unmarked⟩

theorem Class.respelled_self {found : Class}
    (fits : ∀ part, found.Has part → shape.Fits store part) :
    found.Akin (respelling.kinship (Layout.unchanged store)) found := by
  refine Class.akin_self fun own inside name method known => ?_
  apply Closure.respelled_self (by simp)
  exact fun part has => fits part ⟨own, inside, name, method, known, has⟩

theorem Value.respelled_self {value : Value}
    (fits : ∀ part, value.Has part → shape.Fits store part) :
    respelling.Values (Layout.unchanged store) value value := by
  apply Value.akin_self
  · rintro closure rfl
    exact Closure.respelled_self (by simp) fits
  · rintro found rfl
    exact Class.respelled_self fits
  · rintro held rfl
    exact Class.respelled_self fun part has => fits part (.inr has)

/-- Before anything is renamed a machine stands for itself. -/
theorem Machine.Shaped.respelled_self {machine : Machine} (shaped : machine.Shaped shape)
    (outside : machine.environment = globalEnvironment)
    (noted : machine.distances = respelling.distances)
    {time : Native → Nat → Except String Float} (tells : machine.host.Tells time) :
    machine.Respelled respelling (Layout.unchanged machine.store) [] machine := by
  have around := Layout.around_unchanged shaped.environment
  have paired (location : Location) {names : String → String → Prop}
      (alone : ∀ {name name'}, names name name' ↔ name = name') :
      (machine.store.contents location).Paired names
        (respelling.Values (Layout.unchanged machine.store))
        (machine.store.contents location) :=
    .refl alone fun name value held => Value.respelled_self (shaped.stored location name value held)
  refine ⟨⟨rfl, rfl, fun reference => ?_, fun reference => paired (.object reference) Iff.rfl⟩,
    by simp, ?_, around, rfl, noted, rfl, rfl, rfl, rfl, time, tells, tells⟩
  · apply paired (.scope reference)
    intro name name'
    unfold Respelling.NamesIn
    rw [Layout.changes_replicate, Respelling.names_false_iff]
  · exact around 0 globalScope (by rw [outside]; rfl)

end Unchanged

/-! ## Programs read anew -/

/-- No identifier is a keyword. -/
theorem ordinary_of_isLexeme {name : String} (lexeme : IsLexeme name.toList .identifier) :
    IsOrdinaryName name := by
  generalize spelled : name.toList = text at lexeme
  cases lexeme with
  | identifier _ _ free =>
      have apart (keyword : Keyword) (word : String) (spelling : keyword.spelling = word.toList) :
          name ≠ word := by
        rintro rfl
        exact free keyword (spelling.trans spelled)
      exact ⟨apart .this "this" rfl, apart .super "super" rfl⟩

namespace Session

variable {number : Nat → Nat → Prop} {session : Session} {source source' : String} {last : Nat}
variable {program program' : List Stmt}

/-- A text holds a program, with numbers of its own for the uses of names. -/
def Holds (session : Session) (source : String) (program : List Stmt) : Prop :=
  ∃ read, (readProgram source session.nextReference).1 = .ok read ∧
    Stmt.listUnnumbered read = Stmt.listUnnumbered program

/-- Two runs end alike if they print the same and either succeed both or fail both, at
the same line and for the same reason, told with the new name instead of the old one if
need be. -/
inductive EndsRespelled (respelling : Respelling) :
    EStateM.Result Failure Session Unit → EStateM.Result Failure Session Unit → Prop where
  | ok {after after' : Session} (printed : after'.machine.sink = after.machine.sink) :
      EndsRespelled respelling (.ok () after) (.ok () after')
  | error {halt halt' : Halt} {after after' : Session} (halts : halt.Respelled respelling halt')
      (printed : after'.machine.sink = after.machine.sink) :
      EndsRespelled respelling (.error (.ofHalt halt) after) (.error (.ofHalt halt') after')

/-- A program that is read has the distances of any other one with the same tree, use by
use, and runs like it. -/
theorem reread (alike : session.Alike number session)
    (read : (readProgram source session.nextReference).1 = .ok program)
    (fresh : Fresh session.nextReference last (Stmt.listNumbers program'))
    (same : Stmt.listUnnumbered program = Stmt.listUnnumbered program') :
    (bindProgram program session.machine.distances).1 =
        (bindProgram program' session.machine.distances).1 ∧
      List.Forall₂ (fun one other => (session.bound program).distances.get? one =
        (session.bound program').distances.get? other)
        (Stmt.listNumbers program) (Stmt.listNumbers program') ∧
      ∃ number, ∀ steps, Run.Agree (.exact number) (fun _ _ => True)
        (interpret steps program (session.bound program))
        (interpret steps program' (session.bound program')) := by
  have loose := alike_readProgram_text source session.nextReference session.nextReference
  rw [read] at loose
  obtain ⟨loose⟩ := loose
  have trees := Stmt.of_unnumbered_list (fun _ _ => trivial) loose same.symm
  have numbers := Likeness.paired_extended number (Stmt.numbers_list trees).length_eq
  have trees := Stmt.renumber_list trees numbers
  have sessions := alike.extend (placed_of_read read).2 fresh
  obtain ⟨faults, noted⟩ := alike_bindProgram sessions.apart trees sessions.machine.distances
  refine ⟨Diagnostic.list_eq faults, numbers.imp fun _ _ => noted,
    Likeness.extended number (Stmt.listNumbers program) (Stmt.listNumbers program'), ?_⟩
  exact fun steps => corresponds_interpret steps trees (sessions.machine.widen (.refl _) noted)

/-- A session that has come somewhere is outside of all scopes, with a machine of a shape
and the host that it was started with. -/
theorem reached_steady (time : Native → Nat → Except String Float) (policy : SinkPolicy)
    (past : List Request) :
    ((Session.start (Host.ofTime time) policy).reach past).IsShaped ∧
      ((Session.start (Host.ofTime time) policy).reach past).Outside ∧
      ((Session.start (Host.ofTime time) policy).reach past).machine.host.Tells time := by
  have shaped : (Session.start (Host.ofTime time) policy).IsShaped :=
    ⟨⟨_, Machine.shaped_start _ policy⟩, Host.conservative_ofTime time⟩
  have outside : (Session.start (Host.ofTime time) policy).Outside := rfl
  have host : (Session.start (Host.ofTime time) policy).machine.host = Host.ofTime time := rfl
  refine ⟨reach_of_keeps keeps_isShaped shaped past, lasting_outside.reach outside past, ?_⟩
  rw [(lasting_host (Host.ofTime time)).reach host past]
  exact fun _ _ _ => rfl

/-- A renamed program ends like the program that it was made from, with the numbers of
that one. -/
theorem mirrored_bound {time : Native → Nat → Except String Float} (shaped : session.IsShaped)
    (outside : session.Outside) (tells : session.machine.host.Tells time)
    (noted : respelling.distances = (session.bound program).distances)
    (names : respelling.Identifiers)
    (renames : Stmt.ListRenames respelling respelling.apart [] program program') (steps : Nat) :
    ∃ layout, Run.Mirrored respelling layout [] (fun _ _ _ => True)
      (interpret steps program (session.bound program))
      (interpret steps program' (session.bound program)) := by
  obtain ⟨⟨shape, shaped⟩, -⟩ := shaped
  have bound : (session.bound program).Shaped shape := ⟨shaped.environment, shaped.stored⟩
  have machines := bound.respelled_self outside noted.symm tells
  exact ⟨_, mirrors_interpret (ordinary_of_isLexeme names.old) (ordinary_of_isLexeme names.new)
    steps renames machines⟩

/-- What ends like a run of the renamed program ends alike to a run of the program. -/
theorem endsRespelled {layout : Layout}
    {result middle result' : EStateM.Result Halt Machine Unit}
    {ending ending' : EStateM.Result Failure Session Unit}
    (mirrored : Run.Mirrored respelling layout [] (fun _ _ _ => True) result middle)
    (agree : Run.Agree (.exact number) (fun _ _ => True) result' middle)
    (carries : Carries result ending) (carries' : Carries result' ending') :
    EndsRespelled respelling ending ending' := by
  cases mirrored with
  | ok _ _ machines =>
      cases agree with
      | ok _ same =>
          cases carries
          cases carries'
          exact .ok (same.sink.trans machines.sink)
  | error _ halts machines =>
      cases agree with
      | error alike same =>
          cases carries
          cases carries'
          exact .error (halt_eq alike ▸ halts) (same.sink.trans machines.sink)

/-- A local name makes no difference. In an accepted program the variable or parameter of
a local scope gets a name that the text does not use, and with it the uses that are bound
to that scope get it. There is a text with the renamed program. Whichever text that is, it
is accepted, its uses of names have the same distances, and it prints the same and ends
alike, at the same line and for the same reason. -/
theorem renaming_unnoticed (time : Native → Nat → Except String Float) (policy : SinkPolicy)
    (past : List Request) (source : String) (program program' : List Stmt)
    (respelling : Respelling)
    (accepts : ((Session.start (Host.ofTime time) policy).reach past).Accepts source program)
    (noted : respelling.distances =
      (((Session.start (Host.ofTime time) policy).reach past).bound program).distances)
    (names : respelling.Identifiers)
    (absent : ∀ token ∈ (scan source).1, token.lexeme ≠ respelling.new)
    (renames : Stmt.ListRenames respelling respelling.declared [] program program') :
    (∃ source', respelling.Text source source' ∧
      ((Session.start (Host.ofTime time) policy).reach past).Holds source' program') ∧
    ∀ source', ((Session.start (Host.ofTime time) policy).reach past).Holds source' program' →
      ∃ read, ((Session.start (Host.ofTime time) policy).reach past).Accepts source' read ∧
        List.Forall₂ (fun one other =>
            (((Session.start (Host.ofTime time) policy).reach past).bound program).distances.get?
              one =
            (((Session.start (Host.ofTime time) policy).reach past).bound read).distances.get?
              other)
          (Stmt.listNumbers program) (Stmt.listNumbers read) ∧
        ∀ steps, EndsRespelled respelling
          (Session.run steps source ((Session.start (Host.ofTime time) policy).reach past))
          (Session.run steps source' ((Session.start (Host.ofTime time) policy).reach past)) := by
  obtain ⟨shaped, outside, tells⟩ := reached_steady time policy past
  obtain ⟨number, alike⟩ := (alike_start time policy).reach past
  generalize (Session.start (Host.ofTime time) policy).reach past = session at *
  obtain ⟨read, clean⟩ := accepts
  have old := ordinary_of_isLexeme names.old
  have new := ordinary_of_isLexeme names.new
  obtain ⟨placed, fresh⟩ := placed_of_read read
  have unused := unused_of_read read absent
  have sites := clean
  rw [faults_bindProgram] at sites
  have strict : Stmt.ListRenames respelling respelling.apart [] program program' :=
    renames.strict old new unused placed sites (by simp [Marks.here])
  have same := renamed_bindProgram new clean noted fresh.nodup
    (fun number inside => alike.vacant number (fresh.range number inside).1) placed strict
  refine ⟨exists_renamed_text names read renames, fun source' holds => ?_⟩
  obtain ⟨program'', read', unnumbered⟩ := holds
  have numbers := renames.numbers
  obtain ⟨faults, distances, number', agree⟩ := reread alike read' (numbers ▸ fresh) unnumbered
  have bound : session.bound program' = session.bound program := by
    unfold Session.bound
    rw [same]
  rw [same, clean] at faults
  rw [bound, numbers] at distances
  refine ⟨program'', ⟨read', faults⟩, ?_, fun steps => ?_⟩
  · exact distances.flip.imp fun _ _ equal => equal.symm
  · obtain ⟨layout, mirrored⟩ := mirrored_bound shaped outside tells noted names strict steps
    have agree := agree steps
    rw [bound] at agree
    exact endsRespelled mirrored agree
      (carries_run steps read clean) (carries_run steps read' faults)

end Session

/-! ## A captured variable -/

namespace Session

/-- What there is in a block with a variable, a function that returns it, and a `print` of
what the function returns. -/
structure Capturing where
  «variable» : Token
  function : Token
  keyword : Token
  use : Reference
  called : Reference
  paren : Token
  deriving DecidableEq

namespace Capturing

/-- The program with these parts. -/
def program (parts : Capturing) : List Stmt :=
  [.block [.var parts.variable none,
    .function ⟨parts.function, [], [.returning parts.keyword (some (.variable parts.use))]⟩,
    .print (.call (.variable parts.called) parts.paren [])]]

/-- The parts of such a program. -/
def ofProgram? : List Stmt → Option Capturing
  | [.block [.var declared none,
      .function ⟨function, [], [.returning keyword (some (.variable use))]⟩,
      .print (.call (.variable called) paren [])]] =>
      some ⟨declared, function, keyword, use, called, paren⟩
  | _ => none

/-- The parts of the program of a text. -/
def ofText? (source : String) : Option Capturing :=
  (readProgram source 0).1.toOption.bind ofProgram?

theorem program_of_ofProgram? {program : List Stmt} {parts : Capturing}
    (found : ofProgram? program = some parts) : program = parts.program := by
  unfold ofProgram? at found
  split at found
  · cases found
    rfl
  · nomatch found

theorem read_of_ofText? {source : String} {parts : Capturing}
    (found : ofText? source = some parts) : (readProgram source 0).1 = .ok parts.program := by
  unfold ofText? at found
  cases read : (readProgram source 0).1 with
  | error failure => simp [read, Except.toOption] at found
  | ok program =>
      simp only [read, Except.toOption, Option.bind_some] at found
      rw [program_of_ofProgram? found]

/-- The same text with two names for the variable. -/
theorem reads :
    ((ofText? "{ var a; fun f() { return a; } print f(); }").any fun one =>
      (ofText? "{ var b; fun f() { return b; } print f(); }").any fun other =>
        let bound := bindProgram one.program .empty
        decide (bound.1 = [] ∧ bound.2.get? one.use.id = some 1 ∧
          bound.2.get? one.called.id = some 0 ∧ one.variable.lexeme = "a" ∧
          one.use.name.lexeme = "a" ∧ one.called.name.lexeme = "f" ∧
          other = { one with
            «variable» := { one.variable with lexeme := "b" }
            use := { name := { one.use.name with lexeme := "b" }, id := other.use.id }
            called := { one.called with id := other.called.id } })) = true ∧
    ((scan "{ var a; fun f() { return a; } print f(); }").1.all fun token =>
      token.lexeme ≠ "b") = true := by
  decide +kernel

end Capturing

theorem isLexeme_letter {name : String} {letter : Char} (spelled : name.toList = [letter])
    (alphabetic : letter.isAlpha = true)
    (free : (Keyword.all.all fun keyword => decide (keyword.spelling ≠ [letter])) = true) :
    IsLexeme name.toList .identifier :=
  spelled ▸ .identifier (.inl alphabetic) (by simp) fun keyword =>
    of_decide_eq_true (List.all_eq_true.mp free keyword keyword.mem_all)

/-- A captured variable is renamed where it is declared and where the function uses it. -/
theorem renaming_unnoticed_capturing : ∃ program program' respelling,
    silent.Accepts "{ var a; fun f() { return a; } print f(); }" program ∧
      respelling.distances = (silent.bound program).distances ∧ respelling.old = "a" ∧
      respelling.new = "b" ∧ respelling.Identifiers ∧
      (∀ token ∈ (scan "{ var a; fun f() { return a; } print f(); }").1,
        token.lexeme ≠ respelling.new) ∧
      Stmt.ListRenames respelling respelling.declared [] program program' ∧
      silent.Holds "{ var b; fun f() { return b; } print f(); }" program' ∧
      ∀ steps, EndsRespelled respelling
        (Session.run steps "{ var a; fun f() { return a; } print f(); }" silent)
        (Session.run steps "{ var b; fun f() { return b; } print f(); }" silent) := by
  obtain ⟨checked, absent⟩ := Capturing.reads
  obtain ⟨one, found, checked⟩ := (Option.any_eq_true _ _).mp checked
  obtain ⟨other, found', checked⟩ := (Option.any_eq_true _ _).mp checked
  obtain ⟨clean, captured, near, named, used, called, same⟩ := of_decide_eq_true checked
  have read := Capturing.read_of_ofText? found
  have read' := Capturing.read_of_ofText? found'
  generalize noted : (silent.bound one.program).distances = distances
  have names : Respelling.Identifiers ⟨"a", "b", distances⟩ :=
    ⟨isLexeme_letter (show "a".toList = ['a'] by decide) (by decide) (by decide),
      isLexeme_letter (show "b".toList = ['b'] by decide) (by decide) (by decide)⟩
  have absent : ∀ token ∈ (scan "{ var a; fun f() { return a; } print f(); }").1,
      token.lexeme ≠ "b" :=
    fun token inside => of_decide_eq_true (List.all_eq_true.mp absent token inside)
  obtain ⟨program', renames, holds⟩ : ∃ program',
      Stmt.ListRenames ⟨"a", "b", distances⟩ (Respelling.declared ⟨"a", "b", distances⟩) []
        one.program program' ∧
      silent.Holds "{ var b; fun f() { return b; } print f(); }" program' := by
    refine ⟨_, .cons (.block true (fun _ => ?_) (.cons (.var trivial fun _ _ => trivial)
      (.cons (.function trivial (.intro false (absurd · Bool.false_ne_true) (fun _ _ => trivial)
        (.cons (.returning fun _ _ => trivial) .nil))) (.cons (.print trivial) .nil)))) .nil,
      _, read', ?_⟩
    · exact List.mem_flatMap.mpr ⟨_, .head _, named ▸ .head _⟩
    · have captured : distances.get? one.use.id = some 1 := noted ▸ captured
      have near : distances.get? one.called.id = some 0 := noted ▸ near
      have called : one.called.name.lexeme ≠ "a" := called ▸ by decide
      rw [same]
      simp [Capturing.program, Reference.unnumbered, Expr.rename, Expr.listRename, Respelling.use,
        Respelling.bound, Respelling.token, Respelling.name, captured, near, named, used, called]
  have both := renaming_unnoticed (fun _ _ => .error "no time") .unlimited [] _ _ _ _ ⟨read, clean⟩
    noted.symm names absent renames
  obtain ⟨_, _, _, ends⟩ := both.2 _ holds
  exact ⟨_, _, _, ⟨read, clean⟩, noted.symm, rfl, rfl, names, absent, renames, holds, ends⟩

end Session

end Lox
