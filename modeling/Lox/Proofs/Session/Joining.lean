import Lox.Proofs.Grammar.Extension
import Lox.Proofs.Session.Agreement
import Lox.Proofs.Session.Rejection
import Lox.Proofs.Session.Succession
import Lox.Proofs.Token.Joining

/-!
# Texts run line by line or all at once

Texts may be run one after another, or joined by line feeds and run as one. Both
print the same, leave the same behind and end in the same way. Only the lines of
tokens differ, each by the number of lines in front of the text it stands in.
-/

namespace Lox

/-- Texts, each moved down by the number of lines given for its place. -/
def loweredAll (lines : Nat → Nat) (sources : List String) : List String :=
  sources.mapIdx fun place source => lowered (lines place) source

/-- Every token stands for itself, and the tokens of texts moved down in one way for
those of the same texts moved down in another way. -/
def Likeness.moved (sources : List String) (lines lines' : Nat → Nat)
    (number : Nat → Nat → Prop) : Likeness where
  token one other := one = other ∨ ∃ place source, sources[place]? = some source ∧
    ∃ token ∈ (scan source).1,
      one = token.lowered (lines place) ∧ other = token.lowered (lines' place)
  number := number
  kind := by
    rintro one other (rfl | ⟨_, _, _, _, _, rfl, rfl⟩) <;> rfl
  lexeme := by
    rintro one other (rfl | ⟨_, _, _, _, _, rfl, rfl⟩) <;> rfl

/-! ## Reading texts moved down -/

theorem split_scan (source : String) :
    Cursor.split (scan source).1 = (words source, .atEnd (1 + lineFeeds source)) := by
  rw [scan_tokens]
  exact Grammar.split_append kind_words rfl

theorem contents_scan (source : String) :
    ((scan source).1.takeWhile fun token => token.kind ≠ .stop) = words source := by
  rw [← (Grammar.split_eq _).1, split_scan]

theorem lineFeeds_lowered (lines : Nat) (source : String) :
    lineFeeds (lowered lines source) = lineFeeds source + lines := by
  unfold lineFeeds lowered
  rw [String.toList_append, String.toList_ofList, List.count_append, List.count_replicate_self]
  exact Nat.add_comm _ _

/-- Two texts that are the same one moved down in two ways. -/
def Shifted (sources : List String) (lines lines' : Nat → Nat) (one other : String) : Prop :=
  ∃ place source, sources[place]? = some source ∧ (scan source).2 = [] ∧
    one = lowered (lines place) source ∧ other = lowered (lines' place) source

section Shifted

variable {sources : List String} {lines lines' : Nat → Nat} {one other : String}

theorem Shifted.clean (shifted : Shifted sources lines lines' one other) :
    (scan one).2 = [] ∧ (scan other).2 = [] := by
  obtain ⟨place, source, _, clean, rfl, rfl⟩ := shifted
  exact ⟨faults_lowered clean _, faults_lowered clean _⟩

/-- Any numbers may stand for each other while texts are read. -/
abbrev anyNumber (_ _ : Nat) : Prop := True

theorem Shifted.alike_tokens (shifted : Shifted sources lines lines' one other) (next next' : Nat) :
    (Cursor.ofTokens (scan one).1 next).Alike (.moved sources lines lines' anyNumber)
      (.ofTokens (scan other).1 next') := by
  obtain ⟨place, source, here, _, rfl, rfl⟩ := shifted
  have moved {token : Token} (inside : token ∈ (scan source).1) :
      (Likeness.moved sources lines lines' anyNumber).token (token.lowered (lines place))
        (token.lowered (lines' place)) :=
    .inr ⟨place, source, here, token, inside, rfl, rfl⟩
  rw [scan_tokens] at moved
  apply Grammar.alike_ofTokens
  · rw [split_scan, split_scan, words_lowered, words_lowered]
    rw [List.forall₂_map_left_iff, List.forall₂_map_right_iff]
    exact List.forall₂_same.mpr fun token inside => moved (List.mem_append_left _ inside)
  · rw [split_scan, split_scan, lineFeeds_lowered, lineFeeds_lowered]
    have stop := moved (List.mem_append_right _ (.head _))
    unfold Token.lowered Token.atEnd at stop
    unfold Token.atEnd
    rw [← Nat.add_assoc, ← Nat.add_assoc]
    exact stop

/-- Texts that are moved down hold programs alike. -/
theorem Shifted.alike_read (shifted : Shifted sources lines lines' one other)
    {next : Nat} (next' : Nat) {program : List Stmt}
    (read : (readProgram one next).1 = .ok program) :
    ∃ program', (readProgram other next').1 = .ok program' ∧
      List.Forall₂ (Stmt.Alike (.moved sources lines lines' anyNumber)) program program' := by
  have found := (readProgram_ok_iff.mp read).2
  have same := Grammar.alike_readProgram (fun _ _ => trivial) (shifted.alike_tokens next next')
  rw [found] at same
  generalize again : (Grammar.readProgram (scan other).1 next').1 = result at same
  cases same with
  | ok same => exact ⟨_, readProgram_ok_iff.mpr ⟨shifted.clean.2, again⟩, same⟩

end Shifted

theorem Faultless.lowered {source : String} (faultless : Faultless source) (lines : Nat) :
    Faultless (lowered lines source) := by
  obtain ⟨program, read, bound⟩ := faultless
  have clean := (readProgram_ok_iff.mp read).1
  have same : source = Lox.lowered 0 source := by simp [Lox.lowered]
  have shifted : Shifted [source] (fun _ => 0) (fun _ => lines) source (Lox.lowered lines source) :=
    ⟨0, source, rfl, clean, same, rfl⟩
  obtain ⟨program', read', alike⟩ := shifted.alike_read 0 read
  refine ⟨program', read', ?_⟩
  exact bound_of_alike alike (Session.placed_of_read read).2 (Session.placed_of_read read').2
    (fun free _ => Distances.get?_empty free) (fun free _ => Distances.get?_empty free) bound

theorem loweredAll_zero (sources : List String) : loweredAll (fun _ => 0) sources = sources := by
  unfold loweredAll lowered
  simp [List.mapIdx_eq_zipIdx_map]

theorem Faultless.loweredAll {sources : List String}
    (faultless : ∀ source ∈ sources, Faultless source) (lines : Nat → Nat) :
    ∀ source ∈ loweredAll lines sources, Faultless source := by
  intro source inside
  obtain ⟨place, own, rfl⟩ := List.mem_mapIdx.mp inside
  exact (faultless _ (List.getElem_mem own)).lowered (lines place)

theorem shifted_loweredAll {sources : List String}
    (faultless : ∀ source ∈ sources, Faultless source) (lines lines' : Nat → Nat) :
    List.Forall₂ (Shifted sources lines lines') (loweredAll lines sources)
      (loweredAll lines' sources) := by
  rw [List.forall₂_iff_get]
  refine ⟨by simp [Lox.loweredAll], fun place own own' => ?_⟩
  have within : place < sources.length := by simpa [Lox.loweredAll] using own
  refine ⟨place, sources[place], List.getElem?_eq_getElem within, ?_, ?_, ?_⟩
  · exact (faultless _ (List.getElem_mem within)).clean
  · simp [Lox.loweredAll]
  · simp [Lox.loweredAll]

/-! ## Programs of texts moved down -/

section Programs

variable {sources texts texts' : List String} {lines lines' : Nat → Nat}
variable {next next' last last' : Nat} {programs programs' : List (List Stmt)}

theorem Reads.alike (shifted : List.Forall₂ (Shifted sources lines lines') texts texts')
    (reads : Reads texts next programs last) (reads' : Reads texts' next' programs' last') :
    List.Forall₂ (List.Forall₂ (Stmt.Alike (.moved sources lines lines' anyNumber))) programs
      programs' := by
  induction shifted generalizing next next' programs programs' with
  | nil =>
      cases reads
      cases reads'
      exact .nil
  | cons first _ ih =>
      cases reads with
      | cons read later =>
          cases reads' with
          | cons read' later' =>
              obtain ⟨_, again, same⟩ := first.alike_read next' read
              cases read'.symm.trans again
              exact .cons same (ih later later')

/-- Several programs are alike for every pairing of all their numbers. -/
theorem Stmt.renumber_parts {likeness : Likeness} {number : Nat → Nat → Prop}
    (alike : List.Forall₂ (List.Forall₂ (Stmt.Alike likeness)) programs programs')
    (paired : List.Forall₂ number (Stmt.listNumbers programs.flatten)
      (Stmt.listNumbers programs'.flatten)) :
    List.Forall₂ (List.Forall₂ (Stmt.Alike (likeness.numbered number))) programs programs' := by
  induction alike with
  | nil => exact .nil
  | cons first _ ih =>
      rw [List.flatten_cons, List.flatten_cons, Stmt.listNumbers_append,
        Stmt.listNumbers_append, paired_append (Stmt.numbers_list first).length_eq] at paired
      exact .cons (Stmt.renumber_list first paired.1) (ih paired.2)

theorem Stmt.numbers_parts {likeness : Likeness}
    (alike : List.Forall₂ (List.Forall₂ (Stmt.Alike likeness)) programs programs') :
    List.Forall₂ likeness.number (Stmt.listNumbers programs.flatten)
      (Stmt.listNumbers programs'.flatten) :=
  Stmt.numbers_list (List.rel_flatten alike)

/-- What is related to several lists in succession consists of as many parts. -/
theorem parts_of_flatten {α β : Type} {related : α → β → Prop} {parts : List (List α)}
    {whole : List β} (same : List.Forall₂ related parts.flatten whole) :
    ∃ parts', whole = parts'.flatten ∧ List.Forall₂ (List.Forall₂ related) parts parts' := by
  induction parts generalizing whole with
  | nil =>
      cases same
      exact ⟨[], rfl, .nil⟩
  | cons first rest ih =>
      rw [List.flatten_cons] at same
      have front := (List.forall₂_take_append _ _ _ same.flip).flip
      have back := (List.forall₂_drop_append _ _ _ same.flip).flip
      obtain ⟨parts', split, later⟩ := ih back
      refine ⟨whole.take first.length :: parts', ?_, .cons front later⟩
      rw [List.flatten_cons, ← split, List.take_append_drop]

/-- Joined texts hold the programs of the texts in succession. -/
theorem Reads.joined (faultless : ∀ source ∈ sources, Faultless source)
    (reads : Reads (loweredAll (linesBefore sources) sources) next programs last) (free : Nat) :
    ∃ whole, (readProgram ("\n".intercalate sources) free).1 = .ok whole ∧
      Stmt.listUnnumbered whole = Stmt.listUnnumbered programs.flatten := by
  have derivations {texts : List String} {next last : Nat} {programs : List (List Stmt)}
      (reads : Reads texts next programs last) :
      List.Forall₂ Grammar.Program (texts.map words) programs := by
    induction reads with
    | nil => exact .nil
    | cons read _ ih =>
        have derivation := (Grammar.sound_readProgram (readProgram_ok_iff.mp read).2).1
        rw [contents_scan] at derivation
        exact .cons derivation ih
  have clean : ∀ source ∈ sources, (scan source).2 = [] :=
    fun source inside => (faultless source inside).clean
  have tokens : ((loweredAll (linesBefore sources) sources).map words).flatten =
      words ("\n".intercalate sources) := by
    rw [words_intercalate clean]
    unfold loweredAll
    rw [List.mapIdx_eq_zipIdx_map, List.mapIdx_eq_zipIdx_map, List.map_map]
    simp only [Function.comp_def, words_lowered]
  have derivation := Grammar.program_flatten (derivations reads)
  rw [tokens, ← contents_scan] at derivation
  obtain ⟨whole, read, same⟩ := Grammar.complete_readProgram free derivation
  exact ⟨whole, readProgram_ok_iff.mpr ⟨faults_intercalate clean, read⟩, same⟩

end Programs

/-! ## Runs of texts moved down -/

/-- Two machines in the same state, up to the lines of tokens and the numbers of uses
of names. In particular the same text was printed on both. -/
def Machine.Matches (one other : Machine) : Prop :=
  ∃ likeness : Likeness, likeness.OneToOne ∧ one.Alike likeness other

/-- Two runs of texts that end in the same way and leave the same behind. -/
inductive Session.Comparable (likeness : Likeness) :
    EStateM.Result Failure Session Unit → EStateM.Result Failure Session Unit → Prop where
  | ok {after after' : Session} (same : after.machine.Matches after'.machine) :
      Session.Comparable likeness (.ok () after) (.ok () after')
  | error {halt halt' : Halt} {after after' : Session} (halts : halt.Alike likeness halt')
      (same : after.machine.Matches after'.machine) :
      Session.Comparable likeness (.error (.ofHalt halt) after) (.error (.ofHalt halt') after')

namespace Session

variable {session : Session} {sources : List String} {lines lines' : Nat → Nat}

/-- What ends like a run with a fault ends with a fault. -/
theorem Comparable.fault {likeness : Likeness} {fault : RuntimeFault} {after : Session}
    {result : EStateM.Result Failure Session Unit}
    (same : Comparable likeness (.error (.runtime fault) after) result) :
    ∃ fault' after', result = .error (.runtime fault') after' ∧ fault.Alike likeness fault' ∧
      after.machine.Matches after'.machine := by
  generalize failed : (EStateM.Result.error (Failure.runtime fault) after :
    EStateM.Result Failure Session Unit) = first at same
  cases same with
  | ok _ => cases failed
  | error halts same =>
      cases halts with
      | outOfSteps => cases failed
      | fault faults =>
          cases failed
          exact ⟨_, _, rfl, faults, same⟩

theorem comparable_of_agree {likeness wider : Likeness} (apart : likeness.OneToOne)
    (within : likeness.Within wider) {result result' : EStateM.Result Halt Machine Unit}
    {ending ending' : EStateM.Result Failure Session Unit}
    (agree : Run.Agree likeness (fun _ _ => True) result result')
    (carries : Carries result ending) (carries' : Carries result' ending') :
    Comparable wider ending ending' := by
  cases agree with
  | ok _ machines =>
      cases carries
      cases carries'
      exact .ok ⟨likeness, apart, machines⟩
  | error halts machines =>
      cases carries
      cases carries'
      exact .error (halts.widen within) ⟨likeness, apart, machines⟩

section Comparing

variable {number : Nat → Nat → Prop} {programs programs' : List (List Stmt)} {last last' : Nat}

/-- The likeness in which numbers given out for the same texts stand for each other. -/
theorem oneToOne_moved (sources : List String) (lines lines' : Nat → Nat)
    (alike : session.Alike number session)
    (fresh : Fresh session.nextReference last (Stmt.listNumbers programs.flatten))
    (fresh' : Fresh session.nextReference last' (Stmt.listNumbers programs'.flatten)) :
    (Likeness.moved sources lines lines' (Likeness.extended number
      (Stmt.listNumbers programs.flatten) (Stmt.listNumbers programs'.flatten))).OneToOne :=
  @Likeness.OneToOne.extended (.moved sources lines lines' number) _ _ alike.apart _ _ _ _
    alike.given fresh fresh'

theorem noted_extended (alike : session.Alike number session)
    (fresh : Fresh session.nextReference last (Stmt.listNumbers programs.flatten))
    (fresh' : Fresh session.nextReference last' (Stmt.listNumbers programs'.flatten))
    {one other : Nat} (inside : Likeness.extended number (Stmt.listNumbers programs.flatten)
      (Stmt.listNumbers programs'.flatten) one other) :
    session.machine.distances.get? one = session.machine.distances.get? other := by
  cases inside with
  | inl old => exact alike.machine.distances old
  | inr new =>
      obtain ⟨own, own'⟩ := List.of_mem_zip new
      rw [alike.vacant _ (fresh.range _ own).1, alike.vacant _ (fresh'.range _ own').1]

theorem within_moved (sources : List String) (lines lines' : Nat → Nat)
    {number wider : Nat → Nat → Prop}
    (within : ∀ {one other : Nat}, number one other → wider one other) :
    (Likeness.exact number).Within (.moved sources lines lines' wider) :=
  ⟨fun same => .inl same, within⟩

end Comparing

/-- Texts that are moved down in different ways are run in the same way. -/
theorem comparable_loweredAll (steps : Nat) {number : Nat → Nat → Prop}
    (alike : session.Alike number session) (faultless : ∀ source ∈ sources, Faultless source)
    (lines lines' : Nat → Nat) :
    Comparable (.moved sources lines lines' anyNumber)
      (runAll steps (loweredAll lines sources) session)
      (runAll steps (loweredAll lines' sources) session) := by
  have clean := Faultless.loweredAll faultless lines
  obtain ⟨programs, last, reads⟩ := Reads.exists_of_faultless clean session.nextReference
  obtain ⟨programs', last', reads'⟩ :=
    Reads.exists_of_faultless (Faultless.loweredAll faultless lines') session.nextReference
  have bound := reads.clean clean alike.vacant
  have same := Reads.alike (shifted_loweredAll faultless lines lines') reads reads'
  have paired := Likeness.paired_extended number (Stmt.numbers_parts same).length_eq
  have apart := oneToOne_moved sources lines lines' alike reads.fresh reads'.fresh
  obtain ⟨bound', portions⟩ := Portion.alike_bound apart (Stmt.renumber_parts same paired)
    (noted_extended alike reads.fresh reads'.fresh) bound
  have machines := alike.machine.widen (within_moved sources lines lines' .inl)
    (noted_extended alike reads.fresh reads'.fresh)
  obtain ⟨wider, bounded, agree⟩ := corresponds_portions steps portions id machines
  apply comparable_of_agree _ _ agree (carries_runAll steps reads bound)
    (carries_runAll steps reads' bound')
  · exact fun _ _ _ _ here there => apart (bounded here) (bounded there)
  · exact ⟨id, fun _ => trivial⟩

/-- Texts in succession are run in the same way as all of them joined. -/
theorem comparable_joined (steps : Nat) {number : Nat → Nat → Prop}
    (alike : session.Alike number session) (flushes : session.machine.Flushes)
    (faultless : ∀ source ∈ sources, Faultless source) (lines : Nat → Nat) :
    Comparable (.moved sources lines (linesBefore sources) anyNumber)
      (runAll steps (loweredAll lines sources) session)
      (Session.run steps ("\n".intercalate sources) session) := by
  have clean := Faultless.loweredAll faultless lines
  obtain ⟨programs, last, reads⟩ := Reads.exists_of_faultless clean session.nextReference
  obtain ⟨placed, _, readsPlaced⟩ :=
    Reads.exists_of_faultless (Faultless.loweredAll faultless (linesBefore sources)) 0
  obtain ⟨whole, read, unnumbered⟩ := readsPlaced.joined faultless session.nextReference
  have loose := List.rel_flatten
    (Reads.alike (shifted_loweredAll faultless lines (linesBefore sources)) reads readsPlaced)
  obtain ⟨parts, rfl, same⟩ :=
    parts_of_flatten (Stmt.of_unnumbered_list (fun _ _ => trivial) loose unnumbered)
  have fresh := (placed_of_read read).2
  have bound := reads.clean clean alike.vacant
  have paired := Likeness.paired_extended number (Stmt.numbers_parts same).length_eq
  have apart := oneToOne_moved sources lines (linesBefore sources) alike reads.fresh fresh
  have earlier {one other : Nat} (old : number one other) :
      other ∉ Stmt.listNumbers parts.flatten :=
    fun own => absurd (fresh.range other own).1 (Nat.not_le.mpr (alike.given old).2)
  obtain ⟨bound', portions⟩ := Portion.alike_boundAtOnce apart (Stmt.renumber_parts same paired)
    (noted_extended alike reads.fresh fresh) bound fresh.nodup .inl earlier
  have noted {one other : Nat} (old : number one other) :
      session.machine.distances.get? one = (session.bound parts.flatten).distances.get? other :=
    (alike.machine.distances old).trans (distances_bindProgram _ _ (earlier old)).symm
  have machines := alike.machine.widen (within_moved sources lines (linesBefore sources) id) noted
  obtain ⟨wider, bounded, agree⟩ := corresponds_portions steps portions .inl machines
  have flushing : (session.bound parts.flatten).Flushes := flushes
  have whole := @interpret_flatten _ steps flushing parts
  have joined := carries_run steps read bound'
  rw [whole] at joined
  apply comparable_of_agree _ _ agree (carries_runAll steps reads bound) joined
  · exact fun _ _ _ _ here there => apart (bounded here) (bounded there)
  · exact ⟨id, fun _ => trivial⟩

end Session

/-! ## Where a fault was raised -/

/-- A fault a number of lines further down. -/
def RuntimeFault.lowered (lines : Nat) : RuntimeFault → RuntimeFault
  | .undefinedVariable name line => .undefinedVariable name (line + lines)
  | .undefinedProperty name line => .undefinedProperty name (line + lines)
  | .type fault line => .type fault (line + lines)
  | .output reason => .output reason

/-- Faults alike are the same one, up to their lines. -/
theorem RuntimeFault.Alike.lines {likeness : Likeness} {one other : RuntimeFault}
    (alike : one.Alike likeness other) :
    Option.Rel likeness.line one.line? other.line? ∧
      ∀ lines, other.line? = one.line?.map (· + lines) → other = one.lowered lines := by
  cases alike with
  | output reason => exact ⟨.none, fun _ _ => rfl⟩
  | _ name same =>
      refine ⟨.some same, fun lines down => ?_⟩
      cases down
      rfl

@[simp] theorem RuntimeFault.lowered_zero (fault : RuntimeFault) : fault.lowered 0 = fault := by
  cases fault <;> rfl

/-- Where texts are moved down in the same way, faults alike are the same. -/
theorem RuntimeFault.Alike.eq_of_moved {sources : List String} {lines : Nat → Nat}
    {number : Nat → Nat → Prop} {one other : RuntimeFault}
    (alike : one.Alike (.moved sources lines lines number) other) : other = one := by
  obtain ⟨related, lowers⟩ := alike.lines
  have equal : other.line? = one.line?.map (· + 0) := by
    generalize one.line? = line, other.line? = line' at related ⊢
    cases related with
    | none => rfl
    | some same =>
        obtain ⟨_, _, rfl | ⟨_, _, _, _, _, rfl, rfl⟩, rfl, rfl⟩ := same <;> rfl
  rw [lowers 0 equal, lowered_zero]

/-- The number of lines that the text at a place was moved down, if it is one of the
texts. -/
def movedBy (lines : Nat → Nat) (origin : Option Nat) : Nat :=
  origin.elim 0 lines

theorem exists_bound (numbers : List Nat) : ∃ bound, ∀ number ∈ numbers, number < bound := by
  induction numbers with
  | nil => exact ⟨0, by simp⟩
  | cons first rest ih =>
      obtain ⟨bound, above⟩ := ih
      refine ⟨first + 1 + bound, fun number inside => ?_⟩
      cases inside with
      | head => omega
      | tail _ later =>
          have below := above number later
          omega

section Origin

variable {count bound : Nat} {line : (Nat → Nat) → Nat}
variable (related : ∀ lines lines', line lines' = line lines ∨ ∃ place < count, ∃ own < bound,
  line lines = own + lines place ∧ line lines' = own + lines' place)
include related

/-- Texts moved far apart tell to which of them a line belongs. -/
theorem origin_of_spacing (width : Nat) (wide : bound ≤ width) (wider : line (fun _ => 0) < width) :
    ∃ origin : Option Nat, (∀ place ∈ origin, place < count) ∧
      ∀ lines : Nat → Nat, (∀ place < count, lines place < width) →
        line lines = line (fun _ => 0) + movedBy lines origin := by
  have far (place : Nat) : width ≤ width * (place + 1) := Nat.le_mul_of_pos_right _ place.succ_pos
  rcases related (fun _ => 0) (fun place => width * (place + 1)) with
    same | ⟨place, within, own, small, here, there⟩
  · -- A line that stays where it is belongs to none of the texts.
    refine ⟨none, by simp, fun lines _ => ?_⟩
    rcases related (fun place => width * (place + 1)) lines with
      again | ⟨other, _, own, _, spaced, _⟩
    · exact again.trans same
    · have beyond := far other
      omega
  · refine ⟨some place, by simpa using within, fun lines narrow => ?_⟩
    rcases related (fun place => width * (place + 1)) lines with
      again | ⟨other, _, own', small', spaced, moved⟩
    · -- Otherwise the line would stay as far down as no text is moved here.
      have beyond := far place
      rcases related (fun _ => 0) lines with stays | ⟨third, inside, own'', _, zero, down⟩
      · omega
      · have less := narrow third inside
        omega
    · have quotient {offset index : Nat} (less : offset < width) :
          (offset + width * (index + 1)) / width = index + 1 := by
        rw [Nat.add_mul_div_left _ _ (by omega), Nat.div_eq_of_lt less, Nat.zero_add]
      have places := congrArg (· / width) (there.symm.trans spaced)
      rw [quotient (show own < width by omega), quotient (show own' < width by omega)] at places
      obtain rfl : place = other := by omega
      change line lines = line (fun _ => 0) + lines place
      omega

/-- A line that is moved with one of several texts, whichever way they are moved,
belongs to the same text every time. -/
theorem exists_origin : ∃ origin : Option Nat, (∀ place ∈ origin, place < count) ∧
    ∀ lines : Nat → Nat, line lines = line (fun _ => 0) + movedBy lines origin := by
  have spaced (least : Nat) := origin_of_spacing related
    (bound + line (fun _ => 0) + 1 + least) (by omega) (by omega)
  obtain ⟨origin, range, moves⟩ := spaced (count + 1)
  refine ⟨origin, range, fun lines => ?_⟩
  obtain ⟨most, above⟩ := exists_bound ((List.range count).map lines)
  obtain ⟨again, _, movesAgain⟩ := spaced (count + 1 + most)
  have small (place : Nat) (within : place < count) : lines place < most :=
    above _ (List.mem_map_of_mem (List.mem_range.mpr within))
  -- Both spacings are wide enough for moving each text by a number of its own.
  have first := moves (· + 1) fun place within => by omega
  have second := movesAgain (· + 1) fun place within => by omega
  have same : again = origin := by
    cases again <;> cases origin <;> simp [movedBy] at first second ⊢ <;> omega
  rw [← same]
  exact movesAgain lines fun place within => by
    have less := small place within
    omega

end Origin

/-- Lines that stand for each other are those of one token, which stands where it
did or was moved with its text. -/
theorem Likeness.line_moved {sources : List String} {lines lines' : Nat → Nat}
    {number : Nat → Nat → Prop} {bound one other : Nat}
    (above : ∀ source ∈ sources, ∀ token ∈ (scan source).1, token.line < bound)
    (same : (moved sources lines lines' number).line one other) :
    other = one ∨ ∃ place < sources.length, ∃ own < bound,
      one = own + lines place ∧ other = own + lines' place := by
  obtain ⟨_, _, rfl | ⟨place, source, here, token, inside, rfl, rfl⟩, rfl, rfl⟩ := same
  · exact .inl rfl
  · obtain ⟨within, found⟩ := List.getElem?_eq_some_iff.mp here
    have member : source ∈ sources := found ▸ List.getElem_mem within
    exact .inr ⟨place, within, token.line, above source member token inside, rfl, rfl⟩

namespace Session

/-- Texts in succession fail with a fault at a token of the text at a place: however
the texts are moved down, the fault moves with that text. A fault at a token of an
earlier text stays where it is. -/
structure Raises (session : Session) (steps : Nat) (sources : List String) (fault : RuntimeFault)
    (origin : Option Nat) : Prop where
  within : ∀ place ∈ origin, place < sources.length
  moves : ∀ lines, ∃ after, runAll steps (loweredAll lines sources) session =
    .error (.runtime (fault.lowered (movedBy lines origin))) after

/-- How texts in succession and all of them joined end: in the same way, with the same
left behind, and with a fault as many lines further down as stand in front of the
text where it is raised. -/
inductive EndAlike (session : Session) (steps : Nat) (sources : List String) :
    EStateM.Result Failure Session Unit → EStateM.Result Failure Session Unit → Prop where
  | ok {after after' : Session} (same : after.machine.Matches after'.machine)
      (output : after.output = after'.output) :
      EndAlike session steps sources (.ok () after) (.ok () after')
  | outOfSteps {after after' : Session} (same : after.machine.Matches after'.machine)
      (output : after.output = after'.output) :
      EndAlike session steps sources (.error .outOfSteps after) (.error .outOfSteps after')
  | fault {fault : RuntimeFault} {origin : Option Nat} {after after' : Session}
      (raises : session.Raises steps sources fault origin)
      (same : after.machine.Matches after'.machine) (output : after.output = after'.output) :
      EndAlike session steps sources (.error (.runtime fault) after)
        (.error (.runtime (fault.lowered (movedBy (linesBefore sources) origin))) after')

theorem output_eq {one other : Session} (same : one.machine.Matches other.machine) :
    one.output = other.output := by
  obtain ⟨_, _, alike⟩ := same
  exact congrArg Sink.accepted alike.sink

section Faults

variable {session : Session} {steps : Nat} {sources : List String} {number : Nat → Nat → Prop}

/-- A fault of texts in succession is raised in one of them or in an earlier text. -/
theorem exists_raises (alike : session.Alike number session)
    (faultless : ∀ source ∈ sources, Faultless source) {fault : RuntimeFault} {after : Session}
    (failed : runAll steps sources session = .error (.runtime fault) after) :
    ∃ origin, session.Raises steps sources fault origin := by
  have compare (lines lines' : Nat → Nat) :=
    comparable_loweredAll steps alike faultless lines lines'
  have still : runAll steps (loweredAll (fun _ => 0) sources) session =
      .error (.runtime fault) after := by
    rw [loweredAll_zero]
    exact failed
  -- However the texts are moved, there is a fault alike.
  have fails (lines : Nat → Nat) : ∃ found behind,
      runAll steps (loweredAll lines sources) session = .error (.runtime found) behind ∧
        fault.Alike (.moved sources (fun _ => 0) lines anyNumber) found := by
    have same := compare (fun _ => 0) lines
    rw [still] at same
    obtain ⟨found, behind, ran, faults, _⟩ := same.fault
    exact ⟨found, behind, ran, faults⟩
  choose found behind ran same using fails
  have both (lines lines' : Nat → Nat) :
      (found lines).Alike (.moved sources lines lines' anyNumber) (found lines') := by
    have same := compare lines lines'
    rw [ran lines] at same
    obtain ⟨_, _, again, faults, _⟩ := same.fault
    cases (ran lines').symm.trans again
    exact faults
  obtain ⟨bound, above⟩ :=
    exists_bound ((sources.flatMap fun source => (scan source).1).map Token.line)
  have small : ∀ source ∈ sources, ∀ token ∈ (scan source).1, token.line < bound :=
    fun source inside token own =>
      above _ (List.mem_map_of_mem (List.mem_flatMap.mpr ⟨source, inside, own⟩))
  have zero : found (fun _ => 0) = fault := by
    have again := ran fun _ => 0
    cases still.symm.trans again
    rfl
  cases place : fault.line? with
  | none =>
      -- A fault without a line is the same everywhere.
      refine ⟨none, by simp, fun lines => ⟨behind lines, ?_⟩⟩
      obtain ⟨related, lowers⟩ := (same lines).lines
      have nowhere : (found lines).line? = none := by
        rw [place] at related
        generalize (found lines).line? = other at related
        cases related
        rfl
      rw [ran lines, lowers (movedBy lines none) (by rw [nowhere, place]; rfl)]
  | some line =>
      have placed (lines : Nat → Nat) : ∃ moved, (found lines).line? = some moved := by
        obtain ⟨related, _⟩ := (same lines).lines
        rw [place] at related
        generalize (found lines).line? = moved at related ⊢
        cases related with
        | some _ => exact ⟨_, rfl⟩
      choose moved stands using placed
      have related (lines lines' : Nat → Nat) : moved lines' = moved lines ∨
          ∃ place < sources.length, ∃ own < bound,
            moved lines = own + lines place ∧ moved lines' = own + lines' place := by
        obtain ⟨related, _⟩ := (both lines lines').lines
        rw [stands, stands, Option.rel_some_some] at related
        exact Likeness.line_moved small related
      obtain ⟨origin, range, moves⟩ := exists_origin related
      refine ⟨origin, range, fun lines => ⟨behind lines, ?_⟩⟩
      obtain ⟨_, lowers⟩ := (both (fun _ => 0) lines).lines
      rw [ran lines, lowers (movedBy lines origin) (by rw [stands, stands, moves lines]; rfl), zero]

end Faults

/-- Texts in succession, each of which is faultless, end as all of them joined by line
feeds, in every session whose sink refuses nothing. -/
theorem joined_run (time : Native → Nat → Except String Float) (past : List Request) (steps : Nat)
    (sources : List String) (faultless : ∀ source ∈ sources, Faultless source) :
    ((Session.start (Host.ofTime time) .unlimited).reach past).EndAlike steps sources
      (runAll steps sources ((Session.start (Host.ofTime time) .unlimited).reach past))
      (Session.run steps ("\n".intercalate sources)
        ((Session.start (Host.ofTime time) .unlimited).reach past)) := by
  obtain ⟨number, alike⟩ := (alike_start time .unlimited).reach past
  have first : (Session.start (Host.ofTime time) .unlimited).machine.sink.policy = .unlimited := rfl
  have policy := (lasting_policy .unlimited).reach first past
  generalize (Session.start (Host.ofTime time) .unlimited).reach past = session at alike policy ⊢
  have flushes : session.machine.Flushes := by
    intro accepted
    rw [policy]
    rfl
  have joined := comparable_joined steps alike flushes faultless (fun _ => 0)
  have placed := comparable_joined steps alike flushes faultless (linesBefore sources)
  rw [loweredAll_zero] at joined
  generalize ran : runAll steps sources session = result,
    Session.run steps ("\n".intercalate sources) session = result' at joined placed ⊢
  cases joined with
  | ok same => exact .ok same (output_eq same)
  | error halts same =>
      cases halts with
      | outOfSteps => exact .outOfSteps same (output_eq same)
      | @fault fault fault' faults =>
          obtain ⟨origin, raises⟩ := exists_raises alike faultless ran
          obtain ⟨_, moved⟩ := raises.moves (linesBefore sources)
          rw [moved] at placed
          obtain ⟨_, _, found, lowered, _⟩ := placed.fault
          cases found
          rw [lowered.eq_of_moved]
          exact .fault raises same (output_eq same)

/-- Whether reading and binding find nothing wrong with a text. -/
def checks (source : String) : Bool :=
  match (readProgram source 0).1 with
  | .ok program => (bindProgram program .empty).1.isEmpty
  | .error _ => false

theorem faultless_of_checks {source : String} (checked : checks source = true) :
    Faultless source := by
  unfold checks at checked
  split at checked
  · next program read => exact ⟨program, read, List.isEmpty_iff.mp checked⟩
  · cases checked

/-- A function is declared in one text and called in the next, where it fails: the
fault is that of the first text. -/
theorem joined_run_call :
    (∀ source ∈ ["var a;", "fun f() { return b; }", "f();"], Faultless source) ∧
      silent.EndAlike 9 ["var a;", "fun f() { return b; }", "f();"]
        (runAll 9 ["var a;", "fun f() { return b; }", "f();"] silent)
        (Session.run 9 ("\n".intercalate ["var a;", "fun f() { return b; }", "f();"]) silent) := by
  have faultless : ∀ source ∈ ["var a;", "fun f() { return b; }", "f();"], Faultless source := by
    have checked : ["var a;", "fun f() { return b; }", "f();"].all checks = true := by
      decide +kernel
    exact fun source inside => faultless_of_checks (List.all_eq_true.mp checked source inside)
  exact ⟨faultless, joined_run _ [] 9 _ faultless⟩

end Session

end Lox
