import Lox.Proofs.Grammar.Reading
import Lox.Proofs.Indexed.Reader

/-!
# An index beside a cursor

A reader by index and a cursor move together. What lies between the index and the first
closing token is what the cursor has left to read, and so the index never passes that
token. Two steps simulate one another when they keep this up with equal results. The
reader then neither looks outside of its list nor runs out of steps, because the end of
such a step is that of a cursor, which knows no third one.

A simulation holds for readings shorter than some length. The length shrinks where
tokens are passed over, and so it bounds the steps that a loop or a nesting may need.
-/

namespace Lox.Indexed

/-- A reader at the place of a cursor. The first closing token has the index `limit`. -/
structure Tracks (limit : Nat) (reader : Reader) (cursor : Cursor) : Prop where
  place : reader.index + cursor.rest.length = limit
  behind : cursor.rest ++ [cursor.stop] <+: reader.tokens.drop reader.index
  inner : ∀ token ∈ cursor.rest, token.kind ≠ .stop
  closing : cursor.stop.kind = .stop
  visited : ∀ index ∈ reader.visited, index ≤ limit
  next : reader.nextReference = cursor.nextReference
  reported : reader.reported = cursor.reported

/-- Two steps end alike, seen from a number of tokens in front of them. Where they
succeed, at least `used` of these have been passed over. -/
inductive Ends {α : Type} (limit start used : Nat) :
    EStateM.Result Halt Reader α → EStateM.Result Diagnostic Cursor α → Prop
  | ok {value : α} {reader : Reader} {cursor : Cursor} :
      Tracks limit reader cursor → cursor.rest.length + used ≤ start →
      Ends limit start used (.ok value reader) (.ok value cursor)
  | fault {diagnostic : Diagnostic} {reader : Reader} {cursor : Cursor} :
      Tracks limit reader cursor → cursor.rest.length ≤ start →
      Ends limit start used (.error (.fault diagnostic) reader) (.error diagnostic cursor)

/-- Wherever fewer than `length` tokens are left, two steps end alike and use at least
`used` of them. -/
def Simulates {α : Type} (limit length used : Nat) (step : Stepping α) (reading : Reading α) :
    Prop :=
  ∀ ⦃reader cursor⦄, Tracks limit reader cursor → cursor.rest.length < length →
    Ends limit cursor.rest.length used (step reader) (reading cursor)

variable {α β : Type} {limit length used start : Nat} {reader : Reader} {cursor : Cursor}
variable {token : Token} {rest : List Token} {kind : Token.Kind} {fault : SyntaxFault}

/-! ## The place of a reader -/

namespace Tracks

/-- The token that comes next is the one at the index. -/
theorem at_index (tracks : Tracks limit reader cursor) :
    reader.tokens[reader.index]? = some cursor.peek := by
  obtain ⟨others, shape⟩ := tracks.behind
  rw [← List.head?_drop, ← shape, Cursor.peek]
  cases cursor.rest <;> rfl

/-- Only at the end does a closing token come next. -/
theorem peek_kind (tracks : Tracks limit reader cursor) :
    (decide (cursor.peek.kind = .stop)) = cursor.rest.isEmpty := by
  rw [Cursor.peek]
  cases shape : cursor.rest with
  | nil => simp [tracks.closing]
  | cons token rest => simpa using tracks.inner token (by simp [shape])

theorem moved (tracks : Tracks limit reader cursor) (shape : cursor.rest = token :: rest) :
    Tracks limit reader.moved { cursor with rest := rest } where
  place := by
    have placed := tracks.place
    rw [shape, List.length_cons] at placed
    change reader.index + 1 + rest.length = limit
    omega
  behind := by
    obtain ⟨others, same⟩ := tracks.behind
    refine ⟨others, ?_⟩
    change rest ++ [cursor.stop] ++ others = reader.tokens.drop (reader.index + 1)
    rw [← List.tail_drop, ← same, shape]
    rfl
  inner other present := tracks.inner other (by simp [shape, show other ∈ rest from present])
  closing := tracks.closing
  visited index seen := by
    have placed := tracks.place
    rw [shape, List.length_cons] at placed
    rcases List.mem_cons.mp seen with rfl | seen
    · omega
    · exact tracks.visited index seen
  next := tracks.next
  reported := tracks.reported

/-- A reader is at the place of one cursor only. -/
theorem unique {other : Cursor} (tracks : Tracks limit reader cursor)
    (others : Tracks limit reader other) : cursor = other := by
  have length : cursor.rest.length = other.rest.length := by
    have one := tracks.place
    have two := others.place
    omega
  have shape : cursor.rest ++ [cursor.stop] = other.rest ++ [other.stop] := by
    refine (List.prefix_of_prefix_length_le tracks.behind others.behind ?_).eq_of_length ?_
    · simp [length]
    · simp [length]
  obtain ⟨rest, stop⟩ := List.append_inj shape length
  cases cursor
  cases other
  simp only [List.cons.injEq, and_true] at rest stop
  have next := tracks.next.symm.trans others.next
  have reported := tracks.reported.symm.trans others.reported
  simp only at next reported
  subst rest stop next reported
  rfl

end Tracks

/-- Two readings do the same in front of a closing token if they do so at the end and at
every kind of token. -/
theorem eq_of_kinds {one other : Reading α}
    (ended : ∀ lexeme line next reported,
      one ⟨[], ⟨.stop, lexeme, line⟩, next, reported⟩ =
        other ⟨[], ⟨.stop, lexeme, line⟩, next, reported⟩)
    (present : ∀ kind lexeme line rest stop next reported,
      one ⟨⟨kind, lexeme, line⟩ :: rest, stop, next, reported⟩ =
        other ⟨⟨kind, lexeme, line⟩ :: rest, stop, next, reported⟩)
    (closing : cursor.stop.kind = .stop) : one cursor = other cursor := by
  obtain ⟨rest, ⟨kind, lexeme, line⟩, next, reported⟩ := cursor
  cases rest with
  | nil =>
      obtain rfl : kind = .stop := closing
      exact ended lexeme line next reported
  | cons token rest => exact present token.kind token.lexeme token.line rest _ next reported

/-! ## What a reader does at its place -/

theorem bind_of_ok {step : Stepping α} {further : α → Stepping β} {value : α} {after : Reader}
    (ran : step reader = .ok value after) : (step >>= further) reader = further value after := by
  change EStateM.bind step further reader = _
  simp only [EStateM.bind, ran]

theorem bind_of_error {step : Stepping α} {further : α → Stepping β} {halt : Halt}
    {after : Reader} (ran : step reader = .error halt after) :
    (step >>= further) reader = .error halt after := by
  change EStateM.bind step further reader = _
  simp only [EStateM.bind, ran]

theorem tokenAt_of_some {index : Nat} (present : reader.tokens[index]? = some token) :
    tokenAt index reader = .ok token reader := by
  rw [tokenAt, bind_of_ok (rfl : (get : Stepping Reader) reader = .ok reader reader), present]
  rfl

theorem peek_eq (tracks : Tracks limit reader cursor) :
    peek reader = .ok cursor.peek reader := by
  rw [peek, bind_of_ok (rfl : (get : Stepping Reader) reader = .ok reader reader)]
  exact tokenAt_of_some tracks.at_index

/-- The token passed over last is the one that came next before that. -/
theorem previous_moved (tracks : Tracks limit reader cursor) :
    previous reader.moved = .ok cursor.peek reader.moved := by
  rw [previous, bind_of_ok (rfl : (get : Stepping Reader) reader.moved = .ok reader.moved _)]
  exact tokenAt_of_some tracks.at_index

theorem isAtEnd_eq (tracks : Tracks limit reader cursor) :
    isAtEnd reader = .ok cursor.rest.isEmpty reader := by
  rw [isAtEnd, bind_of_ok (peek_eq tracks), ← tracks.peek_kind]
  rfl

theorem advance_eq (tracks : Tracks limit reader cursor) (shape : cursor.rest = token :: rest) :
    advance reader = .ok token reader.moved := by
  have first : cursor.peek = token := by simp [Cursor.peek, shape]
  rw [advance, bind_of_ok (isAtEnd_eq tracks), shape, ← first]
  exact previous_moved tracks

theorem check_eq (tracks : Tracks limit reader cursor) :
    check kind reader = .ok (Reading.front kind cursor.rest) reader := by
  rw [check, bind_of_ok (isAtEnd_eq tracks)]
  cases shape : cursor.rest with
  | nil => rfl
  | cons token rest =>
      simp only [List.isEmpty_cons, Bool.false_eq_true, if_false]
      rw [bind_of_ok (peek_eq tracks), Cursor.peek, shape]
      rfl

theorem takes_of_front (tracks : Tracks limit reader cursor) (shape : cursor.rest = token :: rest)
    (seen : token.kind = kind) : takes kind reader = .ok true reader.moved := by
  rw [takes, bind_of_ok (check_eq tracks), shape, Reading.front_cons]
  simp only [seen, decide_true, if_true]
  rw [bind_of_ok (advance_eq tracks shape)]
  rfl

theorem takes_of_unseen (tracks : Tracks limit reader cursor)
    (unseen : Reading.front kind cursor.rest = false) : takes kind reader = .ok false reader := by
  rw [takes, bind_of_ok (check_eq tracks), unseen]
  rfl

/-- A test looks for kinds of tokens. Where one comes next, another step gives it and has
then passed over it. Where none does, nothing happens. -/
structure Decides (test : Stepping Bool) (pick : Stepping Token) (wanted : Token.Kind → Bool) :
    Prop where
  finds : ∀ {limit reader cursor token rest}, Tracks limit reader cursor →
    cursor.rest = token :: rest → wanted token.kind = true →
    ∃ middle, test reader = .ok true middle ∧ pick middle = .ok token reader.moved
  refuses : ∀ {limit reader cursor}, Tracks limit reader cursor →
    (∀ token rest, cursor.rest = token :: rest → wanted token.kind = false) →
    test reader = .ok false reader

theorem decides_takes (kind : Token.Kind) :
    Decides (takes kind) previous fun found => found = kind where
  finds tracks shape seen := by
    refine ⟨_, takes_of_front tracks shape (of_decide_eq_true seen), ?_⟩
    rw [previous_moved tracks, Cursor.peek, shape]
    rfl
  refuses {limit reader cursor} tracks refused := by
    apply takes_of_unseen tracks
    cases shape : cursor.rest with
    | nil => rfl
    | cons token rest => exact refused token rest shape

theorem decides_takesAny (kinds : List Token.Kind) :
    Decides (takesAny kinds) previous kinds.contains := by
  induction kinds with
  | nil => exact ⟨fun _ _ impossible => by simp at impossible, fun _ _ => rfl⟩
  | cons kind kinds ih =>
      constructor
      case finds =>
        intro limit reader cursor token rest tracks shape seen
        by_cases first : token.kind = kind
        · obtain ⟨middle, tested, picked⟩ :=
            (decides_takes kind).finds tracks shape (decide_eq_true first)
          refine ⟨middle, ?_, picked⟩
          rw [takesAny, bind_of_ok tested]
          rfl
        · obtain ⟨middle, tested, picked⟩ := ih.finds tracks shape (by simpa [first] using seen)
          refine ⟨middle, ?_, picked⟩
          rw [takesAny, bind_of_ok (takes_of_unseen tracks (by simp [shape, Reading.front, first]))]
          exact tested
      case refuses =>
        intro limit reader cursor tracks refused
        have absent (token : Token) (rest : List Token) (shape : cursor.rest = token :: rest) :
            ¬token.kind = kind ∧ kinds.contains token.kind = false := by
          simpa using refused token rest shape
        rw [takesAny, bind_of_ok ((decides_takes kind).refuses tracks ?_)]
        · exact ih.refuses tracks fun token rest shape => (absent token rest shape).2
        · exact fun token rest shape => decide_eq_false (absent token rest shape).1

/-- Looking for several kinds passes over nothing. -/
theorem checkAny_eq (kinds : List Token.Kind) (tracks : Tracks limit reader cursor) :
    checkAny kinds reader =
      .ok (kinds.any fun kind => Reading.front kind cursor.rest) reader := by
  induction kinds with
  | nil => rfl
  | cons kind kinds ih =>
      rw [checkAny, bind_of_ok (check_eq tracks), List.any_cons]
      cases Reading.front kind cursor.rest with
      | true => rfl
      | false => exact ih

theorem any_front (kinds : List Token.Kind) :
    (kinds.any fun kind => Reading.front kind (token :: rest)) = kinds.contains token.kind := by
  rw [List.contains_eq_any_beq]
  rfl

theorem decides_checkAny (kinds : List Token.Kind) :
    Decides (checkAny kinds) advance kinds.contains where
  finds {limit reader cursor token rest} tracks shape seen := by
    refine ⟨reader, ?_, advance_eq tracks shape⟩
    rw [checkAny_eq kinds tracks, shape, any_front, seen]
  refuses {limit reader cursor} tracks refused := by
    rw [checkAny_eq kinds tracks]
    cases shape : cursor.rest with
    | nil => simp [Reading.front]
    | cons token rest =>
        rw [any_front, refused token rest shape]

/-! ## Rules of simulation -/

theorem Ends.weaken {lower : Nat} {one : EStateM.Result Halt Reader α}
    {other : EStateM.Result Diagnostic Cursor α} (ends : Ends limit start used one other)
    (less : lower ≤ used) : Ends limit start lower one other := by
  cases ends with
  | ok tracks fits => exact .ok tracks (by omega)
  | fault tracks fits => exact .fault tracks fits

/-- Two readings that one step simulates have the same end. -/
theorem Ends.unique {step : EStateM.Result Halt Reader α}
    {one other : EStateM.Result Diagnostic Cursor α} (first : Ends limit start used step one)
    (second : Ends limit start used step other) : one = other := by
  cases first with
  | ok tracks _ =>
      cases second with
      | ok others _ => rw [tracks.unique others]
  | fault tracks _ =>
      cases second with
      | fault others _ => rw [tracks.unique others]

/-- What comes behind tokens already passed over. -/
theorem Ends.behind {first total : Nat} {one : EStateM.Result Halt Reader α}
    {other : EStateM.Result Diagnostic Cursor α} {middle : Nat}
    (ends : Ends limit middle (total - first) one other) (fits : middle + first ≤ start) :
    Ends limit start total one other := by
  cases ends with
  | ok tracks within => exact .ok tracks (by omega)
  | fault tracks within => exact .fault tracks (by omega)

/-- What comes behind a step is simulated where that step has ended. -/
theorem Ends.bind {first total : Nat} {step : Stepping α} {reading : Reading α}
    {next : α → Stepping β} {follows : α → Reading β}
    (ends : Ends limit start first (step reader) (reading cursor)) (fits : start < length)
    (back : ∀ value,
      Simulates limit (length - first) (total - first) (next value) (follows value)) :
    Ends limit start total ((step >>= next) reader) ((reading >>= follows) cursor) := by
  generalize one : step reader = result at ends
  generalize two : reading cursor = outcome at ends
  cases ends with
  | ok tracks within =>
      rw [bind_of_ok one, Reading.bind_of_ok two]
      exact (back _ tracks (by omega)).behind within
  | fault tracks within =>
      rw [bind_of_error one, Reading.bind_of_error two]
      exact .fault tracks within

namespace Simulates

variable {step other : Stepping α} {reading further : Reading α}

theorem weaken {shorter lower : Nat} (simulates : Simulates limit length used step reading)
    (less : shorter ≤ length) (fewer : lower ≤ used) :
    Simulates limit shorter lower step reading :=
  fun _ _ tracks fits => (simulates tracks (by omega)).weaken fewer

theorem shorter {shorter : Nat} (simulates : Simulates limit length used step reading)
    (less : shorter ≤ length) : Simulates limit shorter used step reading :=
  simulates.weaken less (Nat.le_refl _)

/-- How many tokens have been passed over need not be known. -/
theorem anyhow (simulates : Simulates limit length used step reading) :
    Simulates limit length 0 step reading :=
  simulates.weaken (Nat.le_refl _) (Nat.zero_le _)

/-- A reading may be replaced by one that does the same in front of a closing token. -/
theorem congr (simulates : Simulates limit length used step reading)
    (same : ∀ cursor, cursor.stop.kind = .stop → further cursor = reading cursor) :
    Simulates limit length used step further := by
  intro reader cursor tracks fits
  rw [same cursor tracks.closing]
  exact simulates tracks fits

/-- The same where nothing is left. -/
theorem at_end (simulates : Simulates limit 1 used step reading)
    (same : ∀ {reader cursor}, Tracks limit reader cursor → cursor.rest = [] →
      further cursor = reading cursor) :
    Simulates limit 1 used step further := by
  intro reader cursor tracks fits
  rw [same tracks (List.eq_nil_of_length_eq_zero (by omega))]
  exact simulates tracks fits

/-- What comes behind a token is simulated where that token has been passed over. -/
theorem past (simulates : Simulates limit (length - 1) (used - 1) step reading)
    (tracks : Tracks limit reader cursor) (shape : cursor.rest = token :: rest)
    (fits : cursor.rest.length < length) :
    Ends limit cursor.rest.length used (step reader.moved)
      (reading { cursor with rest := rest }) := by
  have shorter : rest.length + 1 = cursor.rest.length := by rw [shape, List.length_cons]
  refine (simulates (tracks.moved shape) ?_).behind (Nat.le_of_eq shorter)
  change rest.length < length - 1
  omega

protected theorem pure (value : α) :
    Simulates limit length 0 (pure value : Stepping α) (pure value : Reading α) :=
  fun _ _ tracks _ => .ok tracks (by omega)

protected theorem bind {first total : Nat} {next : α → Stepping β} {follows : α → Reading β}
    (front : Simulates limit length first step reading)
    (back : ∀ value,
      Simulates limit (length - first) (total - first) (next value) (follows value)) :
    Simulates limit length total (step >>= next) (reading >>= follows) :=
  fun _ _ tracks fits => (front tracks fits).bind fits back

/-- Two steps that are chosen by one condition. -/
protected theorem ite {condition : Prop} [Decidable condition] {yes no : Stepping α}
    {accepted refused : Reading α} (first : Simulates limit length used yes accepted)
    (second : Simulates limit length used no refused) :
    Simulates limit length used (if condition then yes else no)
      (if condition then accepted else refused) := by
  split
  · exact first
  · exact second

end Simulates

/-- Fewer than no tokens are never left. -/
theorem simulates_nothing {step : Stepping α} {reading : Reading α} :
    Simulates limit 0 used step reading :=
  fun _ _ _ impossible => absurd impossible (Nat.not_lt_zero _)

theorem simulates_fail (fault : SyntaxFault) :
    Simulates limit length used (fail fault : Stepping α) (Reading.fail fault) := by
  intro reader cursor tracks fits
  rw [fail, bind_of_ok (peek_eq tracks)]
  exact .fault tracks (Nat.le_refl _)

/-- Nothing follows a failure. -/
theorem simulates_fail_bind (fault : SyntaxFault) {next : β → Stepping α}
    {follows : β → Reading α} :
    Simulates limit length used (fail fault >>= next) (Reading.fail fault >>= follows) := by
  have failed : Simulates limit length length (fail fault : Stepping β) (Reading.fail fault) :=
    simulates_fail fault
  exact failed.bind fun _ => simulates_nothing.weaken (by omega) (Nat.le_refl _)

theorem simulates_isAtEnd : Simulates limit length 0 isAtEnd Reading.isAtEnd := by
  intro reader cursor tracks fits
  rw [isAtEnd_eq tracks]
  exact .ok tracks (Nat.le_refl _)

theorem simulates_check (kind : Token.Kind) :
    Simulates limit length 0 (check kind) (Reading.sees kind) := by
  intro reader cursor tracks fits
  rw [check_eq tracks, Reading.sees_eq]
  exact .ok tracks (Nat.le_refl _)

theorem simulates_refer (name : Token) :
    Simulates limit length 0 (refer name) (Reading.refer name) := by
  intro reader cursor tracks fits
  have referred : refer name reader = .ok ⟨name, reader.nextReference⟩
      { reader with nextReference := reader.nextReference + 1 } := rfl
  rw [referred, Reading.refer_ok.mpr ⟨rfl, rfl⟩, tracks.next]
  exact .ok { tracks with next := rfl } (Nat.le_refl _)

theorem simulates_consume (kind : Token.Kind) (fault : SyntaxFault) :
    Simulates limit length 1 (consume kind fault) (Reading.expect kind fault) := by
  intro reader cursor tracks fits
  rw [consume, bind_of_ok (check_eq tracks)]
  cases seen : Reading.front kind cursor.rest with
  | false =>
      have refused := Reading.accept_ok.mpr (.inl ⟨rfl, rfl, seen⟩)
      rw [Reading.expect, Reading.bind_of_ok refused]
      exact simulates_fail fault tracks fits
  | true =>
      cases shape : cursor.rest with
      | nil => simp [shape, Reading.front] at seen
      | cons token rest =>
          rw [shape, Reading.front_cons, decide_eq_true_iff] at seen
          rw [Reading.expect_of_front shape seen]
          simp only [if_true]
          rw [advance_eq tracks shape]
          exact .ok (tracks.moved shape) (by simp)

/-- Fail at a token seen before. -/
theorem simulates_failAt (token : Token) (fault : SyntaxFault) :
    Simulates limit length used (throw (.fault (.syntactic token fault)) : Stepping α)
      (Reading.failAt token fault) :=
  fun _ _ tracks _ => .fault tracks (Nat.le_refl _)

section Choices

variable {other : Stepping α}

/-- A test decides as an acceptance does, and what follows gets the token. -/
theorem Decides.simulates {test : Stepping Bool} {pick : Stepping Token}
    {wanted : Token.Kind → Bool} {next : Token → Stepping α} {follows : Option Token → Reading α}
    (decides : Decides test pick wanted)
    (yes : ∀ token, Simulates limit (length - 1) (used - 1) (next token) (follows (some token)))
    (no : Simulates limit length used other (follows none)) :
    Simulates limit length used
      (do if ← test then (do let token ← pick; next token) else other)
      (do let found ← Reading.acceptWhen wanted; follows found) := by
  intro reader cursor tracks fits
  obtain ⟨found, after, accepted⟩ := Reading.acceptWhen_total wanted cursor
  rw [Reading.bind_of_ok accepted]
  obtain ⟨rfl, rfl, refused⟩ | ⟨token, rest, rfl, shape, seen, rfl⟩ :=
    Reading.acceptWhen_ok.mp accepted
  · rw [bind_of_ok (decides.refuses tracks refused)]
    exact no tracks fits
  · obtain ⟨middle, tested, picked⟩ := decides.finds tracks shape seen
    rw [bind_of_ok tested]
    simp only [if_true]
    rw [bind_of_ok picked]
    exact (yes token).past tracks shape fits

/-- The same where the token is not looked at again. -/
theorem simulates_takes {step : Stepping α} {yes no : Reading α}
    (taken : Simulates limit (length - 1) (used - 1) step yes)
    (refused : Simulates limit length used other no) :
    Simulates limit length used
      (do if ← takes kind then step else other)
      (do if ← Reading.accepts kind then yes else no) := by
  intro reader cursor tracks fits
  cases seen : Reading.front kind cursor.rest with
  | false =>
      rw [bind_of_ok (takes_of_unseen tracks seen),
        Reading.bind_of_ok (Reading.accepts_of_unseen seen)]
      exact refused tracks fits
  | true =>
      cases shape : cursor.rest with
      | nil => simp [shape, Reading.front] at seen
      | cons token rest =>
          rw [shape, Reading.front_cons, decide_eq_true_iff] at seen
          rw [bind_of_ok (takes_of_front tracks shape seen),
            Reading.bind_of_ok (Reading.accepts_of_front shape seen), ← shape]
          exact taken.past tracks shape fits

end Choices

end Lox.Indexed
