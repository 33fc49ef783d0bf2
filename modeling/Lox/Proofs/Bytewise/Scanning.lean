import Lox.Proofs.Bytewise.Segments
import Lox.Proofs.Token.Longest

/-!
# Scanning in range

A scanner that works on bytes gives the items of its text, one at a call. Whatever it reads or
cuts out on the way is in range, and every call that gives an item brings it further on, so
there are no more items than bytes, and one.
-/

namespace Lox

namespace Bytewise

open String (utf8Len)

variable {source : String} {steps line : Nat} {scanner : Scanner} {passed behind : List Char}

/-- A scanner between two segments. -/
structure Ahead (source : String) (scanner : Scanner) (line : Nat)
    (passed behind : List Char) : Prop where
  split : source.toList = passed ++ behind
  same : scanner.source = source
  start : scanner.start ≤ scanner.current
  current : scanner.current = utf8Len passed
  line : scanner.line = line

/-- A scanner and a stream have the same left to read. A scanner at its end stands behind
the text. -/
inductive Follows (source : String) (scanner : Scanner) : TokenStream → Prop where
  | ahead {line : Nat} {passed behind : List Char}
      (ahead : Ahead source scanner line passed behind) :
      Follows source scanner ⟨Segment.ofText behind, line, false⟩
  | ended {stream : TokenStream} (same : scanner.source = source)
      (start : scanner.start ≤ scanner.current)
      (current : scanner.current = source.utf8ByteSize + 1) (isEnded : stream.isEnded = true) :
      Follows source scanner stream

/-- How far a scanner may be when a stream is left. -/
def bound (source : String) (stream : TokenStream) : Nat :=
  if stream.isEnded then source.utf8ByteSize + 1 else source.utf8ByteSize

theorem size_le_bound (source : String) (stream : TokenStream) :
    source.utf8ByteSize ≤ bound source stream := by
  unfold bound
  split
  · exact Nat.le_succ _
  · exact Nat.le_refl _

theorem bound_le (source : String) (stream : TokenStream) :
    bound source stream ≤ source.utf8ByteSize + 1 := by
  unfold bound
  split
  · exact Nat.le_refl _
  · exact Nat.le_succ _

theorem bound_mono {before after : TokenStream} (stays : before.isEnded → after.isEnded) :
    bound source before ≤ bound source after := by
  by_cases ended : before.isEnded = true
  · rw [bound, bound, if_pos ended, if_pos (stays ended)]
  · rw [bound, if_neg ended]
    exact size_le_bound source after

namespace Follows

variable {stream : TokenStream}

theorem start_le (follows : Follows source scanner stream) : scanner.start ≤ scanner.current := by
  cases follows with
  | ahead ahead => exact ahead.start
  | ended same start current isEnded => exact start

/-- The current index is behind the text exactly when the stream has ended. -/
theorem current_le (follows : Follows source scanner stream) :
    scanner.current ≤ bound source stream ∧
      (scanner.current = source.utf8ByteSize + 1 → stream.isEnded = true) := by
  cases follows with
  | ahead ahead =>
      have size := utf8ByteSize_of_split ahead.split
      have current := ahead.current
      refine ⟨?_, fun further => ?_⟩
      · change _ ≤ source.utf8ByteSize
        omega
      · omega
  | ended same start current isEnded =>
      rw [bound, if_pos isEnded]
      exact ⟨Nat.le_of_eq current, fun _ => isEnded⟩

end Follows

theorem follows_ofText (source : String) :
    Follows source (.ofText source) (.ofText source) :=
  .ahead ⟨(List.nil_append _).symm, rfl, Nat.le_refl _, rfl, rfl⟩

/-- A text has no fewer bytes than characters. -/
theorem length_le_utf8Len (text : List Char) : text.length ≤ utf8Len text := by
  induction text with
  | nil => exact Nat.le_refl _
  | cons character rest ih =>
      have positive := character.utf8Size_pos
      rw [List.length_cons, String.utf8Len_cons]
      omega

/-! ## One call -/

theorem reaches_beginLexeme {limit : Nat} (below : source.utf8ByteSize ≤ limit)
    (ahead : Ahead source scanner line passed behind) :
    ∃ after, Reaches source limit beginLexeme scanner () after ∧
      Stands source after line passed [] behind := by
  have size := utf8ByteSize_of_split ahead.split
  have current := ahead.current
  refine ⟨{ scanner with start := scanner.current, pending := none },
    (reaches_modify fun _ => rfl).bind ((reaches_ask fun _ => rfl).bind
      ((reaches_ask fun _ => rfl).bind (reaches_enter ⟨Nat.le_refl _, ?_⟩))), ?_⟩
  · change scanner.current ≤ limit
    omega
  · exact ⟨by simpa using ahead.split, ahead.same, current, by simpa using current, ahead.line,
      rfl⟩

/-- Behind a segment comes the next one. -/
theorem Behind.ahead {segment : Segment} {rest : List Char}
    (stands : Behind source scanner line passed segment)
    (split : source.toList = passed ++ (segment.text ++ rest)) :
    Ahead source scanner (line + segment.lineFeeds) (passed ++ segment.text) rest where
  split := by rw [split, List.append_assoc]
  same := stands.same
  start := by
    rw [stands.start, stands.current, String.utf8Len_append]
    exact Nat.le_add_right _ _
  current := stands.current
  line := stands.line

section Give

variable {segment : Segment} {rest : List Char} {limit : Nat} {another : Scanning (Option Item)}

/-- Behind a segment that yields an item, the item is given. -/
theorem reaches_give {item : Item} (yields : segment.item? (line + segment.lineFeeds) = some item)
    (stands : Behind source scanner line passed segment)
    (split : source.toList = passed ++ segment.text ++ rest) :
    Reaches source limit (give another (segment.fault? (line + segment.lineFeeds))) scanner
      (some item) scanner := by
  cases segment with
  | blank | comment => cases yields
  | stray | openString =>
      cases yields
      exact .pure scanner _
  | lexeme kind text =>
      cases yields
      have pending : Reaches source limit (ask (·.pending)) scanner (some kind) scanner :=
        reaches_ask fun _ => stands.pending
      refine pending.bind
        ((reaches_ask fun _ => stands.start).bind ((reaches_ask fun _ => stands.current).bind
          ((reaches_textBetween split stands.same rfl rfl).bind
            ((reaches_ask fun _ => stands.line).bind ?_))))
      exact .pure scanner _

/-- Behind layout comes another round. -/
theorem reaches_give_layout {given : Option Item} {after : Scanner}
    (yields : segment.item? (line + segment.lineFeeds) = none)
    (stands : Behind source scanner line passed segment)
    (round : Reaches source limit another scanner given after) :
    Reaches source limit (give another (segment.fault? (line + segment.lineFeeds))) scanner
      given after := by
  cases segment with
  | blank | comment =>
      have pending : Reaches source limit (ask (·.pending)) scanner none scanner :=
        reaches_ask fun _ => stands.pending
      exact pending.bind round
  | stray | openString | lexeme => cases yields

end Give

/-- At the end of the text a call gives the closing token, and moves on behind the text. -/
theorem reaches_nextIn_end (rounds : Nat) (ahead : Ahead source scanner line passed []) :
    Reaches source (source.utf8ByteSize + 1) (nextIn steps (rounds + 1)) scanner
        (some (.token (.atEnd line))) (scanner.at (utf8Len passed + 1)) ∧
      Follows source (scanner.at (utf8Len passed + 1)) ⟨[], line, true⟩ ∧
      scanner.current < utf8Len passed + 1 := by
  have last : source.utf8ByteSize = utf8Len passed := by
    rw [utf8ByteSize_of_split ahead.split, String.utf8Len_nil, Nat.add_zero]
  have start := ahead.start
  have current := ahead.current
  refine ⟨?_, .ended ahead.same ?_ ?_ rfl, by omega⟩
  · refine (reaches_ask fun _ => current).bind ((reaches_ask fun _ => ahead.same).bind ?_)
    rw [if_pos (Nat.le_of_eq last.symm), if_pos last.symm]
    refine (reaches_moveTo ?_ ?_).bind ((reaches_ask fun _ => ahead.line).bind (.pure _ _))
    · omega
    · exact Nat.le_of_eq (congrArg (· + 1) last.symm)
  · change scanner.start ≤ utf8Len passed + 1
    omega
  · change utf8Len passed + 1 = _
    omega

/-- In front of a character a round passes over one segment, and goes on as this has it. -/
theorem reaches_round {limit : Nat} {character : Char} {rest : List Char}
    (enough : source.utf8ByteSize < steps) (rounds : Nat) (below : source.utf8ByteSize ≤ limit)
    (ahead : Ahead source scanner line passed (character :: rest)) :
    ∃ after, Behind source after line passed (Segment.first character rest) ∧
      scanner.current < after.current ∧ ∀ ⦃given final⦄,
        Reaches source limit (give (nextIn steps rounds) ((Segment.first character rest).fault?
          (line + (Segment.first character rest).lineFeeds))) after given final →
        Reaches source limit (nextIn steps (rounds + 1)) scanner given final := by
  have current := ahead.current
  have proper : utf8Len passed < source.utf8ByteSize := by
    have positive := character.utf8Size_pos
    rw [utf8ByteSize_of_split ahead.split, String.utf8Len_cons]
    omega
  obtain ⟨middle, began, stands⟩ := reaches_beginLexeme below ahead
  obtain ⟨after, settled, ended⟩ := settles_scanToken below enough stands
  refine ⟨after, ended, ?_, fun given final gives => ?_⟩
  · have nonempty := (Segment.first_isPrefix character rest).2
    have positive := String.utf8Len_eq_zero.not.mpr nonempty
    rw [current, ended.current, String.utf8Len_append]
    omega
  · refine (reaches_ask fun _ => current).bind ((reaches_ask fun _ => ahead.same).bind ?_)
    rw [if_pos (Nat.le_of_lt proper), if_neg (Nat.ne_of_lt proper)]
    exact began.bind (settled.bind gives)

/-- A call passes over layout and gives the item behind it. -/
theorem reaches_nextIn (enough : source.utf8ByteSize < steps) {rounds : Nat}
    (short : behind.length < rounds) (ahead : Ahead source scanner line passed behind) :
    ∃ after, Reaches source (bound source (TokenStream.advance line (Segment.ofText behind)).2)
        (nextIn steps rounds) scanner (some (TokenStream.advance line (Segment.ofText behind)).1)
        after ∧
      Follows source after (TokenStream.advance line (Segment.ofText behind)).2 ∧
      scanner.current < after.current := by
  induction rounds generalizing scanner line passed behind with
  | zero => exact absurd short (Nat.not_lt_zero _)
  | succ rounds ih =>
      cases behind with
      | nil => exact ⟨_, reaches_nextIn_end rounds ahead⟩
      | cons character rest =>
          obtain ⟨⟨others, split⟩, nonempty⟩ := Segment.first_isPrefix character rest
          have less : others.length ≤ rest.length := by
            have lengths := congrArg List.length split
            have positive := List.length_pos_iff.mpr nonempty
            rw [List.length_append, List.length_cons] at lengths
            omega
          rw [Segment.ofText_cons split.symm]
          generalize target : TokenStream.advance line
            (Segment.first character rest :: Segment.ofText others) = answer
          obtain ⟨after, ended, further, enters⟩ :=
            reaches_round enough rounds (size_le_bound source answer.2) ahead
          have next := ended.ahead (by rw [ahead.split, split])
          generalize Segment.first character rest = segment at *
          rw [TokenStream.advance] at target
          cases yields : segment.item? (line + segment.lineFeeds) with
          | some item =>
              rw [yields] at target
              subst target
              exact ⟨after, enters (reaches_give yields ended next.split), .ahead next, further⟩
          | none =>
              rw [yields] at target
              subst target
              obtain ⟨final, ran, follows, more⟩ := ih (Nat.lt_of_le_of_lt less
                (Nat.lt_of_succ_lt_succ short)) next
              exact ⟨final, enters (reaches_give_layout yields ended ran), follows,
                Nat.lt_trans further more⟩

/-- A call has the answer of the stream, and brings the scanner on if there is one. -/
theorem reaches_next (enough : source.utf8ByteSize < steps) {stream : TokenStream}
    (follows : Follows source scanner stream) :
    ∃ after, Reaches source (bound source stream.ask.2) (next steps) scanner stream.ask.1 after ∧
      Follows source after stream.ask.2 ∧
      (stream.ask.1 = none → after = scanner ∧
        ∀ log, next steps (scanner.logged log) = .ok none (scanner.logged log)) ∧
      (stream.ask.1 ≠ none → scanner.current < after.current) := by
  cases follows with
  | ahead ahead =>
      rename_i line passed behind
      have short : behind.length < steps := by
        have size := utf8ByteSize_of_split ahead.split
        have width := length_le_utf8Len behind
        omega
      obtain ⟨after, ran, follows, further⟩ := reaches_nextIn enough short ahead
      exact ⟨after, ran, follows, by rintro ⟨⟩, fun _ => further⟩
  | ended same start current isEnded =>
      have finished : stream.ask = (none, stream) := by
        rw [TokenStream.ask, TokenStream.next?, if_pos isEnded]
      have nothing (log) : next steps (scanner.logged log) = .ok none (scanner.logged log) := by
        have behindText : ¬scanner.current ≤ scanner.source.utf8ByteSize := by
          rw [current, same]
          exact Nat.not_succ_le_self _
        cases steps with
        | zero => exact absurd enough (Nat.not_lt_zero _)
        | succ steps =>
            change (if scanner.current ≤ scanner.source.utf8ByteSize then _ else _ :
              Scanning (Option Item)) _ = _
            rw [if_neg behindText]
            rfl
      rw [finished]
      refine ⟨scanner, fun log => ⟨[], by simp, ?_⟩, .ended same start current isEnded,
        fun _ => ⟨rfl, nothing⟩, fun some => absurd rfl some⟩
      rw [List.append_nil]
      exact nothing log

/-! ## Any number of calls -/

theorem ended_advance {line : Nat} {pending : List Segment}
    (ended : (TokenStream.advance line pending).2.isEnded = true) :
    ∃ last, (TokenStream.advance line pending).1 = .token (.atEnd last) := by
  induction pending generalizing line with
  | nil => exact ⟨line, rfl⟩
  | cons segment rest ih =>
      rw [TokenStream.advance] at ended ⊢
      split at ended
      · cases ended
      · exact ih ended

/-- A stream that has ended has given its closing token. -/
theorem ended_of_ask {stream : TokenStream} (ended : stream.ask.2.isEnded = true) :
    stream.isEnded = true ∨ ∃ line, stream.ask.1 = some (.token (.atEnd line)) := by
  by_cases before : stream.isEnded = true
  · exact .inl before
  · rw [TokenStream.ask, TokenStream.next?, if_neg before] at ended ⊢
    obtain ⟨last, closing⟩ := ended_advance ended
    exact .inr ⟨last, congrArg some closing⟩

theorem ended_ask {stream : TokenStream} (ended : stream.isEnded = true) :
    stream.ask.2.isEnded = true := by
  rw [TokenStream.ask, TokenStream.next?, if_pos ended]
  exact ended

/-- Calls have the answers of the stream, and every item brings the scanner on. -/
theorem reaches_calls (enough : source.utf8ByteSize < steps) (count : Nat) {stream : TokenStream}
    (follows : Follows source scanner stream) :
    ∃ after final, Reaches source (bound source final) (calls steps count) scanner
        ((List.range count).map stream.answer) after ∧
      Follows source after final ∧
      final.ask.1 = stream.answer count ∧
      (stream.isEnded = true → final.isEnded = true) ∧
      (final.isEnded = true → stream.isEnded = true ∨
        ∃ line, some (.token (.atEnd line)) ∈ (List.range count).map stream.answer) ∧
      scanner.current + ((List.range count).map stream.answer).countP Option.isSome ≤
        after.current := by
  induction count generalizing scanner stream with
  | zero => exact ⟨scanner, stream, .pure scanner [], follows, rfl, id, .inl, Nat.le_refl _⟩
  | succ count ih =>
      obtain ⟨middle, ran, between, stays, moves⟩ := reaches_next enough follows
      obtain ⟨after, final, ranOn, ended, upcoming, kept, closed, progress⟩ := ih between
      have answers : (List.range (count + 1)).map stream.answer =
          stream.ask.1 :: (List.range count).map stream.ask.2.answer := by
        rw [List.range_succ_eq_map, List.map_cons, List.map_map]
        rfl
      rw [answers]
      refine ⟨after, final, ?_, ended, upcoming, fun isEnded => kept (ended_ask isEnded), ?_, ?_⟩
      · exact (ran.raise (bound_mono kept)).bind (ranOn.bind (.pure after _))
      · intro isEnded
        rcases closed isEnded with before | ⟨line, inside⟩
        · refine (ended_of_ask before).imp_right ?_
          rintro ⟨line, last⟩
          exact ⟨line, List.mem_cons.mpr (.inl last.symm)⟩
        · exact .inr ⟨line, List.mem_cons_of_mem _ inside⟩
      · rw [List.countP_cons]
        cases given : stream.ask.1 with
        | none =>
            rw [(stays given).1] at progress
            simpa using progress
        | some item =>
            have further := moves (by rw [given]; exact Option.some_ne_none item)
            rw [Option.isSome_some, if_pos rfl]
            omega

/-- As many calls as there are items are all answered. -/
theorem countP_answers (stream : TokenStream) :
    ((List.range stream.items.length).map stream.answer).countP Option.isSome =
      stream.items.length := by
  have all : (List.range stream.items.length).map stream.answer = stream.items.map some := by
    refine List.ext_getElem? fun index => ?_
    rw [List.getElem?_map, List.getElem?_map]
    by_cases inside : index < stream.items.length
    · rw [List.getElem?_range inside, Option.map_some, TokenStream.answer_eq,
        List.getElem?_eq_getElem inside]
      rfl
    · simp [Nat.le_of_not_lt inside]
  rw [all, List.countP_map]
  simp

/-- A text has at most one item for each of its bytes and one closing token. -/
theorem length_items_le (source : String) :
    (TokenStream.ofText source).items.length ≤ source.utf8ByteSize + 1 := by
  obtain ⟨after, final, -, ended, -, -, -, progress⟩ := reaches_calls (Nat.lt_succ_self _)
    (TokenStream.ofText source).items.length (follows_ofText source)
  rw [countP_answers] at progress
  have last := Nat.le_trans ended.current_le.1 (bound_le source final)
  exact Nat.le_trans (Nat.le_add_left _ _) (Nat.le_trans progress last)

/-- A scanner never leaves its range. Any number of calls for the next item come to an end,
without a byte that is looked up behind the text and without a cut through a character, and
with a current index that is at no time in front of the start of the lexeme or more than one
behind the text, where it is only when the closing token has been given. The answers are the
items of the text, which are no more than its bytes and one, and one more call either brings
the scanner further on or gives nothing and changes nothing. -/
theorem scanning_in_range (source : String) (steps count : Nat)
    (enough : source.utf8ByteSize < steps) :
    ∃ answers after, calls steps count (.ofText source) = .ok answers after ∧
      (∀ event ∈ after.log, event.Within source (source.utf8ByteSize + 1)) ∧
      (after.start ≤ after.current ∧ after.current ≤ source.utf8ByteSize + 1) ∧
      ((∃ start, .moved start (source.utf8ByteSize + 1) ∈ after.log) →
        ∃ line, some (.token (.atEnd line)) ∈ answers) ∧
      answers = (List.range count).map ((TokenStream.ofText source).items[·]?) ∧
      (TokenStream.ofText source).items.length ≤ source.utf8ByteSize + 1 ∧
      ∃ answer later, next steps after = .ok answer later ∧
        answer = (TokenStream.ofText source).items[count]? ∧
        (∀ event ∈ later.log, event.Within source (source.utf8ByteSize + 1)) ∧
        (answer = none → later = after) ∧ (answer ≠ none → after.current < later.current) := by
  obtain ⟨after, final, ran, ended, upcoming, -, closed, -⟩ := reaches_calls enough count
    (follows_ofText source)
  obtain ⟨later, ranOn, endedOn, stays, moves⟩ := reaches_next enough ended
  have answers : (List.range count).map (TokenStream.ofText source).answer =
      (List.range count).map ((TokenStream.ofText source).items[·]?) :=
    List.map_congr_left fun call _ => TokenStream.answer_eq _ call
  rw [answers] at ran closed
  rw [TokenStream.answer_eq] at upcoming
  -- Being put at the first byte is the first event.
  obtain ⟨events, within, reached⟩ := ran [.moved 0 0]
  obtain ⟨more, withinMore, reachedMore⟩ := ranOn ([.moved 0 0] ++ events)
  have inside : ∀ event ∈ [.moved 0 0] ++ events, event.Within source (bound source final) := by
    intro event entered
    rcases List.mem_append.mp entered with first | entered
    · rw [List.mem_singleton.mp first]
      exact ⟨Nat.le_refl _, Nat.zero_le _⟩
    · exact within event entered
  refine ⟨_, _, reached,
    fun event entered => (inside event entered).raise (bound_le source final),
    ⟨ended.start_le, Nat.le_trans ended.current_le.1 (bound_le source final)⟩, ?_, rfl,
    length_items_le source, final.ask.1, _, reachedMore, upcoming, ?_, ?_, moves⟩
  · rintro ⟨start, entered⟩
    have beyond := (inside _ entered).2
    have isEnded : final.isEnded = true := by
      by_contra unfinished
      rw [bound, if_neg unfinished] at beyond
      exact Nat.not_succ_le_self _ beyond
    exact (closed isEnded).elim (fun atOnce => absurd atOnce Bool.false_ne_true) id
  · intro event entered
    rcases List.mem_append.mp entered with entered | entered
    · exact (inside event entered).raise (bound_le source final)
    · exact (withinMore event entered).raise (bound_le source _)
  · intro none
    have same := (stays none).2 ([.moved 0 0] ++ events)
    rw [reachedMore] at same
    exact (EStateM.Result.ok.inj same).2

/-- A string that is not closed, with a character of two bytes in it. -/
theorem scanning_in_range_of_openString : ("\"é").utf8ByteSize < 4 ∧
    ∃ answers after, calls 4 3 (.ofText "\"é") = .ok answers after ∧
      (∀ event ∈ after.log, event.Within "\"é" (("\"é").utf8ByteSize + 1)) ∧
      answers =
        [some (.fault (.lexical 1 .unterminatedString)), some (.token (.atEnd 1)), none] := by
  refine ⟨by decide, ?_⟩
  obtain ⟨answers, after, ran, within, -, -, given, -⟩ :=
    scanning_in_range "\"é" 4 3 (by decide)
  have items : (TokenStream.ofText "\"é").items =
      [.fault (.lexical 1 .unterminatedString), .token (.atEnd 1)] := by rfl
  rw [items] at given
  exact ⟨answers, after, ran, within, given⟩

end Bytewise

end Lox
