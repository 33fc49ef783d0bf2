import Lox.Proofs.Bytewise.Text

/-!
# Steps in range

A step reaches a state with a value if it comes to an end there and everything that it enters
into the log on the way is in range. What the log holds already makes no difference to it, so
states are compared without their logs. Each of the small steps of a scanner is described by
the bytes on the two sides of the current index.
-/

namespace Lox.Bytewise

open String (utf8Len)

/-- The same state with another log. -/
def Scanner.logged (log : List Event) (scanner : Scanner) : Scanner :=
  { scanner with log := log }

variable {α β : Type} {source : String} {limit : Nat}

/-- What is within a limit is within a higher one. -/
theorem Event.Within.raise {event : Event} {higher : Nat} (le : limit ≤ higher)
    (within : event.Within source limit) : event.Within source higher := by
  cases event with
  | moved start current => exact ⟨within.1, Nat.le_trans within.2 le⟩
  | looked | taken | cut => exact within

/-- A step that ends in a state with a value, whatever the log holds, and enters only what is
in range. -/
def Reaches (source : String) (limit : Nat) (step : Scanning α) (before : Scanner) (value : α)
    (after : Scanner) : Prop :=
  ∀ log, ∃ events, (∀ event ∈ events, event.Within source limit) ∧
    step (before.logged log) = .ok value (after.logged (log ++ events))

namespace Reaches

variable {before middle after : Scanner} {value : α} {result : β}

theorem pure (scanner : Scanner) (value : α) :
    Reaches source limit (Pure.pure value) scanner value scanner := by
  intro log
  refine ⟨[], by simp, ?_⟩
  rw [List.append_nil]
  rfl

theorem bind {step : Scanning α} {next : α → Scanning β}
    (first : Reaches source limit step before value middle)
    (second : Reaches source limit (next value) middle result after) :
    Reaches source limit (step >>= next) before result after := by
  intro log
  obtain ⟨events, within, ran⟩ := first log
  obtain ⟨more, withinMore, ranMore⟩ := second (log ++ events)
  refine ⟨events ++ more, ?_, ?_⟩
  · intro event inside
    exact (List.mem_append.mp inside).elim (within event) (withinMore event)
  · rw [← List.append_assoc, ← ranMore]
    change EStateM.bind step next (before.logged log) = _
    rw [EStateM.bind, ran]

/-- A higher limit holds as well. -/
theorem raise {step : Scanning α} {higher : Nat} (le : limit ≤ higher)
    (reaches : Reaches source limit step before value after) :
    Reaches source higher step before value after := by
  intro log
  obtain ⟨events, within, ran⟩ := reaches log
  exact ⟨events, fun event inside => (within event inside).raise le, ran⟩

end Reaches

variable {scanner : Scanner}

theorem reaches_ask {field : Scanner → α} {value : α}
    (same : ∀ log, field (scanner.logged log) = value) :
    Reaches source limit (ask field) scanner value scanner := by
  intro log
  refine ⟨[], by simp, ?_⟩
  rw [List.append_nil, ← same log]
  rfl

theorem reaches_enter {event : Event} (within : event.Within source limit) :
    Reaches source limit (enter event) scanner () scanner :=
  fun log => ⟨[event], by simpa using within, rfl⟩

/-- A change of the state that enters nothing. -/
theorem reaches_modify {change : Scanner → Scanner}
    (same : ∀ log, change (scanner.logged log) = (change scanner).logged log) :
    Reaches source limit (modify change) scanner () (change scanner) := by
  intro log
  refine ⟨[], by simp, ?_⟩
  rw [List.append_nil, ← same log]
  rfl

/-! ## Bytes on both sides -/

/-- A scanner with some bytes of its source in front of the current index and the others
behind it. -/
structure Between (source : String) (scanner : Scanner) (front back : List UInt8) : Prop where
  bytes : encoded source.toList = front ++ back
  same : scanner.source = source
  current : scanner.current = front.length
  start : scanner.start ≤ front.length

/-- The state with another current index. -/
def Scanner.at (index : Nat) (scanner : Scanner) : Scanner :=
  { scanner with current := index }

/-- The state on another line. -/
def Scanner.onLine (line : Nat) (scanner : Scanner) : Scanner :=
  { scanner with line := line }

namespace Between

variable {front back : List UInt8} {byte : UInt8}

theorem size (between : Between source scanner front back) :
    source.utf8ByteSize = front.length + back.length := by
  rw [← String.utf8Len_toList, ← length_encoded, between.bytes, List.length_append]

/-- Further on by some bytes. -/
theorem further (passed : List UInt8) (between : Between source scanner front (passed ++ back)) :
    Between source (scanner.at (front.length + passed.length)) (front ++ passed) back where
  bytes := by rw [between.bytes, List.append_assoc]
  same := between.same
  current := List.length_append.symm
  start := by
    rw [List.length_append]
    exact Nat.le_trans between.start (Nat.le_add_right _ _)

theorem onLine (between : Between source scanner front back) (line : Nat) :
    Between source (scanner.onLine line) front back :=
  ⟨between.bytes, between.same, between.current, between.start⟩

/-- The scanner stands behind the bytes in front. -/
theorem stays (between : Between source scanner front back) :
    scanner.at front.length = scanner := by
  rw [← between.current]
  rfl

end Between

section Steps

variable {front back : List UInt8} {byte : UInt8}

theorem reaches_byteAt {index : Nat} (found : (encoded source.toList)[index]? = some byte)
    (same : scanner.source = source) :
    Reaches source limit (byteAt index) scanner byte scanner := by
  have inside : Event.Within source limit (.looked index) := by
    change index < source.utf8ByteSize
    rw [← String.utf8Len_toList, ← length_encoded]
    exact (List.getElem?_eq_some_iff.mp found).1
  refine (reaches_enter inside).bind ((reaches_ask fun _ => same).bind ?_)
  rw [found]
  exact .pure scanner byte

theorem reaches_bytesBetween {middle : List UInt8} {first last : Nat}
    (bytes : encoded source.toList = front ++ middle ++ back) (same : scanner.source = source)
    (begins : first = front.length) (ends : last = (front ++ middle).length) :
    Reaches source limit (bytesBetween first last) scanner middle scanner := by
  have length := congrArg List.length bytes
  rw [length_encoded, String.utf8Len_toList] at length
  simp only [List.length_append] at length ends
  have within : Event.Within source limit (.taken first last) := ⟨by omega, by omega⟩
  refine (reaches_enter within).bind ((reaches_ask fun _ => same).bind ?_)
  have inside : first ≤ last ∧ last ≤ (encoded source.toList).length := by
    rw [length_encoded, String.utf8Len_toList]
    exact within
  have cut : ((encoded source.toList).drop first).take (last - first) = middle := by
    rw [bytes, List.append_assoc, begins, ends, List.drop_left, Nat.add_sub_cancel_left,
      List.take_left]
  dsimp only
  rw [if_pos inside, cut]
  exact .pure scanner middle

theorem reaches_textBetween {front middle back : List Char} {first last : Nat}
    (split : source.toList = front ++ middle ++ back) (same : scanner.source = source)
    (begins : first = utf8Len front) (ends : last = utf8Len (front ++ middle)) :
    Reaches source limit (textBetween first last) scanner middle scanner := by
  subst begins ends
  have order : utf8Len front ≤ utf8Len (front ++ middle) := by
    rw [String.utf8Len_append]
    exact Nat.le_add_right _ _
  have one := isValid_of_split (split.trans (List.append_assoc _ _ _))
  have other := isValid_of_split split
  have within : Event.Within source limit (.cut (utf8Len front) (utf8Len (front ++ middle))) :=
    ⟨order, one, other⟩
  refine (reaches_enter within).bind ((reaches_ask fun _ => same).bind ?_)
  rw [if_pos ⟨order, String.Pos.Raw.isValid_eq_true_iff.mpr one,
    String.Pos.Raw.isValid_eq_true_iff.mpr other⟩, extract_of_split split]
  exact .pure scanner middle

theorem reaches_moveTo {index : Nat} (behind : scanner.start ≤ index) (below : index ≤ limit) :
    Reaches source limit (moveTo index) scanner () (scanner.at index) :=
  (reaches_modify fun _ => rfl).bind
    ((reaches_ask fun _ => rfl).bind (reaches_enter ⟨behind, below⟩))

theorem reaches_isAtEnd (between : Between source scanner front back) :
    Reaches source limit isAtEnd scanner (decide (back = [])) scanner := by
  refine (reaches_ask fun _ => between.same).bind ((reaches_ask fun _ => between.current).bind ?_)
  have same : decide (source.utf8ByteSize ≤ front.length) = decide (back = []) := by
    rw [between.size]
    simp
  rw [same]
  exact .pure scanner _

theorem reaches_advance (below : source.utf8ByteSize ≤ limit)
    (between : Between source scanner front (byte :: back)) :
    Reaches source limit advance scanner byte (scanner.at (front.length + 1)) := by
  have size := between.size
  rw [List.length_cons] at size
  have found : (encoded source.toList)[front.length]? = some byte := by
    rw [between.bytes]
    simp
  have start := between.start
  refine (reaches_ask fun _ => between.current).bind
    ((reaches_byteAt found between.same).bind ((reaches_moveTo ?_ ?_).bind (.pure _ byte)))
  · omega
  · omega

theorem reaches_peek (between : Between source scanner front back) :
    Reaches source limit peek scanner (back.headD 0) scanner := by
  refine (reaches_isAtEnd between).bind ?_
  cases back with
  | nil => exact .pure scanner 0
  | cons byte rest =>
      have found : (encoded source.toList)[front.length]? = some byte := by
        rw [between.bytes]
        simp
      exact (reaches_ask fun _ => between.current).bind (reaches_byteAt found between.same)

theorem reaches_peekNext (between : Between source scanner front back) :
    Reaches source limit peekNext scanner (back.tail.headD 0) scanner := by
  refine (reaches_ask fun _ => between.same).bind ((reaches_ask fun _ => between.current).bind ?_)
  rw [between.size]
  match back with
  | [] =>
      rw [if_pos (by simp)]
      exact .pure scanner 0
  | [_] =>
      rw [if_pos (by simp)]
      exact .pure scanner 0
  | byte :: second :: rest =>
      have found : (encoded source.toList)[front.length + 1]? = some second := by
        rw [between.bytes]
        simp
      rw [if_neg (by simp)]
      exact (reaches_ask fun _ => between.current).bind (reaches_byteAt found between.same)

theorem reaches_takes_of_ne {expected : Char} (between : Between source scanner front back)
    (other : ∀ byte ∈ back.head?, charOf byte ≠ expected) :
    Reaches source limit (takes expected) scanner false scanner := by
  refine (reaches_isAtEnd between).bind ?_
  cases back with
  | nil => exact .pure scanner false
  | cons byte rest =>
      refine (reaches_peek between).bind ?_
      rw [List.headD_cons, if_neg (other byte rfl)]
      exact .pure scanner false

theorem reaches_takes_of_eq (below : source.utf8ByteSize ≤ limit) {expected : Char}
    (between : Between source scanner front (byte :: back)) (same : charOf byte = expected) :
    Reaches source limit (takes expected) scanner true (scanner.at (front.length + 1)) := by
  refine (reaches_isAtEnd between).bind ((reaches_peek between).bind ?_)
  rw [List.headD_cons, if_pos same]
  exact (reaches_advance below between).bind (.pure _ true)

/-! ## Loops -/

/-- A loop over allowed bytes stops behind the last of them. -/
theorem reaches_passWhile (below : source.utf8ByteSize ≤ limit) {allowed : Char → Bool}
    (ends : allowed '\x00' = false) {steps : Nat} (between : Between source scanner front back)
    (enough : back.length < steps) :
    Reaches source limit (passWhile allowed steps) scanner ()
      (scanner.at (front.length + (back.takeWhile fun byte => allowed (charOf byte)).length)) := by
  induction steps generalizing scanner front back with
  | zero => exact absurd enough (Nat.not_lt_zero _)
  | succ steps ih =>
      refine (reaches_peek between).bind ?_
      cases back with
      | nil =>
          have stopped : ¬allowed (charOf (([] : List UInt8).headD 0)) = true := by
            change ¬allowed '\x00' = true
            rw [ends]
            exact Bool.false_ne_true
          rw [if_neg stopped, List.takeWhile_nil, List.length_nil, Nat.add_zero, between.stays]
          exact .pure scanner ()
      | cons byte rest =>
          rw [List.headD_cons, List.takeWhile_cons]
          by_cases more : allowed (charOf byte) = true
          · have next := between.further [byte]
            have others := ih next (Nat.lt_of_succ_lt_succ enough)
            rw [List.length_append, Nat.add_assoc, Nat.add_comm [byte].length] at others
            rw [if_pos more, if_pos more]
            exact (reaches_advance below between).bind others
          · rw [if_neg more, if_neg more, List.length_nil, Nat.add_zero, between.stays]
            exact .pure scanner ()

/-- The bytes of a string are passed over up to a quote or to the end, and its lines are
counted. -/
theorem reaches_passString (below : source.utf8ByteSize ≤ limit) {steps : Nat}
    {body : List UInt8} (between : Between source scanner front (body ++ back))
    (inside : ∀ byte ∈ body, charOf byte ≠ '"')
    (ends : ∀ byte ∈ back.head?, charOf byte = '"') (enough : body.length < steps) :
    Reaches source limit (passString steps) scanner ()
      ((scanner.at (front.length + body.length)).onLine
        (scanner.line + body.countP fun byte => decide (charOf byte = '\n'))) := by
  induction steps generalizing scanner front body with
  | zero => exact absurd enough (Nat.not_lt_zero _)
  | succ steps ih =>
      refine (reaches_isAtEnd between).bind ?_
      cases body with
      | nil =>
          have stopped : ((scanner.at (front.length + ([] : List UInt8).length)).onLine
              (scanner.line + ([] : List UInt8).countP fun byte =>
                decide (charOf byte = '\n'))) = scanner :=
            between.stays
          rw [stopped]
          cases back with
          | nil => exact .pure scanner ()
          | cons byte rest =>
              refine (reaches_peek between).bind ?_
              rw [List.nil_append, List.headD_cons, if_pos (ends byte rfl)]
              exact .pure scanner ()
      | cons byte rest =>
          have next := between.further [byte]
          have enough : rest.length < steps := Nat.lt_of_succ_lt_succ enough
          have within : ∀ byte ∈ rest, charOf byte ≠ '"' :=
            fun other later => inside other (List.mem_cons_of_mem _ later)
          have index : (front ++ [byte]).length + rest.length =
              front.length + (byte :: rest).length := by
            simp only [List.length_append, List.length_cons, List.length_nil]
            omega
          refine (reaches_peek between).bind ?_
          rw [List.cons_append, List.headD_cons, if_neg (inside byte List.mem_cons_self)]
          refine (reaches_advance below between).bind ?_
          by_cases feed : charOf byte = '\n'
          · have others := ih (next.onLine (scanner.line + 1)) within enough
            have line : scanner.line + 1 + rest.countP (fun byte => decide (charOf byte = '\n')) =
                scanner.line +
                  (byte :: rest).countP fun byte => decide (charOf byte = '\n') := by
              rw [List.countP_cons_of_pos (by simpa using feed)]
              omega
            rw [index] at others
            rw [if_pos feed, ← line]
            exact (reaches_modify fun _ => rfl).bind others
          · have others := ih next within enough
            rw [index] at others
            rw [if_neg feed, List.countP_cons_of_neg (by simpa using feed)]
            exact others

end Steps

end Lox.Bytewise
