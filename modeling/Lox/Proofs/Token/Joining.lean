import Lox.Token.Stream

/-!
# Texts joined by line feeds

A line feed ends every token but an open string. So the tokens of texts that are
joined by line feeds are those of the texts one after another, each moved down by
the number of line feeds in front of its text.
-/

namespace Lox

/-! ## Moved down -/

/-- A token a number of lines further down. -/
def Token.lowered (lines : Nat) (token : Token) : Token :=
  { token with line := token.line + lines }

/-- A text a number of lines further down. -/
def lowered (lines : Nat) (source : String) : String :=
  String.ofList (List.replicate lines '\n') ++ source

/-- The number of line feeds in a text. -/
def lineFeeds (source : String) : Nat :=
  source.toList.count '\n'

/-- The number of line feeds in front of a text, by its place, where texts are
joined by line feeds. -/
def linesBefore : List String → Nat → Nat
  | [], _ => 0
  | _ :: _, 0 => 0
  | first :: rest, place + 1 => lineFeeds first + 1 + linesBefore rest place

@[simp] theorem Token.lowered_zero : Token.lowered 0 = id := rfl

theorem Token.lowered_lowered (first second : Nat) (token : Token) :
    (token.lowered first).lowered second = token.lowered (second + first) := by
  unfold Token.lowered
  simp only [Token.mk.injEq, true_and]
  omega

namespace Segment

/-! ## Segments in front of a line feed -/

/-- Whether reading a segment finds a fault. -/
def isFaulty : Segment → Bool
  | .stray _ | .openString _ => true
  | _ => false

/-- Whether a segment goes on to the end of the text, whatever comes behind it. -/
def isOpen : Segment → Bool
  | .openString _ => true
  | _ => false

theorem isOpen_of_faultless {segment : Segment} (faultless : segment.isFaulty = false) :
    segment.isOpen = false := by
  cases segment with
  | openString => cases faultless
  | _ => rfl

/-- Characters up to one that is missing in a list are not affected by what comes
behind a line feed. -/
theorem takeWhile_lineFeed {stays : Char → Bool} (stops : stays '\n' = false)
    (front more : List Char) :
    (front ++ '\n' :: more).takeWhile stays = front.takeWhile stays := by
  induction front with
  | nil => simp [stops]
  | cons character rest ih =>
      rw [List.cons_append, List.takeWhile_cons, List.takeWhile_cons, ih]

theorem dropWhile_lineFeed {stays : Char → Bool} (stops : stays '\n' = false)
    (front more : List Char) :
    (front ++ '\n' :: more).dropWhile stays = front.dropWhile stays ++ '\n' :: more := by
  induction front with
  | nil => simp [stops]
  | cons character rest ih =>
      rw [List.cons_append, List.dropWhile_cons, List.dropWhile_cons, ih]
      split <;> rfl

theorem fraction_lineFeed (front more : List Char) :
    fraction (front ++ '\n' :: more) = fraction front := by
  match front with
  | [] => rfl
  | [character] =>
      by_cases point : character = '.'
      · subst point
        rfl
      · unfold fraction
        simp [point]
  | first :: second :: rest =>
      by_cases point : first = '.'
      · subst point
        simp only [List.cons_append, fraction,
          takeWhile_lineFeed (show isDigit '\n' = false by decide)]
      · unfold fraction
        simp [point]

theorem number_lineFeed (digit : Char) (front more : List Char) :
    number digit (front ++ '\n' :: more) = number digit front := by
  unfold number
  rw [takeWhile_lineFeed (by decide), dropWhile_lineFeed (by decide), fraction_lineFeed]

theorem word_lineFeed (letter : Char) (front more : List Char) :
    word letter (front ++ '\n' :: more) = word letter front := by
  unfold word
  rw [takeWhile_lineFeed (by decide)]

/-- A string that is closed is the same whatever comes behind it. -/
theorem quoted_append {front : List Char} (closed : (quoted front).isOpen = false)
    (more : List Char) : quoted (front ++ more) = quoted front := by
  unfold quoted at closed ⊢
  have reaches : ¬(front.dropWhile staysInString).isEmpty = true := by
    intro empty
    rw [List.isEmpty_iff.mp empty] at closed
    cases closed
  have short : ¬(front.takeWhile staysInString).length = front.length := by
    intro whole
    have lengths := congrArg List.length
      (List.takeWhile_append_dropWhile (p := staysInString) (l := front))
    rw [List.length_append, whole] at lengths
    exact reaches (List.isEmpty_iff_length_eq_zero.mpr (by omega))
  rw [List.takeWhile_append, if_neg short, List.dropWhile_append, if_neg reaches]
  cases rest : front.dropWhile staysInString with
  | nil => exact absurd (List.isEmpty_iff.mpr rest) reaches
  | cons quote behind => rfl

/-- No mark is spelled with a line feed. -/
theorem ofSpelling?_lineFeed (character : Char) : Mark.ofSpelling? [character, '\n'] = none := by
  cases found : Mark.ofSpelling? [character, '\n'] with
  | none => rfl
  | some mark =>
      have spelled := Mark.spelling_of_ofSpelling? found
      cases mark <;> cases spelled

theorem mark?_lineFeed (character : Char) (front more : List Char) :
    mark? character (front ++ '\n' :: more) = mark? character front := by
  unfold mark?
  cases front with
  | cons second rest => rfl
  | nil =>
      simp only [List.nil_append, List.take_succ_cons, List.take_zero, List.take_nil,
        ofSpelling?_lineFeed]
      cases Mark.ofSpelling? [character] <;> rfl

theorem first_lineFeed {character : Char} {front : List Char}
    (closed : (first character front).isOpen = false) (more : List Char) :
    first character (front ++ '\n' :: more) = first character front := by
  have slashes : ((front ++ '\n' :: more).head? = some '/') ↔ front.head? = some '/' := by
    cases front <;> simp
  unfold first at closed ⊢
  simp only [slashes]
  split
  · rfl
  split
  · next comment =>
      cases front with
      | nil => cases comment.2
      | cons second rest =>
          rw [List.cons_append, List.tail_cons, List.tail_cons, takeWhile_lineFeed (by decide)]
  split
  · next plain notComment quote =>
      rw [if_neg plain, if_neg notComment, if_pos quote] at closed
      exact quoted_append closed _
  split
  · exact number_lineFeed character front more
  split
  · exact word_lineFeed character front more
  · rw [mark?_lineFeed]

theorem segmentsAfter_lineFeed {skip : Nat} {front : List Char} (le : skip ≤ front.length)
    (closed : ∀ segment ∈ segmentsAfter skip front, segment.isOpen = false)
    (more : List Char) :
    segmentsAfter skip (front ++ '\n' :: more) =
      segmentsAfter skip front ++ .blank '\n' :: ofText more := by
  induction front generalizing skip with
  | nil =>
      obtain rfl := Nat.le_zero.mp le
      rfl
  | cons character rest ih =>
      cases skip with
      | succ skip => exact ih (Nat.le_of_succ_le_succ le) closed
      | zero =>
          have here := first_lineFeed (closed _ (.head _)) more
          have shorter : (first character rest).text.length - 1 ≤ rest.length := by
            have bound := (first_isPrefix character rest).1.length_le
            rw [List.length_cons] at bound
            omega
          have behind := ih shorter fun segment later => closed segment (.tail _ later)
          simp only [List.cons_append, segmentsAfter, here, behind]

/-- Without an open string in the front, the segments of a text are those in front of a
line feed, the line feed, and those behind it. -/
theorem ofText_lineFeed {front : List Char}
    (closed : ∀ segment ∈ ofText front, segment.isOpen = false) (more : List Char) :
    ofText (front ++ '\n' :: more) = ofText front ++ .blank '\n' :: ofText more :=
  segmentsAfter_lineFeed (Nat.zero_le _) closed more

theorem ofText_lowered (lines : Nat) (source : List Char) :
    ofText (List.replicate lines '\n' ++ source) =
      List.replicate lines (.blank '\n') ++ ofText source := by
  induction lines with
  | zero => rfl
  | succ lines ih => exact congrArg (Segment.blank '\n' :: ·) ih

/-! ## Tokens of segments -/

/-- The tokens of segments that start on a given line, without a closing one. -/
def tokens : Nat → List Segment → List Token
  | _, [] => []
  | line, segment :: rest =>
      let line := line + segment.lineFeeds
      ((segment.item? line).bind Item.token?).toList ++ tokens line rest

/-- The line feeds in several segments. -/
def allLineFeeds : List Segment → Nat
  | [] => 0
  | segment :: rest => segment.lineFeeds + allLineFeeds rest

theorem allLineFeeds_append (front back : List Segment) :
    allLineFeeds (front ++ back) = allLineFeeds front + allLineFeeds back := by
  induction front with
  | nil => exact (Nat.zero_add _).symm
  | cons segment rest ih => simp only [List.cons_append, allLineFeeds, ih, Nat.add_assoc]

theorem tokens_append (line : Nat) (front back : List Segment) :
    tokens line (front ++ back) =
      tokens line front ++ tokens (line + allLineFeeds front) back := by
  induction front generalizing line with
  | nil => rfl
  | cons segment rest ih =>
      simp only [List.cons_append, tokens, ih, List.append_assoc, allLineFeeds, Nat.add_assoc]

/-- Segments that start further down have their tokens further down. -/
theorem tokens_lowered (line lines : Nat) (segments : List Segment) :
    tokens (line + lines) segments = (tokens line segments).map (.lowered lines) := by
  induction segments generalizing line with
  | nil => rfl
  | cons segment rest ih =>
      have down : line + lines + segment.lineFeeds = line + segment.lineFeeds + lines := by omega
      simp only [tokens, down, ih, List.map_append]
      congr 1
      cases segment <;> rfl

theorem tokens_items (line : Nat) (segments : List Segment) :
    (items line segments).filterMap Item.token? =
      tokens line segments ++ [.atEnd (line + allLineFeeds segments)] := by
  induction segments generalizing line with
  | nil => rfl
  | cons segment rest ih =>
      simp only [items, tokens, List.filterMap_append, ih, List.append_assoc, allLineFeeds,
        Nat.add_assoc]
      congr 1
      cases segment <;> rfl

theorem faults_items (line : Nat) (segments : List Segment) :
    (items line segments).filterMap Item.fault? = [] ↔
      ∀ segment ∈ segments, segment.isFaulty = false := by
  induction segments generalizing line with
  | nil => simp [items, Item.fault?]
  | cons segment rest ih =>
      simp only [items, List.filterMap_append, List.append_eq_nil_iff, ih, List.mem_cons,
        forall_eq_or_imp]
      apply and_congr_left
      intro _
      cases segment <;> simp [item?, Item.fault?, isFaulty]

/-- A segment yields no closing token. -/
def IsOpenEnded : Segment → Prop
  | .lexeme kind _ => kind ≠ .stop
  | _ => True

theorem isOpenEnded_first (character : Char) (rest : List Char) :
    (first character rest).IsOpenEnded := by
  unfold first
  split
  · trivial
  split
  · trivial
  split
  · unfold quoted
    dsimp only
    split <;> simp [IsOpenEnded]
  split
  · unfold number
    dsimp only
    split <;> simp [IsOpenEnded]
  split
  · unfold word
    dsimp only
    split <;> simp [IsOpenEnded]
  · unfold mark?
    split
    · simp [IsOpenEnded]
    · cases Mark.ofSpelling? [character] <;> simp [IsOpenEnded]

theorem isOpenEnded_of_mem {skip : Nat} {source : List Char} {segment : Segment}
    (inside : segment ∈ segmentsAfter skip source) : segment.IsOpenEnded := by
  induction source generalizing skip with
  | nil => cases skip <;> cases inside
  | cons character rest ih =>
      cases skip with
      | succ skip => exact ih inside
      | zero =>
          cases inside with
          | head => exact isOpenEnded_first character rest
          | tail _ later => exact ih later

theorem kind_tokens {line : Nat} {segments : List Segment}
    (openEnded : ∀ segment ∈ segments, segment.IsOpenEnded) :
    ∀ token ∈ tokens line segments, token.kind ≠ .stop := by
  induction segments generalizing line with
  | nil => simp [tokens]
  | cons segment rest ih =>
      have later := @ih (line + segment.lineFeeds)
        fun other inside => openEnded other (.tail _ inside)
      have here := openEnded segment (.head _)
      intro token inside
      rw [tokens, List.mem_append] at inside
      cases inside with
      | inr inside => exact later token inside
      | inl inside =>
          cases segment with
          | lexeme kind text =>
              obtain rfl :
                  token = ⟨kind, String.ofList text, line + (lexeme kind text).lineFeeds⟩ := by
                simpa [item?, Item.token?, eq_comm] using inside
              exact here
          | _ => simp [item?, Item.token?] at inside

/-- Segments hold the line feeds of their text. -/
theorem allLineFeeds_ofText (source : List Char) :
    allLineFeeds (ofText source) = source.count '\n' := by
  have counted (segments : List Segment) :
      allLineFeeds segments = (segments.flatMap text).count '\n' := by
    induction segments with
    | nil => rfl
    | cons segment rest ih =>
        rw [List.flatMap_cons, List.count_append, ← ih]
        rfl
  rw [counted, text_ofText]

end Segment

/-! ## Tokens of texts -/

/-- The tokens of a text without the closing one. -/
def words (source : String) : List Token :=
  Segment.tokens 1 (Segment.ofText source.toList)

theorem scan_tokens (source : String) :
    (scan source).1 = words source ++ [.atEnd (1 + lineFeeds source)] := by
  have listed := Segment.tokens_items 1 (Segment.ofText source.toList)
  rw [Segment.allLineFeeds_ofText] at listed
  exact listed

theorem scan_faults (source : String) :
    (scan source).2 = [] ↔
      ∀ segment ∈ Segment.ofText source.toList, segment.isFaulty = false :=
  Segment.faults_items 1 _

/-- A text without faults can have a line feed behind it. -/
theorem closed_of_faultless {source : String} (faultless : (scan source).2 = []) :
    ∀ segment ∈ Segment.ofText source.toList, segment.isOpen = false :=
  fun segment inside => Segment.isOpen_of_faultless
    ((scan_faults source).mp faultless segment inside)

/-- No token of a text is closing but the last one. -/
theorem kind_words {source : String} : ∀ token ∈ words source, token.kind ≠ .stop :=
  Segment.kind_tokens fun _ inside => Segment.isOpenEnded_of_mem inside

theorem words_lowered (lines : Nat) (source : String) :
    words (lowered lines source) = (words source).map (.lowered lines) := by
  have blanks (line : Nat) : Segment.tokens line (List.replicate lines (.blank '\n')) = [] ∧
      Segment.allLineFeeds (List.replicate lines (.blank '\n')) = lines := by
    induction lines generalizing line with
    | zero => exact ⟨rfl, rfl⟩
    | succ lines ih =>
        obtain ⟨none, feeds⟩ := ih (line + 1)
        refine ⟨none, ?_⟩
        rw [List.replicate_succ, Segment.allLineFeeds, feeds]
        exact Nat.add_comm 1 lines
  unfold words lowered
  rw [String.toList_append, String.toList_ofList, Segment.ofText_lowered, Segment.tokens_append,
    (blanks 1).1, (blanks 1).2, Segment.tokens_lowered, List.nil_append]

theorem faults_lowered {source : String} (faultless : (scan source).2 = []) (lines : Nat) :
    (scan (lowered lines source)).2 = [] := by
  rw [scan_faults] at faultless ⊢
  unfold lowered
  rw [String.toList_append, String.toList_ofList, Segment.ofText_lowered]
  intro segment inside
  rcases List.mem_append.mp inside with blank | own
  · obtain rfl := List.eq_of_mem_replicate blank
    rfl
  · exact faultless segment own

section Joining

variable {front back : String}

theorem toList_joined (front back : String) :
    (front ++ "\n" ++ back).toList = front.toList ++ '\n' :: back.toList := by
  simp

theorem words_joined (faultless : (scan front).2 = []) :
    words (front ++ "\n" ++ back) =
      words front ++ (words back).map (.lowered (lineFeeds front + 1)) := by
  have shape : Segment.ofText (front ++ "\n" ++ back).toList =
      Segment.ofText front.toList ++ [.blank '\n'] ++ Segment.ofText back.toList := by
    rw [toList_joined, Segment.ofText_lineFeed (closed_of_faultless faultless)]
    simp
  have feeds : Segment.allLineFeeds (Segment.ofText front.toList ++ [.blank '\n']) =
      lineFeeds front + 1 := by
    rw [Segment.allLineFeeds_append, Segment.allLineFeeds_ofText]
    rfl
  unfold words
  rw [shape, Segment.tokens_append, feeds, Segment.tokens_lowered 1 (lineFeeds front + 1),
    Segment.tokens_append]
  exact congrArg (· ++ _) (List.append_nil _)

theorem faults_joined (faultless : (scan front).2 = []) (faultless' : (scan back).2 = []) :
    (scan (front ++ "\n" ++ back)).2 = [] := by
  rw [scan_faults] at faultless' ⊢
  rw [toList_joined, Segment.ofText_lineFeed (closed_of_faultless faultless)]
  intro segment inside
  rcases List.mem_append.mp inside with before | behind
  · exact (scan_faults front).mp faultless segment before
  · cases behind with
    | head => rfl
    | tail _ own => exact faultless' segment own

end Joining

/-- Joined texts without faults have no faults. -/
theorem faults_intercalate {sources : List String}
    (faultless : ∀ source ∈ sources, (scan source).2 = []) :
    (scan ("\n".intercalate sources)).2 = [] := by
  induction sources with
  | nil => rfl
  | cons first rest ih =>
      cases rest with
      | nil => exact faultless first (.head _)
      | cons second others =>
          rw [String.intercalate_cons_cons]
          exact faults_joined (faultless first (.head _))
            (ih fun source inside => faultless source (.tail _ inside))

/-- The tokens of joined texts are those of the texts, each lower by the lines in
front of its text. -/
theorem words_intercalate {sources : List String}
    (faultless : ∀ source ∈ sources, (scan source).2 = []) :
    words ("\n".intercalate sources) =
      (sources.mapIdx fun place source =>
        (words source).map (.lowered (linesBefore sources place))).flatten := by
  induction sources with
  | nil => rfl
  | cons first rest ih =>
      cases rest with
      | nil => simp [linesBefore]
      | cons second others =>
          rw [String.intercalate_cons_cons, words_joined (faultless first (.head _)),
            ih fun source inside => faultless source (.tail _ inside)]
          have behind : ((second :: others).mapIdx fun place source =>
                (words source).map (Token.lowered (linesBefore (second :: others) place))).map
                  (List.map (Token.lowered (lineFeeds first + 1))) =
              (second :: others).mapIdx fun place source => (words source).map
                (Token.lowered (linesBefore (first :: second :: others) (place + 1))) := by
            rw [List.mapIdx_eq_zipIdx_map, List.mapIdx_eq_zipIdx_map, List.map_map]
            simp only [Function.comp_def, List.map_map, Token.lowered_lowered, linesBefore]
          rw [List.map_flatten, behind, List.mapIdx_cons (l := second :: others)]
          simp [linesBefore]

end Lox
