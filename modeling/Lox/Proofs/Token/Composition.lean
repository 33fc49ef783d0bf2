import Lox.Proofs.Token.Joining
import Lox.Proofs.Token.Longest

/-!
# Reading texts joined by a line feed

Nothing but an open string reaches over a line feed, and nothing but the line is
carried over it. So a text with a line feed in it is read as what is in front and
what is behind, where all that is behind stands further down: tokens and faults
alike.
-/

namespace Lox

/-- A diagnostic a number of lines further down. -/
def Diagnostic.lowered (lines : Nat) (diagnostic : Diagnostic) : Diagnostic :=
  { diagnostic with line := diagnostic.line + lines }

/-- An item a number of lines further down. -/
def Item.lowered (lines : Nat) : Item → Item
  | .token found => .token (found.lowered lines)
  | .fault diagnostic => .fault (diagnostic.lowered lines)

theorem Item.tokens_lowered (lines : Nat) (items : List Item) :
    (items.map (.lowered lines)).filterMap token? =
      (items.filterMap token?).map (.lowered lines) := by
  rw [List.filterMap_map, List.map_filterMap]
  congr 1
  funext item
  cases item <;> rfl

theorem Item.faults_lowered (lines : Nat) (items : List Item) :
    (items.map (.lowered lines)).filterMap fault? =
      (items.filterMap fault?).map (.lowered lines) := by
  rw [List.filterMap_map, List.map_filterMap]
  congr 1
  funext item
  cases item <;> rfl

namespace Segment

/-- What one segment yields stands further down where the segment does. -/
theorem item?_lowered (line lines : Nat) (segment : Segment) :
    segment.item? (line + lines) = (segment.item? line).map (.lowered lines) := by
  cases segment <;> rfl

theorem items_append (line : Nat) (front back : List Segment) :
    items line (front ++ back) =
      yields line front ++ items (line + allLineFeeds front) back := by
  induction front generalizing line with
  | nil => rfl
  | cons segment rest ih =>
      simp only [List.cons_append, items, yields, ih, List.append_assoc, allLineFeeds,
        Nat.add_assoc]

/-- Segments that start further down yield everything further down. -/
theorem items_lowered (line lines : Nat) (segments : List Segment) :
    items (line + lines) segments = (items line segments).map (.lowered lines) := by
  induction segments generalizing line with
  | nil => rfl
  | cons segment rest ih =>
      have down : line + lines + segment.lineFeeds = line + segment.lineFeeds + lines := by omega
      rw [items, items, down, ih, item?_lowered, List.map_append]
      cases segment.item? (line + segment.lineFeeds) <;> rfl

/-- An open string is what the one fault says that is about strings. -/
theorem closed_of_faults {line : Nat} {segments : List Segment}
    (terminated : ∀ fault ∈ (items line segments).filterMap Item.fault?,
      fault.fault ≠ .lexical .unterminatedString) :
    ∀ segment ∈ segments, segment.isOpen = false := by
  induction segments generalizing line with
  | nil => simp
  | cons segment rest ih =>
      rw [items, List.filterMap_append] at terminated
      have later := ih fun fault inside => terminated fault (List.mem_append_right _ inside)
      refine List.forall_mem_cons.mpr ⟨?_, later⟩
      cases segment with
      | openString body => exact absurd rfl (terminated _ (List.mem_append_left _ (.head _)))
      | _ => rfl

end Segment

/-- A text is read as what stands in front of a line feed, without its closing token,
and what stands behind it, lower by the lines in front. The front must not end
inside a string. -/
theorem scan_joined {front : String}
    (terminated : ∀ fault ∈ (scan front).2, fault.fault ≠ .lexical .unterminatedString)
    (back : String) :
    ∃ tokens, (scan front).1 = tokens ++ [.atEnd (1 + lineFeeds front)] ∧
      scan (front ++ "\n" ++ back) =
        (tokens ++ (scan back).1.map (.lowered (lineFeeds front + 1)),
          (scan front).2 ++ (scan back).2.map (.lowered (lineFeeds front + 1))) := by
  have closed := Segment.closed_of_faults terminated
  have own : (TokenStream.ofText front).items =
      Segment.yields 1 (Segment.ofText front.toList) ++
        [.token (.atEnd (1 + lineFeeds front))] := by
    have split := Segment.items_eq 1 (Segment.ofText front.toList)
    rwa [Segment.text_ofText] at split
  have joined : (TokenStream.ofText (front ++ "\n" ++ back)).items =
      Segment.yields 1 (Segment.ofText front.toList) ++
        (TokenStream.ofText back).items.map (.lowered (lineFeeds front + 1)) := by
    change Segment.items 1 (Segment.ofText (front ++ "\n" ++ back).toList) =
      _ ++ (Segment.items 1 (Segment.ofText back.toList)).map _
    rw [toList_joined, Segment.ofText_lineFeed closed, Segment.items_append,
      Segment.allLineFeeds_ofText, ← Segment.items_lowered, Nat.add_left_comm, Nat.add_comm]
    rfl
  refine ⟨(Segment.yields 1 (Segment.ofText front.toList)).filterMap Item.token?, ?_, ?_⟩
  · unfold scan
    dsimp only
    rw [own, List.filterMap_append]
    rfl
  · unfold scan
    dsimp only
    rw [own, joined]
    simp only [List.filterMap_append, Item.tokens_lowered, Item.faults_lowered]
    exact congrArg _ (congrArg (· ++ _) (List.append_nil _).symm)

/-- A point behind a number, a stray character and a comment with a quote in it do not
reach over a line feed. -/
theorem scan_joined_comment :
    (∀ fault ∈ (scan "1. é // \"").2, fault.fault ≠ .lexical .unterminatedString) ∧
      ∃ tokens, (scan "1. é // \"").1 = tokens ++ [.atEnd (1 + lineFeeds "1. é // \"")] ∧
        scan ("1. é // \"" ++ "\n" ++ "5\n? \"") =
          (tokens ++ (scan "5\n? \"").1.map (.lowered (lineFeeds "1. é // \"" + 1)),
            (scan "1. é // \"").2 ++
              (scan "5\n? \"").2.map (.lowered (lineFeeds "1. é // \"" + 1))) := by
  have terminated : ∀ fault ∈ (scan "1. é // \"").2,
      fault.fault ≠ .lexical .unterminatedString := by
    decide +kernel
  exact ⟨terminated, scan_joined terminated "5\n? \""⟩

end Lox
