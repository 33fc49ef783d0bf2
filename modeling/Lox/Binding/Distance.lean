import Std.Data.TreeMap

/-!
# Distances of references

For every use of a local name, the number of scopes between the use and the
scope that binds the name. A use without a distance is one of a global.
-/

namespace Lox

/-- The distances of references, by reference number. -/
structure Distances where
  byReference : Std.TreeMap Nat Nat
  deriving Inhabited

namespace Distances

/-- No reference has a distance. -/
def empty : Distances := ⟨∅⟩

/-- The distance of a reference, if it is one of a local name. -/
def get? (distances : Distances) (reference : Nat) : Option Nat :=
  distances.byReference[reference]?

/-- Note the distance of a reference. -/
def note (distances : Distances) (reference distance : Nat) : Distances :=
  ⟨distances.byReference.insert reference distance⟩

@[simp] theorem get?_empty (reference : Nat) : empty.get? reference = none := by
  simp [get?, empty]

/-- A noted distance is found again and no other one changes. -/
theorem get?_note (distances : Distances) (reference distance other : Nat) :
    (distances.note reference distance).get? other =
      if reference = other then some distance else distances.get? other := by
  simp only [get?, note, Std.TreeMap.getElem?_insert, Nat.compare_eq_eq]

end Distances

end Lox
