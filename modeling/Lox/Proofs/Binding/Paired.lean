import Lox.Bindings
import Mathlib.Data.Option.Basic

/-!
# Maps with names that stand for each other

Two maps bind names that stand for each other to related things. As long as no name
stands for two others, this stays so when such names are bound.
-/

namespace Lox.Bindings

variable {α β : Type} {names : String → String → Prop} {related : α → β → Prop}
variable {one : Bindings α} {other : Bindings β} {name name' : String}

/-- Two maps bind names that stand for each other to related things, and the second one
binds no others. -/
structure Paired (names : String → String → Prop) (related : α → β → Prop) (one : Bindings α)
    (other : Bindings β) : Prop where
  get? : ∀ {name name' : String}, names name name' →
    Option.Rel related (one.get? name) (other.get? name')
  exists_contains : ∀ {name' : String}, other.contains name' = true →
    ∃ name, names name name' ∧ one.contains name = true

/-- No name stands for two others, either way. -/
def OneToOne (names : String → String → Prop) : Prop :=
  ∀ ⦃one one' other other' : String⦄, names one one' → names other other' →
    (one = other ↔ one' = other')

/-- Names that stand for themselves alone. -/
theorem oneToOne_eq : OneToOne Eq := by
  rintro _ _ _ _ rfl rfl
  rfl

theorem paired_empty : Paired names related .empty .empty :=
  ⟨fun _ => .none, (nomatch ·)⟩

namespace Paired

theorem imp {weaker : α → β → Prop} (holds : one.Paired names related other)
    (weaken : ∀ {value value'}, related value value' → weaker value value') :
    one.Paired names weaker other := by
  refine ⟨fun same => ?_, holds.exists_contains⟩
  have found := holds.get? same
  generalize one.get? _ = first, other.get? _ = second at found
  cases found with
  | none => exact .none
  | some held => exact .some (weaken held)

theorem contains (holds : one.Paired names related other) (same : names name name') :
    one.contains name = other.contains name' := by
  have found := holds.get? same
  unfold Bindings.contains
  generalize one.get? name = first, other.get? name' = second at found
  cases found <;> rfl

theorem set (holds : one.Paired names related other) (apart : OneToOne names)
    (same : names name name') {value : α} {value' : β} (held : related value value') :
    (one.set name value).Paired names related (other.set name' value') := by
  constructor
  · intro found found' paired
    rw [get?_set, get?_set]
    simp only [apart same paired]
    split
    · exact .some held
    · exact holds.get? paired
  · intro found' bound
    rw [contains_set, Bool.or_eq_true, decide_eq_true_eq] at bound
    rcases bound with rfl | bound
    · exact ⟨name, same, by simp [contains_set]⟩
    · obtain ⟨found, paired, inside⟩ := holds.exists_contains bound
      exact ⟨found, paired, by simp [contains_set, inside]⟩

/-- A map is paired with itself if names stand for themselves alone and things for
themselves. -/
theorem refl {bindings : Bindings α} {related : α → α → Prop}
    (alone : ∀ {name name'}, names name name' ↔ name = name')
    (held : ∀ name value, bindings.get? name = some value → related value value) :
    bindings.Paired names related bindings := by
  constructor
  · intro name name' same
    obtain rfl := alone.mp same
    cases found : bindings.get? name with
    | none => exact .none
    | some value => exact .some (held name value found)
  · exact fun bound => ⟨_, alone.mpr rfl, bound⟩

end Paired

end Lox.Bindings
