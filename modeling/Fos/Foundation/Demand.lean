import Fos.Foundation.Ownership
import Mathlib.Data.Finset.Card
import Mathlib.Data.Finset.Filter

/-! Demand for items: places that are to name one each, a list of free items they are taken from, and
whether the list lasts. -/

set_option autoImplicit false

namespace Fos.Foundation

variable {Place Item : Type} {places more : Finset Place} {free free' free'' : List Item}
  {names names' names'' : Place → Option Item}

/-- The number of places that have no item yet. -/
def unmet (places : Finset Place) (names : Place → Option Item) : Nat :=
  (places.filter fun place => names place = none).card

/-- There are not enough items for the places. -/
def Short (places : Finset Place) (free : List Item) (names : Place → Option Item) : Prop :=
  free.length < unmet places names

/-- All of the places have items now. Only those that had none took one, and no place lost its item. -/
structure Takes (places : Finset Place) (free : List Item) (names : Place → Option Item) (free' : List Item)
    (names' : Place → Option Item) : Prop where
  kept : ∀ place, names place ≠ none → names' place ≠ none
  named : ∀ place ∈ places, names' place ≠ none
  taken : free.length ≤ free'.length + unmet places names

theorem unmet_le_card : unmet places names ≤ places.card := Finset.card_filter_le _ _

theorem unmet_singleton (place : Place) : unmet {place} names = if names place = none then 1 else 0 := by
  unfold unmet
  rw [Finset.filter_singleton]
  split <;> rfl

theorem unmet_pair [DecidableEq Place] {first second : Place} (different : first ≠ second) :
    unmet {first, second} names = (if names first = none then 1 else 0) + if names second = none then 1 else 0 := by
  have apart : first ∉ ({second} : Finset Place).filter fun place => names place = none := by simp [different]
  rw [← unmet_singleton second]
  unfold unmet
  rw [Finset.filter_insert]
  split
  · rw [Finset.card_insert_of_notMem apart, Nat.add_comm]
  · rw [Nat.zero_add]

theorem unmet_mono (subset : places ⊆ more) : unmet places names ≤ unmet more names :=
  Finset.card_le_card (Finset.filter_subset_filter _ subset)

theorem Short.mono (short : Short places free names) (subset : places ⊆ more) : Short more free names :=
  Nat.lt_of_lt_of_le short (unmet_mono subset)

namespace Takes

theorem of_kept (kept : ∀ place, names place ≠ none → names' place ≠ none) (untaken : free.length ≤ free'.length) :
    Takes ∅ free names free' names' where
  kept := kept
  named place member := absurd member (Finset.notMem_empty place)
  taken := Nat.le_add_right_of_le untaken

theorem refl (free : List Item) (names : Place → Option Item) : Takes ∅ free names free names :=
  .of_kept (fun _ => id) (le_refl _)

variable [DecidableEq Place]

/-- What is still to be met after some places have their items. -/
theorem unmet_add_le (takes : Takes places free names free' names') :
    unmet more names' + unmet places names ≤ unmet (places ∪ more) names := by
  have disjoint : Disjoint (more.filter fun place => names' place = none)
      (places.filter fun place => names place = none) := by
    rw [Finset.disjoint_left]
    intro place later earlier
    exact takes.named place (Finset.mem_filter.1 earlier).1 (Finset.mem_filter.1 later).2
  unfold unmet
  rw [← Finset.card_union_of_disjoint disjoint]
  apply Finset.card_le_card
  intro place member
  apply Finset.mem_filter.2
  cases Finset.mem_union.1 member with
  | inl later =>
      obtain ⟨inMore, none⟩ := Finset.mem_filter.1 later
      refine ⟨Finset.mem_union_right _ inMore, ?_⟩
      by_contra some
      exact takes.kept place some none
  | inr earlier =>
      obtain ⟨inPlaces, none⟩ := Finset.mem_filter.1 earlier
      exact ⟨Finset.mem_union_left _ inPlaces, none⟩

theorem trans (first : Takes places free names free' names') (second : Takes more free' names' free'' names'') :
    Takes (places ∪ more) free names free'' names'' where
  kept place some := second.kept place (first.kept place some)
  named place member := by
    cases Finset.mem_union.1 member with
    | inl earlier => exact second.kept place (first.named place earlier)
    | inr later => exact second.named place later
  taken := by
    have demand : unmet more names' + unmet places names ≤ unmet (places ∪ more) names := first.unmet_add_le
    have before := first.taken
    have after := second.taken
    omega

/-- Items that run out later are too few from the start. -/
theorem short (first : Takes places free names free' names') (short : Short more free' names') :
    Short (places ∪ more) free names := by
  have demand : unmet more names' + unmet places names ≤ unmet (places ∪ more) names := first.unmet_add_le
  have before := first.taken
  unfold Short at short ⊢
  omega

end Takes

/-- Places with items that were all free are no more than the free items there were. -/
theorem Exclusive.card_le_length (exclusive : Exclusive free' names') (named : ∀ place ∈ places, names' place ≠ none)
    (were : ∀ place ∈ places, ∀ item, names' place = some item → item ∈ free) : places.card ≤ free.length := by
  classical
  have found (place : places) : ∃ item, names' place = some item :=
    Option.ne_none_iff_exists'.1 (named place place.2)
  choose item isItem using found
  calc
    places.card = places.attach.card := Finset.card_attach.symm
    _ ≤ free.toFinset.card := by
      apply Finset.card_le_card_of_injOn item
      · intro place _
        exact List.mem_toFinset.2 (were place place.2 _ (isItem place))
      · intro place _ other _ same
        apply Subtype.ext
        exact exclusive.injective _ _ _ (isItem place) (same ▸ isItem other)
    _ ≤ free.length := List.toFinset_card_le free

end Fos.Foundation
