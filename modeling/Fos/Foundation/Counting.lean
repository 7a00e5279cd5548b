import Mathlib.Data.Finset.Card
import Mathlib.Data.Finset.Filter
import Mathlib.Logic.Function.Basic

/-! How often items are named: places name items, several places may name one item, and an item
has as many references as places that name it. -/

set_option autoImplicit false

namespace Fos.Foundation

variable {Place Item : Type} [DecidableEq Item] {places : Finset Place}
  {names names' : Place → Option Item} {place : Place} {item : Item}

/-- The number of places that name an item. -/
def namings (places : Finset Place) (names : Place → Option Item) (item : Item) : Nat :=
  (places.filter fun place => names place = some item).card

theorem namings_congr (same : ∀ place ∈ places, names' place = names place) :
    namings places names' item = namings places names item := by
  unfold namings
  congr 1
  apply Finset.filter_congr
  intro place member
  rw [same place member]

theorem namings_eq_zero (unnamed : ∀ place ∈ places, names place ≠ some item) : namings places names item = 0 := by
  unfold namings
  rw [Finset.card_eq_zero, Finset.filter_eq_empty_iff]
  exact fun place member => unnamed place member

variable [DecidableEq Place]

/-- The place itself, and all other places. -/
theorem namings_eq_erase (member : place ∈ places) :
    namings places names item = namings (places.erase place) names item + if names place = some item then 1 else 0 := by
  unfold namings
  conv_lhs => rw [← Finset.insert_erase member, Finset.filter_insert]
  split
  · rw [Finset.card_insert_of_notMem]
    simp
  · rfl

/-- A place names something else. -/
theorem namings_update (member : place ∈ places) (new : Option Item) :
    namings places (Function.update names place new) item + (if names place = some item then 1 else 0) =
      namings places names item + if new = some item then 1 else 0 := by
  have others : namings (places.erase place) (Function.update names place new) item =
      namings (places.erase place) names item := by
    apply namings_congr
    intro other inOthers
    exact Function.update_of_ne (Finset.ne_of_mem_erase inOthers) ..
  have before : namings places names item = _ := namings_eq_erase member
  rw [namings_eq_erase member, before, others, Function.update_self]
  omega

theorem namings_pos (member : place ∈ places) (named : names place = some item) : 0 < namings places names item := by
  rw [namings_eq_erase member, if_pos named]
  omega

end Fos.Foundation
