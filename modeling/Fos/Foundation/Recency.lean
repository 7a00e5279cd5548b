import Mathlib.Data.List.Nodup

/-! Bounded recency lists: the most recently used item first, and how such a list is kept
as a front of fixed size and a back. -/

set_option autoImplicit false

namespace Fos.Foundation

variable {Item : Type} [DecidableEq Item]

/-- Using an item: it moves to the front, and what exceeds the capacity is dropped. -/
def touch (capacity : Nat) (item : Item) (recent : List Item) : List Item :=
  (item :: recent.erase item).take capacity

section Touch

variable {capacity : Nat} {item last : Item} {recent : List Item}

theorem touch_of_not_mem (unused : item ∉ recent) (room : recent.length < capacity) :
    touch capacity item recent = item :: recent := by
  rw [touch, List.erase_of_not_mem unused, List.take_of_length_le]
  exact room

theorem touch_of_full (unused : item ∉ recent ++ [last])
    (full : (recent ++ [last]).length = capacity) :
    touch capacity item (recent ++ [last]) = item :: recent := by
  have size : capacity = (item :: recent).length := by
    simpa using full.symm
  rw [touch, List.erase_of_not_mem unused, size, ← List.cons_append, List.take_left]

theorem touch_of_mem (used : item ∈ recent) (bound : recent.length ≤ capacity) :
    touch capacity item recent = item :: recent.erase item := by
  rw [touch, List.take_of_length_le]
  rw [List.length_cons, List.length_erase_of_mem used]
  have := List.length_pos_of_mem used
  omega

theorem nodup_touch (nodup : recent.Nodup) : (touch capacity item recent).Nodup :=
  (List.nodup_cons.2 ⟨nodup.not_mem_erase, nodup.erase item⟩).sublist (List.take_sublist ..)

end Touch

section Erase

variable {item : Item} {before after : List Item}

theorem erase_middle (first : item ∉ before) :
    (before ++ item :: after).erase item = before ++ after := by
  rw [List.erase_append_right _ first, List.erase_cons_head]

theorem erase_last (first : item ∉ before) : (before ++ [item]).erase item = before := by
  rw [erase_middle first, List.append_nil]

end Erase

end Fos.Foundation
