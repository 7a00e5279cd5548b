import Mathlib.Logic.Function.Basic

/-! Circular buffers with a position to read from and one to write to. The buffer is empty when the
positions meet, so it holds one item less than it has places. -/

set_option autoImplicit false

namespace Fos.Foundation.Ring

variable {Item : Type} {size first next : Nat} {buffer : Nat → Item} {items : List Item} {item : Item}

/-- The position after one, back at the start behind the last. -/
def advance (size position : Nat) : Nat := if position + 1 = size then 0 else position + 1

theorem advance_eq {position : Nat} (bound : position < size) : advance size position = (position + 1) % size := by
  unfold advance
  split
  · next last => rw [last, Nat.mod_self]
  · exact (Nat.mod_eq_of_lt (by omega)).symm

theorem advance_lt {position : Nat} (bound : position < size) : advance size position < size := by
  rw [advance_eq bound]
  exact Nat.mod_lt _ (Nat.zero_lt_of_lt bound)

/-- The items between the two positions, the oldest first. -/
structure Holds (size : Nat) (buffer : Nat → Item) (first next : Nat) (items : List Item) : Prop where
  first_lt : first < size
  next_eq : next = (first + items.length) % size
  room : items.length < size
  item : ∀ index, (bound : index < items.length) → buffer ((first + index) % size) = items[index]

namespace Holds

theorem empty (bound : first < size) : Holds size buffer first first [] where
  first_lt := bound
  next_eq := (Nat.mod_eq_of_lt bound).symm
  room := Nat.zero_lt_of_lt bound
  item _ bound := absurd bound (Nat.not_lt_zero _)

/-- Positions at different distances from the first differ. -/
private theorem apart {index other : Nat} (order : index < other) (bound : other < size) :
    (first + index) % size ≠ (first + other) % size := by
  intro same
  have multiple : size ∣ (first + other) - (first + index) := Nat.dvd_of_mod_eq_zero (Nat.sub_mod_eq_zero_of_mod_eq same.symm)
  rw [Nat.add_sub_add_left] at multiple
  have large := Nat.le_of_dvd (Nat.sub_pos_of_lt order) multiple
  omega

theorem meet_iff (holds : Holds size buffer first next items) : first = next ↔ items = [] := by
  have start : first = (first + 0) % size := (Nat.mod_eq_of_lt holds.first_lt).symm
  constructor
  · intro meet
    rw [holds.next_eq] at meet
    cases items with
    | nil => rfl
    | cons item rest =>
        exact absurd (start.symm.trans meet) (apart (Nat.zero_lt_succ _) holds.room)
  · rintro rfl
    exact start.trans holds.next_eq.symm

theorem push (holds : Holds size buffer first next items) (room : items.length + 1 < size) (item : Item) :
    Holds size (Function.update buffer next item) first (advance size next) (items ++ [item]) where
  first_lt := holds.first_lt
  next_eq := by
    have bound : next < size := holds.next_eq ▸ Nat.mod_lt _ (Nat.zero_lt_of_lt holds.first_lt)
    rw [advance_eq bound, holds.next_eq, Nat.mod_add_mod, List.length_append, Nat.add_assoc]
    rfl
  room := by
    rw [List.length_append]
    exact room
  item index bound := by
    rw [List.length_append, List.length_singleton] at bound
    cases Nat.lt_or_eq_of_le (Nat.le_of_lt_succ bound) with
    | inl inside =>
        have different : (first + index) % size ≠ next := holds.next_eq ▸ apart inside holds.room
        rw [Function.update_of_ne different, List.getElem_append_left inside]
        exact holds.item index inside
    | inr last =>
        subst last
        rw [← holds.next_eq, Function.update_self, List.getElem_concat_length rfl]

theorem pop (holds : Holds size buffer first next (item :: items)) :
    buffer first = item ∧ Holds size buffer (advance size first) next items := by
  have oldest := holds.item 0 (Nat.zero_lt_succ _)
  rw [Nat.add_zero, Nat.mod_eq_of_lt holds.first_lt] at oldest
  have following (count : Nat) : (advance size first + count) % size = (first + (count + 1)) % size := by
    rw [advance_eq holds.first_lt, Nat.mod_add_mod, Nat.add_assoc, Nat.add_comm 1]
  exact ⟨oldest, {
    first_lt := advance_lt holds.first_lt
    next_eq := holds.next_eq.trans (following _).symm
    room := Nat.lt_of_succ_lt holds.room
    item := fun index bound => (congrArg buffer (following index)).trans (holds.item (index + 1) (Nat.succ_lt_succ bound)) }⟩

end Holds

end Fos.Foundation.Ring
