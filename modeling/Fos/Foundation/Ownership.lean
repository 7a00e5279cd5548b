import Mathlib.Data.Set.Card
import Mathlib.Logic.Function.Basic

/-! Exclusive ownership: items are free or named by places, and no item twice. -/

set_option autoImplicit false

namespace Fos.Foundation

variable {Place Item : Type}

/-- The free list repeats no item, no two places name one item, and no place names a
free item. -/
structure Exclusive (free : List Item) (names : Place → Option Item) : Prop where
  nodup : free.Nodup
  injective : ∀ place other item, names place = some item → names other = some item →
    place = other
  apart : ∀ place item, names place = some item → item ∉ free

/-- An item in hand: neither free nor named. -/
structure Fresh (free : List Item) (names : Place → Option Item) (item : Item) : Prop where
  notFree : item ∉ free
  unnamed : ∀ place, names place ≠ some item

theorem named_of_forgotten [DecidableEq Place] {names : Place → Option Item} {place other : Place} {item : Item}
    (named : Function.update names place none other = some item) : names other = some item := by
  by_cases same : other = place
  · rw [same, Function.update_self] at named
    cases named
  · rwa [Function.update_of_ne same] at named

/-- An item that is free or named. -/
def Covers (free : List Item) (names : Place → Option Item) (item : Item) : Prop :=
  item ∈ free ∨ ∃ place, names place = some item

namespace Covers

variable [DecidableEq Place] {free : List Item} {names : Place → Option Item} {place : Place}
  {item : Item}

/-- The first free item goes to a vacant place. -/
theorem bind (vacant : names place = none) (other : Item) :
    Covers free (Function.update names place (some item)) other ↔ Covers (item :: free) names other := by
  unfold Covers
  constructor
  · rintro (inFree | ⟨holder, named⟩)
    · exact .inl (List.mem_cons_of_mem _ inFree)
    · by_cases same : holder = place
      · rw [same, Function.update_self] at named
        exact .inl (List.mem_cons.2 (.inl (Option.some.inj named).symm))
      · rw [Function.update_of_ne same] at named
        exact .inr ⟨holder, named⟩
  · rintro (inFree | ⟨holder, named⟩)
    · rcases List.mem_cons.1 inFree with rfl | inRest
      · exact .inr ⟨place, Function.update_self ..⟩
      · exact .inl inRest
    · have different : holder ≠ place := by
        rintro rfl
        rw [vacant] at named
        cases named
      exact .inr ⟨holder, by rw [Function.update_of_ne different, named]⟩

/-- A place gives its item back. -/
theorem forget (named : names place = some item) (other : Item) :
    Covers (item :: free) (Function.update names place none) other ↔ Covers free names other := by
  have restored : Function.update (Function.update names place none) place (some item) = names := by
    rw [Function.update_idem, ← named, Function.update_eq_self]
  rw [← bind (Function.update_self place none names), restored]

end Covers

namespace Exclusive

variable {free rest : List Item} {names names' : Place → Option Item} {item : Item}

theorem take (exclusive : Exclusive (item :: rest) names) :
    Exclusive rest names ∧ Fresh rest names item := by
  have nodup := List.nodup_cons.1 exclusive.nodup
  refine ⟨⟨nodup.2, exclusive.injective, fun place other named inRest => ?_⟩,
    nodup.1, fun place named => ?_⟩
  · exact exclusive.apart place other named (List.mem_cons_of_mem _ inRest)
  · exact exclusive.apart place item named (List.mem_cons_self ..)

theorem put (exclusive : Exclusive free names) (fresh : Fresh free names item) :
    Exclusive (item :: free) names where
  nodup := List.nodup_cons.2 ⟨fresh.notFree, exclusive.nodup⟩
  injective := exclusive.injective
  apart place other named member := by
    rcases List.mem_cons.1 member with rfl | inFree
    · exact fresh.unnamed place named
    · exact exclusive.apart place other named inFree

/-- Places may forget what they name. -/
theorem restrict (exclusive : Exclusive free names)
    (fewer : ∀ place other, names' place = some other → names place = some other) :
    Exclusive free names' where
  nodup := exclusive.nodup
  injective place other common named otherNamed :=
    exclusive.injective place other common (fewer _ _ named) (fewer _ _ otherNamed)
  apart place other named := exclusive.apart place other (fewer _ _ named)

/-- An item whose only place forgets it is in hand. -/
theorem fresh_of_forgotten {place : Place} (exclusive : Exclusive free names)
    (named : names place = some item)
    (fewer : ∀ place other, names' place = some other → names place = some other)
    (forgotten : names' place ≠ some item) : Fresh free names' item where
  notFree := exclusive.apart place item named
  unnamed other otherNamed := by
    have same := exclusive.injective other place item (fewer _ _ otherNamed) named
    exact forgotten (same ▸ otherNamed)

/-- A place takes an item that is in hand. -/
theorem bind [DecidableEq Place] (exclusive : Exclusive free names)
    (fresh : Fresh free names item) (place : Place) :
    Exclusive free (Function.update names place (some item)) where
  nodup := exclusive.nodup
  injective left right common leftNamed rightNamed := by
    by_cases atLeft : left = place
    · by_cases atRight : right = place
      · rw [atLeft, atRight]
      · rw [atLeft, Function.update_self] at leftNamed
        rw [Function.update_of_ne atRight] at rightNamed
        obtain rfl := Option.some.inj leftNamed
        exact absurd rightNamed (fresh.unnamed right)
    · rw [Function.update_of_ne atLeft] at leftNamed
      by_cases atRight : right = place
      · rw [atRight, Function.update_self] at rightNamed
        obtain rfl := Option.some.inj rightNamed
        exact absurd leftNamed (fresh.unnamed left)
      · rw [Function.update_of_ne atRight] at rightNamed
        exact exclusive.injective left right common leftNamed rightNamed
  apart other common named := by
    by_cases atPlace : other = place
    · rw [atPlace, Function.update_self] at named
      obtain rfl := Option.some.inj named
      exact fresh.notFree
    · rw [Function.update_of_ne atPlace] at named
      exact exclusive.apart other common named

/-- Where every item is free or named, what is free and what is named add up. -/
theorem length_add_ncard (exclusive : Exclusive free names) (items : Finset Item)
    (total : ∀ item, item ∈ items ↔ Covers free names item) :
    free.length + Set.ncard {place | names place ≠ none} = items.card := by
  classical
  have subset : free.toFinset ⊆ items := fun item member =>
    (total item).2 (.inl (List.mem_toFinset.1 member))
  have held : Set.ncard {place | names place ≠ none} = (items \ free.toFinset).card := by
    rw [← Set.ncard_coe_finset]
    refine Set.ncard_congr (fun place named => (names place).get (Option.isSome_iff_ne_none.2 named))
      ?_ ?_ ?_
    · intro place named
      obtain ⟨item, found⟩ := Option.ne_none_iff_exists'.1 named
      simp only [found, Option.get_some, Finset.mem_coe, Finset.mem_sdiff, List.mem_toFinset]
      exact ⟨(total item).2 (.inr ⟨place, found⟩), exclusive.apart place item found⟩
    · intro place other named otherNamed same
      obtain ⟨item, found⟩ := Option.ne_none_iff_exists'.1 named
      obtain ⟨otherItem, otherFound⟩ := Option.ne_none_iff_exists'.1 otherNamed
      simp only [found, otherFound, Option.get_some] at same
      exact exclusive.injective place other item found (same ▸ otherFound)
    · intro item member
      simp only [Finset.mem_coe, Finset.mem_sdiff, List.mem_toFinset] at member
      obtain ⟨place, found⟩ := ((total item).1 member.1).resolve_left member.2
      exact ⟨place, by simp [found], by simp [found]⟩
  have length : free.length = free.toFinset.card := (List.toFinset_card_of_nodup exclusive.nodup).symm
  rw [held, length, Finset.card_sdiff_of_subset subset]
  have := Finset.card_le_card subset
  omega

end Exclusive

end Fos.Foundation
