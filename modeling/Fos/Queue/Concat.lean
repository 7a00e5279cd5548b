import Fos.Queue.ListsProperties

/-! `LIST_CONCAT`, and the lists it concatenates. -/

set_option autoImplicit false

namespace Fos.Queue

open Foundation

variable {Name : Type} [DecidableEq Name]

/-- `LIST_CONCAT`. A list with a first element has a last one. -/
def Memory.listConcat {Element : Type} [DecidableEq Element] (memory : Memory Name Element) (list1 list2 : Name) :
    Memory Name Element :=
  let memory := match memory.first list1 with
    | none =>
        let memory := memory.setFirst list1 (memory.first list2)
        memory.setLast list1 (memory.last list2)
    | some _ => match memory.first list2, memory.last list1 with
      | some first, some last =>
          let memory := memory.setNext last first
          let memory := memory.setPrev first (memory.last list1)
          let memory := memory.setLast list1 (memory.last list2)
          memory.listInit list2
      | _, _ => memory
  memory.setSize list1 ((memory.size list1 + memory.size list2) % wordSize)

/-- The first list is followed by the second one, which is empty. -/
def Memory.Concatenated {Element : Type} (memory : Memory Name Element) (list1 list2 : Name)
    (elements others : List Element) : Prop :=
  memory.Represents list1 (elements ++ others) ∧ memory.Represents list2 []

namespace Memory

variable {memory : Memory Name Pointer} {list1 list2 : Name} {elements others : List Pointer}

omit [DecidableEq Name] in
/-- A list with elements has a last one. -/
theorem Represents.exists_last {list : Name} {element : Pointer} (represents : memory.Represents list (element :: elements)) :
    ∃ last, memory.last list = some last := by
  have backward := represents.backward
  cases reversed : (element :: elements).reverse with
  | nil => exact absurd (List.reverse_eq_nil_iff.1 reversed) (List.cons_ne_nil _ _)
  | cons last rest =>
      rw [reversed] at backward
      exact ⟨last, backward.1⟩

/-- The second list is still there after the first one got its elements. -/
theorem listConcat_nil (different : list1 ≠ list2) (empty : memory.first list1 = none) :
    (memory.listConcat list1 list2).first list2 = memory.first list2 := by
  simp only [listConcat, empty]
  simp [Memory.first, different.symm]

/-- `LIST_INIT` comes before the sizes are added. -/
theorem listConcat_size (different : list1 ≠ list2) {element other last : Pointer}
    (first : memory.first list1 = some element) (second : memory.first list2 = some other)
    (final : memory.last list1 = some last) :
    (memory.listConcat list1 list2).size list1 = memory.size list1 % wordSize := by
  simp only [listConcat, first, second, final]
  simp [listInit, Memory.size, different]

theorem setFirst_of_eq {list : Name} {value : Option Pointer} (same : memory.first list = value) :
    memory.setFirst list value = memory := by
  rw [← same]
  simp [setFirst, setHead, Memory.first]

theorem setLast_of_eq {list : Name} {value : Option Pointer} (same : memory.last list = value) :
    memory.setLast list value = memory := by
  rw [← same]
  simp [setLast, setHead, Memory.last]

theorem setSize_of_eq {list : Name} {value : Nat} (same : memory.size list = value) :
    memory.setSize list value = memory := by
  rw [← same]
  simp [setSize, setHead, Memory.size]

/-- With nothing in the second list both stay as they are. -/
theorem listConcat_empty (first : memory.Represents list1 elements) (second : memory.Represents list2 []) :
    memory.listConcat list1 list2 = memory := by
  have noFirst : memory.first list2 = none := second.forward
  have noLast : memory.last list2 = none := second.backward
  have size : memory.size list1 = (memory.size list1 + memory.size list2) % wordSize := by
    have bounded := Pointer.length_lt first.forward.nodup
    rw [second.size, List.length_nil, Nat.add_zero, Nat.mod_eq_of_lt (first.size ▸ bounded)]
  unfold listConcat
  cases elements with
  | nil =>
      have empty : memory.first list1 = none := first.forward
      have emptyLast : memory.last list1 = none := first.backward
      simp only [empty, noFirst]
      rw [setFirst_of_eq empty, noLast, setLast_of_eq emptyLast, setSize_of_eq size]
  | cons element rest =>
      have some : memory.first list1 = some element := first.forward.1
      simp only [some, noFirst]
      rw [setSize_of_eq size]

/-- The lists are concatenated exactly if there is nothing to concatenate. -/
theorem listConcat_concatenates_iff (different : list1 ≠ list2) (first : memory.Represents list1 elements)
    (second : memory.Represents list2 others) :
    (memory.listConcat list1 list2).Concatenated list1 list2 elements others ↔ others = [] := by
  constructor
  · intro concatenated
    cases others with
    | nil => rfl
    | cons other rest =>
        have someOther : memory.first list2 = some other := second.forward.1
        cases elements with
        | nil =>
            have empty := (listConcat_nil different first.forward).symm.trans concatenated.2.forward
            exact absurd (someOther.symm.trans empty) (Option.some_ne_none other)
        | cons element others =>
            obtain ⟨last, final⟩ := first.exists_last
            have size := (listConcat_size different first.forward.1 someOther final).symm.trans concatenated.1.size
            have small := Nat.mod_le (memory.size list1) wordSize
            rw [size, first.size, List.length_append, List.length_cons (a := other)] at small
            omega
  · rintro rfl
    rw [listConcat_empty first second, Concatenated, List.append_nil]
    exact ⟨first, second⟩

private def element : Pointer := ⟨0x3000, by decide, by decide⟩

/-- The list `true` is empty and the list `false` has one element. -/
private def oneList : Memory Bool Pointer where
  heads list := if list then ⟨none, none, none, 0⟩ else ⟨some element, some element, none, 1⟩
  links _ := ⟨none, none⟩

private theorem oneList_true : oneList.Represents true [] := ⟨rfl, rfl, rfl⟩

private theorem oneList_false : oneList.Represents false [element] := ⟨⟨rfl, rfl⟩, ⟨rfl, rfl⟩, rfl⟩

theorem listConcat_concatenates_iff_empty :
    (oneList.listConcat false true).Concatenated false true [element] [] ↔ ([] : List Pointer) = [] :=
  listConcat_concatenates_iff (by decide) oneList_false oneList_true

/-- An empty list takes the elements, and they stay in the other one. -/
theorem not_listConcat_concatenates : oneList.Represents true [] ∧ oneList.Represents false [element] ∧
    ¬ (oneList.listConcat true false).Concatenated true false [] [element] :=
  ⟨oneList_true, oneList_false, fun concatenated => Option.some_ne_none element concatenated.2.forward⟩

end Memory

end Fos.Queue
