import Fos.Kernel.Actions
import Mathlib.Logic.Relation

/-! Demand paging as such: the moves of pages between memory and the page file, and why
they keep what was written. -/

set_option autoImplicit false

namespace Fos.Kernel

namespace Space

/-- What serving a page fault does to an address space, one change at a time. -/
inductive Move : Space → Space → Prop where
  | flag {space : Space} {page entry : Nat} (mapped : space.entry page ≠ 0) (some : entry ≠ 0)
      (modified : entry.testBit 6 = (space.entry page).testBit 6) :
      Move space (space.setEntry page entry)
  | save {space : Space} {page : Nat} (mapped : space.entry page ≠ 0)
      (placed : space.diskFrame page ≠ 0) :
      Move space (space.store page (space.content page))
  | evict {space : Space} {page : Nat}
      (saved : (space.entry page).testBit 6 = false ∨
        space.stored page = space.content page ∨ space.diskFrame page = 0) :
      Move space (space.unmap page)
  | load {space : Space} {page entry : Nat} {content : Page} (unmapped : space.entry page = 0)
      (some : entry ≠ 0) (loaded : space.diskFrame page ≠ 0 → content = space.stored page) :
      Move space (space.map page entry content)
  | reserve {space : Space} {page diskFrame : Nat} {stored : Page}
      (unplaced : space.diskFrame page = 0) (some : diskFrame ≠ 0) :
      Move space (space.place page diskFrame stored)

abbrev Moves : Space → Space → Prop := Relation.ReflTransGen Move

/-- Every byte that was written, by page and offset, is where a later access finds it. -/
def Recalls (written : Nat → Nat → Option Nat) (space : Space) : Prop :=
  ∀ page offset value, offset < pageSize → written page offset = some value →
    space.diskFrame page ≠ 0 ∧
      (space.entry page ≠ 0 → (space.content page).byte offset = value) ∧
      (space.entry page = 0 ∨ (space.entry page).testBit 6 = false →
        (space.stored page).byte offset = value)

/-- Every mapped page has a disk frame to go to. -/
def Backed (space : Space) : Prop :=
  ∀ page, space.entry page ≠ 0 → space.diskFrame page ≠ 0

variable {space next : Space} {written : Nat → Nat → Option Nat}

theorem Recalls.move (recalls : Recalls written space) (move : Move space next) :
    Recalls written next := by
  intro page offset value inside was
  obtain ⟨placed, inMemory, onDisk⟩ := recalls page offset value inside was
  cases move with
  | @flag page' entry mapped some modified =>
      refine ⟨placed, fun present => ?_, fun clean => ?_⟩
      · by_cases same : page = page'
        · exact inMemory (same ▸ mapped)
        · simp only [setEntry, Function.update_of_ne same] at present
          exact inMemory present
      · by_cases same : page = page'
        · subst same
          simp only [setEntry, Function.update_self, some, false_or] at clean
          exact onDisk (.inr (modified ▸ clean))
        · simp only [setEntry, Function.update_of_ne same] at clean
          exact onDisk clean
  | @save page' mapped _ =>
      refine ⟨placed, inMemory, fun clean => ?_⟩
      by_cases same : page = page'
      · subst same
        simp only [store, Function.update_self]
        exact inMemory mapped
      · simp only [store, Function.update_of_ne same]
        exact onDisk clean
  | @evict page' saved =>
      refine ⟨placed, fun mapped => ?_, fun clean => ?_⟩
      · by_cases same : page = page'
        · subst same
          simp [unmap, map] at mapped
        · simp only [unmap, map, Function.update_of_ne same] at mapped ⊢
          exact inMemory mapped
      · by_cases same : page = page'
        · subst same
          change (space.stored page).byte offset = value
          by_cases mapped : space.entry page = 0
          · exact onDisk (.inl mapped)
          · rcases saved with clean | equal | unplaced
            · exact onDisk (.inr clean)
            · exact equal ▸ inMemory mapped
            · exact absurd unplaced placed
        · simp only [unmap, map, Function.update_of_ne same] at clean
          exact onDisk clean
  | @load page' entry content unmapped some loaded =>
      refine ⟨placed, fun mapped => ?_, fun clean => ?_⟩
      · by_cases same : page = page'
        · subst same
          simp only [map, Function.update_self]
          rw [loaded placed]
          exact onDisk (.inl unmapped)
        · simp only [map, Function.update_of_ne same] at mapped ⊢
          exact inMemory mapped
      · by_cases same : page = page'
        · subst same
          exact onDisk (.inl unmapped)
        · simp only [map, Function.update_of_ne same] at clean
          exact onDisk clean
  | @reserve page' diskFrame stored unplaced some =>
      have different : page ≠ page' := by
        rintro rfl
        exact placed unplaced
      simp only [place, Function.update_of_ne different]
      exact ⟨placed, inMemory, onDisk⟩

theorem Recalls.moves (recalls : Recalls written space) (moves : Moves space next) :
    Recalls written next := by
  induction moves with
  | refl => exact recalls
  | tail _ move ih => exact ih.move move

/-- What a mapped page has in it is what was written last. -/
theorem Recalls.mapped (recalls : Recalls written space) {page offset value : Nat}
    (inside : offset < pageSize) (mapped : space.entry page ≠ 0)
    (was : written page offset = some value) : (space.content page).byte offset = value :=
  (recalls page offset value inside was).2.1 mapped

/-- A write to a mapped page that has a disk frame, with the modified bit it sets. -/
theorem Recalls.write (recalls : Recalls written space) {page offset value entry : Nat}
    {content : Page} (placed : space.diskFrame page ≠ 0) (some : entry ≠ 0)
    (mapped : space.entry page ≠ 0) (modified : entry.testBit 6 = true)
    (here : content.byte offset = value)
    (elsewhere : ∀ other, other < pageSize → other ≠ offset →
      content.byte other = (space.content page).byte other) :
    Recalls (Function.update written page
        (Function.update (written page) offset (.some value)))
      ((space.setEntry page entry).setContent page content) := by
  intro number position byte inside was
  by_cases same : number = page
  · subst same
    rw [Function.update_self] at was
    refine ⟨placed, fun _ => ?_, fun clean => ?_⟩
    · simp only [setContent, Function.update_self]
      by_cases equal : position = offset
      · rw [equal, Function.update_self] at was
        rw [equal, here, Option.some.inj was]
      · rw [Function.update_of_ne equal] at was
        rw [elsewhere position inside equal]
        exact (recalls number position byte inside was).2.1 mapped
    · simp only [setContent, setEntry, Function.update_self, some, modified, false_or,
        Bool.true_eq_false] at clean
  · rw [Function.update_of_ne same] at was
    simp only [setContent, setEntry, Function.update_of_ne same]
    exact recalls number position byte inside was

end Space

end Fos.Kernel
