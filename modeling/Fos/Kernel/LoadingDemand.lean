import Fos.Kernel.Segments
import Fos.Kernel.Usage

/-! What loading a program takes: the pages in memory and in the page file, frames for them and for
their tables, and elements of the table working set. -/

set_option autoImplicit false

namespace Fos.Kernel

open Foundation

namespace ProgramSegment

variable (segment : ProgramSegment)

/-- The number of pages `program_segment_alloc_map_copy_workingset` allocates. -/
def allocatedPages (name : String) (remainingWSPages : Nat) : Nat :=
  min (segment.endPage - segment.firstPage)
    (if segment.firstPage * pageSize = 0x200000 ∧ name ≠ "tpp" then min remainingWSPages 6 else remainingWSPages)

/-- The pages that go to the page file. -/
def filedPages : List Nat :=
  pageOf segment.fileEnd :: List.range' segment.firstPage (segment.endPage - segment.firstPage)

end ProgramSegment

theorem ProgramSegment.mem_filedPages {segment : ProgramSegment} {page : Nat} :
    page ∈ segment.filedPages ↔ segment.Touches page ∨ page = pageOf segment.fileEnd := by
  have range : segment.firstPage ≤ page ∧ page < segment.firstPage + (segment.endPage - segment.firstPage) ↔
      segment.Touches page := by
    unfold Touches
    omega
  rw [filedPages, List.mem_cons, List.mem_range'_1, range, or_comm]

/-- They are the pages the loader writes. -/
theorem ProgramSegment.mem_filedPages_iff_written {segment : ProgramSegment} (sound : segment.Sound)
    (program : UserProgram) (zero : Page) (page : Nat) :
    page ∈ segment.filedPages ↔ page ∈ (segmentWrites program segment zero).map Prod.fst := by
  rw [mem_filedPages, ← lastWrite_segment_ne_none sound zero page, ne_eq, lastWrite_eq_none, not_not]

theorem map_fst_consecutive (first count : Nat) (content : Nat → Page) :
    (consecutive first count content).map Prod.fst = List.range' first count := by
  simp only [consecutive, List.map_map, Function.comp_def, List.range'_eq_map_range]

/-- The pages of the segments that are loaded into memory, in order. -/
def loadedPages (name : String) : List ProgramSegment → Nat → List Nat
  | [], _ => []
  | segment :: segments, remainingWSPages =>
      List.range' segment.firstPage (segment.allocatedPages name remainingWSPages) ++
        loadedPages name segments (remainingWSPages - segment.allocatedPages name remainingWSPages)

/-- The initial stack page. -/
abbrev stackAddress : Nat := ustackTop - pageSize

abbrev stackPage : Nat := pageOf stackAddress

namespace UserProgram

variable (program : UserProgram)

/-- The pages of the segments that `env_create` has in memory. -/
def loadedPages (pageWSSize : Nat) : List Nat :=
  Kernel.loadedPages program.name program.segments ((pageWSSize + (wordSize - 1)) % wordSize)

/-- The pages a new environment has in the page file. -/
def storedPages : List Nat := program.segments.flatMap ProgramSegment.filedPages ++ [stackPage]

end UserProgram

/-! ### The table working set -/

/-- How many tables are added to the table working set for a page. -/
def tableChange (lastTableNumber page : Nat) : Nat := if page / 1024 = lastTableNumber then 0 else 1

/-- The same for pages that are loaded one after the other. -/
def tableChanges : Nat → List Nat → Nat
  | _, [] => 0
  | lastTableNumber, page :: pages => tableChange lastTableNumber page + tableChanges (page / 1024) pages

/-- The number of the table that was used last. -/
def lastTable : Nat → List Nat → Nat
  | lastTableNumber, [] => lastTableNumber
  | _, page :: pages => lastTable (page / 1024) pages

variable {slot lastTableNumber : Nat} {places : Finset Place} {filed : Finset Nat} {loaded later : List Nat}
  {state next last : KernelState}

theorem tableChanges_append (lastTableNumber : Nat) (loaded later : List Nat) :
    tableChanges lastTableNumber (loaded ++ later) =
      tableChanges lastTableNumber loaded + tableChanges (lastTable lastTableNumber loaded) later := by
  induction loaded generalizing lastTableNumber with
  | nil => simp only [List.nil_append, tableChanges, lastTable, Nat.zero_add]
  | cons page loaded ih => simp only [List.cons_append, tableChanges, lastTable, ih, Nat.add_assoc]

/-! ### Loading -/

/-- Pages were loaded, with frames for some of the places and disk frames for some of the pages, and their
tables are in the table working set. -/
structure Loads (slot : Nat) (places : Finset Place) (filed : Finset Nat) (lastTableNumber : Nat)
    (loaded : List Nat) (state next : KernelState) : Prop where
  spends : Spends slot places filed state next
  index : (state.envs slot).tableLastWSIndex < twsMaxSize → (next.envs slot).tableLastWSIndex < twsMaxSize ∧
    (next.envs slot).tableLastWSIndex = (state.envs slot).tableLastWSIndex + tableChanges lastTableNumber loaded

/-- What is missing for loading pages: frames, disk frames, or elements of the table working set. -/
def Lacks (slot : Nat) (places : Finset Place) (filed : Finset Nat) (lastTableNumber : Nat) (loaded : List Nat)
    (state : KernelState) : Prop :=
  Scarce slot places filed state ∨ ((state.envs slot).tableLastWSIndex < twsMaxSize →
    twsMaxSize ≤ (state.envs slot).tableLastWSIndex + tableChanges lastTableNumber loaded)

theorem Lacks.append (lacks : Lacks slot places filed lastTableNumber loaded state) (later : List Nat) :
    Lacks slot places filed lastTableNumber (loaded ++ later) state := by
  apply lacks.imp_right
  intro full few
  rw [tableChanges_append]
  exact (full few).trans (Nat.add_le_add_left (Nat.le_add_right ..) _)

namespace Loads

/-- No page was loaded. -/
theorem idle (spends : Spends slot places filed state next)
    (same : (next.envs slot).tableLastWSIndex = (state.envs slot).tableLastWSIndex) :
    Loads slot places filed lastTableNumber [] state next where
  spends := spends
  index few := by
    rw [same]
    exact ⟨few, rfl⟩

theorem refl (slot : Nat) (places : Finset Place) (filed : Finset Nat) (lastTableNumber : Nat) (state : KernelState) :
    Loads slot places filed lastTableNumber [] state state := idle (.refl ..) rfl

theorem trans (first : Loads slot places filed lastTableNumber loaded state next)
    (second : Loads slot places filed (lastTable lastTableNumber loaded) later next last) :
    Loads slot places filed lastTableNumber (loaded ++ later) state last where
  spends := first.spends.trans second.spends
  index few := by
    obtain ⟨fewNext, nextIndex⟩ := first.index few
    obtain ⟨fewLast, lastIndex⟩ := second.index fewNext
    rw [tableChanges_append, ← Nat.add_assoc, ← nextIndex]
    exact ⟨fewLast, lastIndex⟩

/-- Nothing more is loaded. -/
theorem trans_idle (first : Loads slot places filed lastTableNumber loaded state next)
    (second : Loads slot places filed (lastTable lastTableNumber loaded) [] next last) :
    Loads slot places filed lastTableNumber loaded state last := by
  have both := first.trans second
  rwa [List.append_nil] at both

/-- What is missing later is missing from the start. -/
theorem lacks (first : Loads slot places filed lastTableNumber loaded state next)
    (lacks : Lacks slot places filed (lastTable lastTableNumber loaded) later next) :
    Lacks slot places filed lastTableNumber (loaded ++ later) state := by
  apply lacks.imp first.spends.scarce
  intro full few
  obtain ⟨fewNext, nextIndex⟩ := first.index few
  rw [tableChanges_append, ← Nat.add_assoc, ← nextIndex]
  exact full fewNext

end Loads

/-! ### Places -/

/-- The page is one of those for the page file, and what it needs is among the places. -/
structure Provides (slot : Nat) (places : Finset Place) (filed : Finset Nat) (page : Nat) : Prop where
  places : diskPlaces slot page ⊆ places
  filed : page ∈ filed

/-- What pages in memory and pages in the page file need. -/
def framePlaces (slot : Nat) (resident stored : List Nat) : Finset Place :=
  insert (.root .disk slot) (resident.toFinset.image (.page slot) ∪
    ((resident.map (· / 1024)).toFinset.image (.table .user slot) ∪
      (stored.map (· / 1024)).toFinset.image (.table .disk slot)))

section FramePlaces

variable {resident stored : List Nat} {page : Nat}

theorem pagePlaces_subset (stored : List Nat) (member : page ∈ resident) :
    pagePlaces slot page ⊆ framePlaces slot resident stored := by
  intro place isPlace
  simp only [pagePlaces, Finset.mem_insert, Finset.mem_singleton] at isPlace
  simp only [framePlaces, Finset.mem_insert, Finset.mem_union, Finset.mem_image, List.mem_toFinset, List.mem_map]
  cases isPlace with
  | inl isPage => exact .inr (.inl ⟨page, member, isPage.symm⟩)
  | inr isTable => exact .inr (.inr (.inl ⟨page / 1024, ⟨page, member, rfl⟩, isTable.symm⟩))

theorem provides_of_mem (resident : List Nat) (member : page ∈ stored) :
    Provides slot (framePlaces slot resident stored) stored.toFinset page where
  places := by
    intro place isPlace
    simp only [diskPlaces, Finset.mem_insert, Finset.mem_singleton] at isPlace
    simp only [framePlaces, Finset.mem_insert, Finset.mem_union, Finset.mem_image, List.mem_toFinset, List.mem_map]
    cases isPlace with
    | inl isRoot => exact .inl isRoot
    | inr isTable => exact .inr (.inr (.inr ⟨page / 1024, ⟨page, member, rfl⟩, isTable.symm⟩))
  filed := List.mem_toFinset.2 member

theorem card_framePlaces (slot : Nat) (resident stored : List Nat) :
    (framePlaces slot resident stored).card = 1 + (resident.toFinset.card +
      ((resident.map (· / 1024)).toFinset.card + (stored.map (· / 1024)).toFinset.card)) := by
  rw [framePlaces, Finset.card_insert_of_notMem (by simp), Finset.card_union_of_disjoint,
    Finset.card_union_of_disjoint, Finset.card_image_of_injective, Finset.card_image_of_injective,
    Finset.card_image_of_injective, Nat.add_comm]
  · exact fun left right same => (Place.table.inj same).2.2
  · exact fun left right same => (Place.table.inj same).2.2
  · exact fun left right same => (Place.page.inj same).2
  · simp [Finset.disjoint_left]
  · simp [Finset.disjoint_left]

theorem slot_of_mem_framePlaces : ∀ place ∈ framePlaces slot resident stored, place.slot = slot := by
  intro place isPlace
  simp only [framePlaces, Finset.mem_insert, Finset.mem_union, Finset.mem_image] at isPlace
  rcases isPlace with rfl | ⟨page, -, rfl⟩ | ⟨table, -, rfl⟩ | ⟨table, -, rfl⟩ <;> rfl

/-- The places are named where the pages are mapped and stored. -/
theorem names_framePlaces (root : state.root .disk slot ≠ 0)
    (mapped : ∀ page ∈ resident, state.leaf .user slot page ≠ 0)
    (placed : ∀ page ∈ stored, state.leaf .disk slot page ≠ 0) :
    ∀ place ∈ framePlaces slot resident stored, state.names place ≠ none := by
  intro place isPlace
  simp only [framePlaces, Finset.mem_insert, Finset.mem_union, Finset.mem_image, List.mem_toFinset, List.mem_map,
    exists_exists_and_eq_and] at isPlace
  rcases isPlace with rfl | ⟨page, member, rfl⟩ | ⟨page, member, rfl⟩ | ⟨page, member, rfl⟩
  · exact names_ne_none_root.2 root
  · exact names_ne_none_page.2 (mapped page member)
  · exact names_ne_none_table.2 (KernelState.dirWord_ne_zero_of_leaf (mapped page member))
  · exact names_ne_none_table.2 (KernelState.dirWord_ne_zero_of_leaf (placed page member))

end FramePlaces

end Fos.Kernel
