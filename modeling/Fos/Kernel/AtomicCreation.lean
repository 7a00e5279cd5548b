import Fos.Kernel.Conservation
import Fos.Kernel.CreationSizesProperties
import Fos.Kernel.FiledPages

/-! `env_create` undoes nothing: it leaves no trace only where it has all it needs, or fails before it takes
anything. -/

set_option autoImplicit false

namespace Fos.Kernel

open Foundation

variable {layout : BootLayout} {ram : Nat → Page} {strict tidy : Prop} {slot pageWSSize secondListSize : Nat}
  {program : UserProgram} {places : Finset Place} {filed : Finset Nat} {state start next : KernelState}

/-! ### What a program needs -/

namespace UserProgram

variable (program : UserProgram)

/-- The pages a new environment has in memory. -/
def residentPages (pageWSSize : Nat) : List Nat := program.loadedPages pageWSSize ++ [stackPage]

/-- The frames of a new environment: for its two directories, its pages, their tables, and the disk page
tables. -/
def neededFrames (pageWSSize : Nat) : Nat :=
  2 + ((program.residentPages pageWSSize).toFinset.card +
    (((program.residentPages pageWSSize).map (· / 1024)).toFinset.card +
      (program.storedPages.map (· / 1024)).toFinset.card))

def neededDiskFrames : Nat := program.storedPages.toFinset.card

/-- There is a working set, and as much is free as the program needs. -/
structure Affordable (pageWSSize : Nat) (state : KernelState) : Prop where
  workingSet : 1 ≤ pageWSSize
  frames : program.neededFrames pageWSSize ≤ state.freeFrameList.length
  diskFrames : program.neededDiskFrames ≤ state.diskFreeFrameList.length
  tables : tableChanges 0xFFFFFFFF (program.loadedPages pageWSSize) < twsMaxSize

/-- The places of a new environment but its page directory. -/
def ownPlaces (slot pageWSSize : Nat) : Finset Place :=
  framePlaces slot (program.residentPages pageWSSize) program.storedPages

theorem neededFrames_eq (slot pageWSSize : Nat) :
    program.neededFrames pageWSSize = (program.ownPlaces slot pageWSSize).card + 1 := by
  rw [neededFrames, ownPlaces, card_framePlaces]
  omega

variable {program}

theorem mem_storedPages {page : Nat} : page ∈ program.storedPages ↔ page ∈ program.footprint ∨ page = stackPage := by
  rw [storedPages, List.mem_append, List.mem_flatMap, List.mem_singleton]
  apply or_congr_left
  exact exists_congr fun segment => and_congr_right fun _ => ProgramSegment.mem_filedPages

end UserProgram

/-! ### Failing -/

/-- Nothing is missing for an affordable program. -/
theorem UserProgram.Affordable.not_missing (affordable : program.Affordable pageWSSize state)
    (offStack : ∀ segment ∈ program.segments, ¬ segment.Touches stackPage)
    (furnished : Furnished slot program state start) :
    ¬ Missing slot program pageWSSize (program.ownPlaces slot pageWSSize) program.storedPages.toFinset start := by
  rintro (none | lacks)
  · exact absurd none (Nat.ne_of_gt affordable.workingSet)
  · rcases lacks offStack with (few | fewDisk) | full
    · have enough := affordable.frames
      rw [program.neededFrames_eq slot, furnished.free] at enough
      have demand := Nat.lt_of_lt_of_le few unmet_le_card
      omega
    · have enough := affordable.diskFrames
      rw [← furnished.diskFree] at enough
      exact absurd (Nat.lt_of_lt_of_le fewDisk unmet_le_card) (not_lt.2 enough)
    · rw [furnished.tableLastWSIndex, Nat.zero_add] at full
      exact absurd affordable.tables (not_lt.2 (full (by decide)))

/-- The slot is in no list any more. -/
theorem Failed.freeList
    (failed : Failed layout ram slot program pageWSSize secondListSize places filed state next) :
    next.envFreeList = state.envFreeList.erase slot := by
  obtain ⟨start, prepared, -, stalled, -⟩ := failed.ready
  exact stalled.acts.quiet.freeList.trans prepared.freeList

/-! ### Succeeding -/

section Created

variable {pages : List Nat}

/-- The frames of a new environment were free. -/
theorem Created.frame_free (creates : Created layout ram slot program pageWSSize secondListSize pages state next)
    (vacant : state.Vacant slot) {place : Place} (own : place.slot = slot) {frame : Nat}
    (named : next.names place = some frame) : frame ∈ state.freeFrameList := by
  rcases creates.acts.held frame (.inr (.inl ⟨place, own, named⟩)) with free | ⟨other, isOwn, before⟩ | inHand
  · exact free
  · rw [vacant.names_eq_none isOwn] at before
    cases before
  · cases inHand

/-- The stack page has a disk frame if there was one for each page of the page file. -/
theorem Created.stack_placed (creates : Created layout ram slot program pageWSSize secondListSize pages state next)
    (vacant : state.Vacant slot) (sound : ∀ segment ∈ program.segments, segment.Sound)
    (enough : program.neededDiskFrames ≤ state.diskFreeFrameList.length) : next.leaf .disk slot stackPage ≠ 0 := by
  rw [creates.filed_iff vacant sound]
  by_cases own : stackPage ∈ program.footprint
  · exact .inl own
  · refine .inr ⟨rfl, Nat.lt_of_lt_of_le ?_ enough⟩
    have whole : (program.storedPages.toFinset : Set Nat) = insert stackPage program.footprint := by
      ext page
      rw [Finset.mem_coe, List.mem_toFinset, UserProgram.mem_storedPages, Set.mem_insert_iff, or_comm]
    have finite : program.footprint.Finite :=
      (Finset.finite_toSet program.storedPages.toFinset).subset (whole ▸ Set.subset_insert _ _)
    rw [UserProgram.neededDiskFrames, ← Set.ncard_coe_finset, whole, Set.ncard_insert_of_notMem own finite]
    exact Nat.lt_succ_self _

theorem Created.all_placed (creates : Created layout ram slot program pageWSSize secondListSize pages state next)
    (vacant : state.Vacant slot) (sound : ∀ segment ∈ program.segments, segment.Sound)
    (stacked : next.leaf .disk slot stackPage ≠ 0) :
    ∀ page ∈ program.storedPages, next.leaf .disk slot page ≠ 0 := by
  intro page member
  rcases UserProgram.mem_storedPages.1 member with inside | rfl
  · exact (creates.filed_iff vacant sound page).2 (.inl inside)
  · exact stacked

theorem Created.neededDiskFrames_le
    (creates : Created layout ram slot program pageWSSize secondListSize pages state next)
    (vacant : state.Vacant slot) (sound : ∀ segment ∈ program.segments, segment.Sound)
    (stacked : next.leaf .disk slot stackPage ≠ 0) :
    program.neededDiskFrames ≤ state.diskFreeFrameList.length := by
  apply (creates.inv.toLedger.filing_exclusive slot).card_le_length
  · intro page member
    exact filing_ne_none.2 (creates.all_placed vacant sound stacked page (List.mem_toFinset.1 member))
  · exact fun page _ diskFrame named => creates.diskFrame_free vacant named

theorem Created.neededFrames_le
    (creates : Created layout ram slot program pageWSSize secondListSize
      ((program.loadedPages pageWSSize).map (· * pageSize)) state next)
    (vacant : state.Vacant slot) (sound : ∀ segment ∈ program.segments, segment.Sound)
    (stacked : next.leaf .disk slot stackPage ≠ 0) :
    program.neededFrames pageWSSize ≤ state.freeFrameList.length := by
  have mapped : ∀ page ∈ program.residentPages pageWSSize, next.leaf .user slot page ≠ 0 := by
    intro page member
    rw [creates.mapped, List.mem_append]
    rcases List.mem_append.1 member with loaded | onStack
    · exact .inl (List.mem_map_of_mem loaded)
    · rw [List.mem_singleton.1 onStack]
      exact .inr (List.mem_singleton_self _)
  have root := (KernelState.root_ne_zero_of_dirWord (KernelState.dirWord_ne_zero_of_leaf stacked)).1
  have named := names_framePlaces root mapped (creates.all_placed vacant sound stacked)
  have outside : Place.root .user slot ∉ program.ownPlaces slot pageWSSize := by
    simp [UserProgram.ownPlaces, framePlaces]
  rw [program.neededFrames_eq slot, ← Finset.card_insert_of_notMem outside]
  apply creates.inv.toLedger.exclusive.card_le_length
  · intro place member
    rcases Finset.mem_insert.1 member with rfl | isOwn
    · exact names_ne_none_root.2 creates.live
    · exact named place isOwn
  · intro place member frame isFrame
    apply creates.frame_free vacant _ isFrame
    rcases Finset.mem_insert.1 member with rfl | isOwn
    · rfl
    · exact slot_of_mem_framePlaces place isOwn

theorem Created.affordable
    (creates : Created layout ram slot program pageWSSize secondListSize
      ((program.loadedPages pageWSSize).map (· * pageSize)) state next)
    (vacant : state.Vacant slot) (sound : ∀ segment ∈ program.segments, segment.Sound)
    (stacked : next.leaf .disk slot stackPage ≠ 0)
    (tables : tableChanges 0xFFFFFFFF (program.loadedPages pageWSSize) < twsMaxSize) :
    program.Affordable pageWSSize state where
  workingSet := by
    have fits := creates.recorded.fits
    rw [creates.pageWSMaxSize, List.length_append, List.length_singleton] at fits
    exact (Nat.le_add_left 1 _).trans fits
  frames := creates.neededFrames_le vacant sound stacked
  diskFrames := creates.neededDiskFrames_le vacant sound stacked
  tables := tables

end Created

/-! ### Atomicity -/

/-- The lists have the members they had, the queues are as they were, and so is the page directory in use. -/
structure Undone (state next : KernelState) : Prop where
  envs : ∀ slot, slot ∈ next.envFreeList ↔ slot ∈ state.envFreeList
  frames : ∀ frame, frame ∈ next.freeFrameList ↔ frame ∈ state.freeFrameList
  diskFrames : ∀ diskFrame, diskFrame ∈ next.diskFreeFrameList ↔ diskFrame ∈ state.diskFreeFrameList
  newQueue : next.envNewQueue = state.envNewQueue
  readyQueue : next.envReadyQueue = state.envReadyQueue
  exitQueue : next.envExitQueue = state.envExitQueue
  cr3 : next.cr3 = state.cr3

theorem Undone.refl (state : KernelState) : Undone state state :=
  ⟨fun _ => Iff.rfl, fun _ => Iff.rfl, fun _ => Iff.rfl, rfl, rfl, rfl, rfl⟩

/-- `env_create` makes an environment whose stack page is in the page file, or undoes what it has done. -/
def CreatesAtomically (program : Option UserProgram) (pageWSSize secondListSize : Nat) (state : KernelState) : Prop :=
  wp (envCreate program pageWSSize secondListSize)
    (fun result next => match result with
      | none => Undone state next
      | some slot => next.leaf .disk slot stackPage ≠ 0)
    (onPanic (Undone state)) state

theorem createsAtomically_none : CreatesAtomically none pageWSSize secondListSize state := .refl state

theorem createsAtomically_of_noSlot (none : state.envFreeList = []) :
    CreatesAtomically (some program) pageWSSize secondListSize state := by
  unfold CreatesAtomically envCreate
  simp only [wp_bind, wp_get, none, wp_pure]
  exact .refl state

/-- Before the first frame is taken only the record of the slot has changed. -/
theorem createsAtomically_of_noFrame {slots : List Nat} (free : state.envFreeList = slot :: slots)
    (none : state.freeFrameList = []) : CreatesAtomically (some program) pageWSSize secondListSize state := by
  unfold CreatesAtomically envCreate
  simp only [wp_bind, wp_get, free, wp_modifyEnv, allocateFrame, KernelState.setEnv_freeFrameList, none, wp_panic]
  exact ⟨fun _ => Iff.rfl, fun _ => Iff.rfl, fun _ => Iff.rfl, rfl, rfl, rfl, rfl⟩

/-- With a free slot and a free frame, everything the program needs has to be there. -/
theorem createsAtomically_some_iff (valid : layout.Valid) (population : Population layout ram strict tidy state)
    {slots others : List Nat} {frame : Nat} (free : state.envFreeList = slot :: slots)
    (frames : state.freeFrameList = frame :: others) (loadable : program.Loadable) (small : pageWSSize ≤ pwsMaxSize) :
    CreatesAtomically (some program) pageWSSize secondListSize state ↔ program.Affordable pageWSSize state := by
  have member : slot ∈ state.envFreeList := by
    rw [free]
    exact List.mem_cons_self ..
  have vacant := population.vacant slot member
  have loads := envCreate_loads valid population.inv free frames vacant loadable.sound loadable.inside loadable.apart
    pageWSSize secondListSize (fun page inside => pagePlaces_subset program.storedPages inside)
    fun page inside => provides_of_mem (program.residentPages pageWSSize) inside
  constructor
  · intro atomically
    have both := wp_both atomically loads
    apply wp_const (wp_mono both _ _)
    · rintro result next ⟨stacked, rfl, created, tables⟩
      exact created.affordable vacant loadable.sound stacked tables
    · rintro stop next ⟨undone, failed⟩
      cases stop with
      | panic message =>
          have lost : slot ∉ next.envFreeList := by
            rw [Failed.freeList failed]
            exact (List.nodup_append.1 population.distinct).1.not_mem_erase
          exact absurd ((Undone.envs undone slot).2 member) lost
      | undefined access => exact undone.elim
  · intro affordable
    apply wp_mono loads
    · rintro result next ⟨rfl, created, -⟩
      exact created.stack_placed vacant loadable.sound affordable.diskFrames
    · intro stop next failed
      cases stop with
      | panic message =>
          obtain ⟨start, -, furnished, -, missing⟩ := Failed.ready failed
          exact absurd missing (affordable.not_missing loadable.offStack furnished)
      | undefined access =>
          rcases failed with none | large
          · exact absurd none (Nat.ne_of_gt affordable.workingSet)
          · exact absurd small (not_le.2 large)

theorem Population.atomic_iff (valid : layout.Valid) (population : Population layout ram strict tidy state)
    {program : Option UserProgram} (loadable : ∀ loaded ∈ program, loaded.Loadable) (small : pageWSSize ≤ pwsMaxSize) :
    CreatesAtomically program pageWSSize secondListSize state ↔ state.envFreeList = [] ∨ state.freeFrameList = [] ∨
      ∀ loaded ∈ program, loaded.Affordable pageWSSize state := by
  cases program with
  | none => exact iff_of_true createsAtomically_none (.inr (.inr fun loaded member => by cases member))
  | some program =>
      cases free : state.envFreeList with
      | nil => exact iff_of_true (createsAtomically_of_noSlot free) (.inl rfl)
      | cons slot slots =>
          cases frames : state.freeFrameList with
          | nil => exact iff_of_true (createsAtomically_of_noFrame free frames) (.inr (.inl rfl))
          | cons frame others =>
              rw [createsAtomically_some_iff valid population free frames (loadable program rfl) small]
              simp only [reduceCtorEq, false_or, Option.mem_def, Option.some.injEq, forall_eq']

/-- More pages than the page file has. -/
def vastProgram : UserProgram where
  name := "vast"
  image := fun _ => 0
  segments := [⟨0, 0, 140000 * pageSize, 0x800000⟩]

theorem vastProgram_loadable : vastProgram.Loadable where
  sound := by
    rw [vastProgram, List.forall_mem_singleton]
    exact ⟨by decide, by decide⟩
  inside := by
    rw [vastProgram, List.forall_mem_singleton]
    decide
  apart := List.pairwise_singleton _ _
  offStack := by
    rw [vastProgram, List.forall_mem_singleton]
    rintro ⟨-, below⟩
    exact absurd below (by decide)

/-- The page file has fewer frames than the segment has pages. -/
theorem le_neededDiskFrames_vast : 140000 ≤ vastProgram.neededDiskFrames := by
  have first : (⟨0, 0, 140000 * pageSize, 0x800000⟩ : ProgramSegment).firstPage = 2048 := by decide
  have last : (⟨0, 0, 140000 * pageSize, 0x800000⟩ : ProgramSegment).endPage = 2048 + 140000 := by decide
  have pages : (List.range' 2048 140000).toFinset ⊆ vastProgram.storedPages.toFinset := by
    intro page member
    rw [List.mem_toFinset] at member ⊢
    refine UserProgram.mem_storedPages.2 (.inl ⟨_, List.mem_singleton_self _, .inl ?_⟩)
    rw [ProgramSegment.Touches, first, last]
    exact List.mem_range'_1.1 member
  have most := Finset.card_le_card pages
  rw [List.toFinset_card_of_nodup List.nodup_range', List.length_range'] at most
  rw [UserProgram.neededDiskFrames]
  exact most

theorem not_affordable_vast : ¬ vastProgram.Affordable 6 cleanMachine := by
  intro affordable
  have free : cleanMachine.diskFreeFrameList.length = pagesPerFile - 1 := by
    simp only [cleanMachine, BootLayout.boot, length_insertedAtHead]
  have enough := affordable.diskFrames
  rw [free] at enough
  exact absurd (le_neededDiskFrames_vast.trans enough) (by decide)

/-- The page file is used up while the program is loaded. -/
theorem not_createsAtomically_vast : vastProgram.Loadable ∧ createEnvAccepts 6 2 = true ∧
    ¬ CreatesAtomically (some vastProgram) 6 2 cleanMachine := by
  refine ⟨vastProgram_loadable, by decide, ?_⟩
  obtain ⟨ram, population⟩ := population_of_contained BootLayout.small_valid
    (.start ⟨_, _, rfl⟩ : (kernel .small).Reaches Contained cleanMachine)
  have loadable : ∀ loaded ∈ some vastProgram, loaded.Loadable := fun loaded member =>
    Option.some.inj member ▸ vastProgram_loadable
  rw [population.atomic_iff BootLayout.small_valid loadable (by decide)]
  rintro (noSlot | noFrame | affordable)
  · exact absurd noSlot (by decide)
  · exact absurd noFrame (by decide)
  · exact not_affordable_vast (affordable vastProgram rfl)

end Fos.Kernel
