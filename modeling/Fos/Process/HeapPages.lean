import Fos.Kernel.FiledPages
import Fos.Process.Release

/-! The slots of `spaces` and the pages of the user heap that have a page-file frame. -/

set_option autoImplicit false

namespace Fos.Process

open Foundation Kernel UserHeap

variable {layout : BootLayout} {program : UserProgram} {slot : Nat} {world next : World} {allocation : Allocation}

/-- The pages of `[USER_HEAP_START, USER_HEAP_MAX)`. -/
def heapPages : Set Nat := {page | userHeapStart ≤ page * pageSize ∧ page * pageSize < userHeapMax}

theorem below_of_mem_heapPages {page : Nat} (inside : page ∈ heapPages) : page < pageOf ustackBottom := by
  have bottom : pageOf ustackBottom * pageSize = ustackBottom := by decide
  have upper : userHeapMax ≤ ustackBottom := by decide
  have below := inside.2
  simp only [pageSize] at bottom below
  omega

/-- The page ranges of the slots with `isFree = 0` and `pages > 0`. -/
def usedPages (spaces : List Info) : Set Nat :=
  {page | ∃ space ∈ spaces, space.isFree = false ∧ 0 < space.pages ∧
    pageOf space.strAddress ≤ page ∧ (page : Int) < pageOf space.strAddress + space.pages}

def HeapAgrees (slot : Nat) (world : World) : Prop :=
  world.kernel.filedPages slot ∩ heapPages = usedPages world.heap.spaces

/-! ### Slots and allocations -/

def livePages (live : List Allocation) : Set Nat := {page | ∃ allocation ∈ live, page ∈ pagesOf allocation}

theorem livePages_cons (allocation : Allocation) (live : List Allocation) :
    livePages (allocation :: live) = livePages live ∪ pagesOf allocation := by
  ext page
  simp only [livePages, List.mem_cons, exists_eq_or_imp, Set.mem_ofPred_eq, Set.mem_union, or_comm]

theorem usedPages_eq {session : Session} (sound : session.Sound) : usedPages session.spaces = livePages session.live := by
  ext page
  constructor
  · rintro ⟨space, member, notFree, present, lower, upper⟩
    have inUse : space ∈ inUse session.spaces := mem_inUse.2 ⟨member, by omega⟩
    have listed := sound.live.mem_iff.1 (List.mem_map_of_mem (f := Info.span) (mem_held.2 ⟨inUse, notFree⟩))
    obtain ⟨allocation, live, same⟩ := List.mem_map.1 listed
    simp only [Allocation.span, Info.span, Span.mk.injEq] at same
    have pages : space.pages = reqPagesOf allocation.size :=
      sound.pages_eq_reqPagesOf inUse (by rw [← same.1, ← same.2])
    refine ⟨allocation, live, ?_, ?_⟩
    · rw [same.1]
      exact lower
    · rw [same.1]
      rw [pages, reqPagesOf] at upper
      omega
  · rintro ⟨allocation, live, lower, upper⟩
    obtain ⟨space, inHeld, start, finish⟩ := sound.exists_space live
    obtain ⟨inUse, notFree⟩ := mem_held.1 inHeld
    have pages : space.pages = reqPagesOf allocation.size := sound.pages_eq_reqPagesOf inUse (by rw [start, finish])
    refine ⟨space, (mem_inUse.1 inUse).1, notFree, sound.slots.partition.pages_pos inUse, ?_, ?_⟩
    · rw [start]
      exact lower
    · rw [start, pages, reqPagesOf]
      omega

theorem Placed.pagesOf_subset (placed : Placed allocation) : pagesOf allocation ⊆ heapPages := by
  have aligned := placed.aligned
  have start := placed.start
  have fits := placed.fits
  rintro page ⟨lower, upper⟩
  simp only [pageOf, pageSize, heapPages, Set.mem_ofPred_eq] at *
  omega

theorem Placed.disjoint {other : Allocation} (placed : Placed allocation) (placedOther : Placed other)
    (apart : allocation.span.Apart other.span) : Disjoint (pagesOf allocation) (pagesOf other) := by
  have aligned := placed.aligned
  have alignedOther := placedOther.aligned
  have rounded := roundUp_mod allocation.size
  have roundedOther := roundUp_mod other.size
  rw [Set.disjoint_left]
  rintro page ⟨lower, upper⟩ ⟨lowerOther, upperOther⟩
  simp only [Span.Apart, Allocation.span, pageOf, pageSize] at *
  omega

/-- The allocations that stay have other pages. -/
theorem livePages_erase {session : Session} (sound : session.Sound) (member : allocation ∈ session.live) :
    livePages (session.live.erase allocation) = livePages session.live \ pagesOf allocation := by
  have order := ((List.perm_cons_erase member).pairwise_iff fun {_ _} => Span.Apart.symm).1
    (List.pairwise_map.1 sound.live_apart)
  ext page
  constructor
  · rintro ⟨other, stays, within⟩
    have live := List.mem_of_mem_erase stays
    have apart := (placed_of_live sound member).disjoint (placed_of_live sound live) ((List.pairwise_cons.1 order).1 other stays)
    exact ⟨⟨other, live, within⟩, fun inside => Set.disjoint_left.1 apart inside within⟩
  · rintro ⟨⟨other, live, within⟩, outside⟩
    refine ⟨other, (List.mem_erase_of_ne ?_).2 live, within⟩
    rintro rfl
    exact outside within

/-! ### The page file along a run -/

/-- What the page file holds of the user heap is what is allocated. -/
def HeapFiled (slot : Nat) (world : World) : Prop :=
  world.kernel.filedPages slot ∩ heapPages = livePages world.heap.live

theorem HeapFiled.begins (valid : layout.Valid) (begins : Begins layout program slot world)
    (outside : ∀ page ∈ program.footprint, page ∉ heapPages) : HeapFiled slot world := by
  obtain ⟨before, pageWSSize, secondListSize, reached, contained, free, creates⟩ := begins.created
  obtain ⟨ram, population⟩ := population_of_contained valid reached
  obtain ⟨pages, created, arrives, undisturbed⟩ :=
    population.exists_created (population.passage valid contained creates) free begins.runnable
  have unfiled : ∀ page ∈ heapPages, world.kernel.leaf .disk slot page = 0 := by
    intro page inside
    have same := congrFun (congrArg Space.diskFrame undisturbed.space) page
    apply same.trans (Decidable.of_not_not _)
    intro filed
    rcases (arrives.filed_iff (population.vacant slot free) contained.1.sound page).1 filed with loaded | ⟨rfl, -⟩
    · exact outside page loaded inside
    · exact absurd inside.2 (by decide)
  rw [HeapFiled, begins.heap]
  ext page
  constructor
  · exact fun filed => absurd (unfiled page filed.2) filed.1
  · rintro ⟨_, impossible, -⟩
    cases impossible

theorem HeapFiled.step {action : Action} (valid : layout.Valid) (alive : Alive layout slot world)
    (proper : Proper world action) (runnable : slot ∈ next.kernel.runnable) (step : Step slot world next action)
    (filed : HeapFiled slot world) : HeapFiled slot next := by
  obtain ⟨ram, population⟩ := population_of_contained valid alive.kernel
  rw [HeapFiled] at filed ⊢
  cases step with
  | malloc_none size kernel heap =>
      rw [kernel, heap]
      exact filed
  | malloc_some allocation curenv live sound placed allocates =>
      obtain ⟨slot', curenv', allocated | ⟨stopped, panicked, stops⟩⟩ := population.allocateMem_outcome valid
        (fun page member => low_of_mem_rangeOf (whole_inside placed.aligned placed.below) member) allocates
      · obtain rfl := Option.some_inj.1 (curenv.symm.trans curenv')
        rw [allocated.filedPages (whole_inside placed.aligned placed.below), live, livePages_cons, Set.union_inter_distrib_right,
          filed]
        exact congrArg _ (Set.inter_eq_left.2 placed.pagesOf_subset)
      · obtain rfl := Option.some_inj.1 (curenv.symm.trans curenv')
        exact absurd (stops ▸ runnable) (population.gone_of_stopped curenv panicked.acts)
  | free allocation curenv member before live sound frees =>
      have freed := freesListed valid alive curenv (placed_of_live before member) frees
      rw [freed.filed, live, livePages_erase before member, ← filed]
      exact (Set.inter_sdiff_right_comm ..).symm
  | event event other heap executes =>
      rw [heap, ← filed]
      have passage := population.passage valid proper executes
      have disk : ∀ page ∈ heapPages, next.kernel.leaf .disk slot page = world.kernel.leaf .disk slot page := by
        intro page inside
        rcases population.undisturbed_or_works passage alive.runnable runnable with undisturbed | ⟨curenv, works⟩
        · exact congrFun (congrArg Space.diskFrame undisturbed.space) page
        · cases works.worked valid population proper curenv with
          | kept recency disk => exact congrFun disk page
          | @brought address access recency refiled =>
              by_cases same : page = pageOf (roundDown address)
              · rw [same]
                exact refiled.kept (.inr (same ▸ below_of_mem_heapPages inside))
              · exact refiled.others page same
          | allocated => exact absurd ⟨curenv, trivial⟩ other
          | freed => exact absurd ⟨curenv, trivial⟩ other
      ext page
      exact and_congr_left fun inside => by
        change next.kernel.leaf .disk slot page ≠ 0 ↔ world.kernel.leaf .disk slot page ≠ 0
        rw [disk page inside]

end Fos.Process
