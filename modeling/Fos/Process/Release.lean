import Fos.Kernel.Conservation
import Fos.Process.RunProperties

/-! What is left of an allocation when it has been freed. -/

set_option autoImplicit false

namespace Fos.Process

open Foundation Kernel UserHeap

variable {layout : BootLayout} {program : UserProgram} {slot : Nat} {world next : World} {allocation : Allocation}

/-- The pages of an allocation. -/
def pagesOf (allocation : Allocation) : Set Nat := wholePages allocation.pointer (roundUp allocation.size)

/-- Nothing of the allocation is in memory or in the page file, and its frames are free. -/
structure Gone (slot : Nat) (allocation : Allocation) (state next : KernelState) : Prop where
  unmapped : ∀ page ∈ pagesOf allocation, next.leaf .user slot page = 0
  unfiled : ∀ page ∈ pagesOf allocation, next.leaf .disk slot page = 0
  frames : ∀ page ∈ pagesOf allocation, ∀ frame, state.frameAt slot page = some frame → frame ∈ next.freeFrameList

/-- `free` returns, and has released the memory. -/
def ReleasesMemory (slot : Nat) (allocation : Allocation) (world : World) : Prop :=
  ∃ next, exec slot world (.request (.free allocation.pointer)) = some next ∧ Gone slot allocation world.kernel next.kernel

theorem frameAt_eq_none {state : KernelState} {page : Nat} :
    state.frameAt slot page = none ↔ state.leaf .user slot page = 0 := by
  rw [KernelState.frameAt]
  split
  · next unmapped => exact iff_of_true rfl unmapped
  · next mapped => exact iff_of_false (Option.some_ne_none _) mapped

/-- Freeing a live allocation returns. -/
theorem Alive.exists_free (valid : layout.Valid) (alive : Alive layout slot world) (curenv : world.kernel.curenv = some slot)
    (member : allocation ∈ world.heap.live) : ∃ next, exec slot world (.request (.free allocation.pointer)) = some next := by
  have sound := sound_of_live alive.heap member
  obtain ⟨outcome, result, call, -⟩ := sound.free member
  obtain ⟨heap, serves⟩ : ∃ heap, world.heap.exec (.free allocation.pointer) = some heap := by
    simp only [Session.exec, if_pos (List.mem_map_of_mem member), result, Option.some.injEq, exists_eq']
  obtain ⟨ram, population⟩ := population_of_contained valid alive.kernel
  obtain ⟨runs, running, healthy⟩ := population.running curenv
  have below := (placed_of_live sound member).below
  have word : allocation.pointer < wordSize ∧ roundUp allocation.size < wordSize :=
    ⟨(Nat.le_add_right _ _).trans_lt (below.trans_lt (by decide)), (Nat.le_add_left _ _).trans_lt (below.trans_lt (by decide))⟩
  obtain ⟨_, kernel, returns, removed, stepped, released⟩ | ⟨_, _, _, never⟩ := wp_cases
    (freeMem_spec valid running healthy word.1 (roundUp allocation.size) : wp _ _ (fun _ _ => False) _)
  swap
  · exact never.elim
  have enters : Kernel.exec world.kernel (.freeMem allocation.pointer (roundUp allocation.size)) = some kernel := by
    simp only [Kernel.exec, curenv, if_pos word, returns, settle]
  have quiet := (stepped.becomes.acts.trans released.acts).quiet
  have runnable : slot ∈ kernel.runnable := by
    rw [KernelState.runnable, quiet.newQueue, quiet.readyQueue, quiet.curenv]
    exact runs
  refine ⟨⟨kernel, heap⟩, ?_⟩
  simp only [exec, if_pos curenv, libraryCall, result, serves, call, enterKernel, eventOf, enters, Option.bind_some, survive,
    if_pos runnable]

/-- The system call `free` ends in. -/
theorem Alive.frees (alive : Alive layout slot world) (member : allocation ∈ world.heap.live)
    (executes : exec slot world (.request (.free allocation.pointer)) = some next) :
    Kernel.exec world.kernel (.freeMem allocation.pointer (roundUp allocation.size)) = some next.kernel := by
  obtain ⟨-, -, -, outcome, result, enters⟩ := exec_request executes
  obtain ⟨served, frees, call, -⟩ := (sound_of_live alive.heap member).free member
  obtain rfl := Except.ok.inj (frees.symm.trans result)
  rw [call] at enters
  exact enters

/-- What `freeMem` does to the pages of an allocation. -/
structure FreesListed (slot : Nat) (allocation : Allocation) (state next : KernelState) : Prop where
  filed : next.filedPages slot = state.filedPages slot \ pagesOf allocation
  listed : ∀ page ∈ pagesOf allocation, page * pageSize ∈ (state.envs slot).recency → next.leaf .user slot page = 0 ∧
    ∀ frame, state.frameAt slot page = some frame → frame ∈ next.freeFrameList
  unlisted : ∀ page ∈ pagesOf allocation, page * pageSize ∉ (state.envs slot).recency →
    (next.leaf .user slot page = 0 ↔ state.leaf .user slot page = 0)

theorem FreesListed.unfiled {state next : KernelState} (freed : FreesListed slot allocation state next) {page : Nat}
    (within : page ∈ pagesOf allocation) : next.leaf .disk slot page = 0 := by
  apply Decidable.of_not_not
  intro kept
  have filed : page ∈ next.filedPages slot := kept
  rw [freed.filed] at filed
  exact filed.2 within

theorem freesListed (valid : layout.Valid) (alive : Alive layout slot world) (curenv : world.kernel.curenv = some slot)
    (placed : Placed allocation)
    (frees : Kernel.exec world.kernel (.freeMem allocation.pointer (roundUp allocation.size)) = some next.kernel) :
    FreesListed slot allocation world.kernel next.kernel := by
  obtain ⟨ram, population⟩ := population_of_contained valid alive.kernel
  obtain ⟨slot', removed, curenv', stepped, released⟩ := population.freeMem_outcome valid frees
  obtain rfl := Option.some_inj.1 (curenv.symm.trans curenv')
  have inside := touched_inside placed.aligned placed.below
  have sized : roundUp allocation.size ≤ userTop := (Nat.le_add_left _ _).trans placed.below
  have rounds : roundUp (roundUp allocation.size) / pageSize = pageUp (roundUp allocation.size) := by
    rw [roundUp_eq sized, Nat.mul_div_cancel _ (by decide)]
  rw [rounds] at stepped released
  have leaf : removed.leaf .user slot = world.kernel.leaf .user slot := by
    rw [stepped.leaf, Space.removeAll_entry]
    rfl
  have disk : next.kernel.leaf .disk slot = _ := released.disk.trans (congrArg Space.diskFrame stepped.becomes.space)
  have whole : pagesOf allocation = touchedPages allocation.pointer (roundUp allocation.size) :=
    (touchedPages_of_mod_eq_zero (roundUp_mod _)).symm
  have range (page : Nat) (within : page ∈ pagesOf allocation) :
      page * pageSize ∈ rangeOf allocation.pointer (pageUp (roundUp allocation.size)) := by
    rw [whole] at within
    exact mul_mem_rangeOf placed.aligned inside within.1 within.2
  have same (page : Nat) : removed.frameAt slot page = world.kernel.frameAt slot page := by
    rw [KernelState.frameAt, leaf, KernelState.frameAt]
  have frames := released.frames
  simp only [same, stepped.env] at frames
  constructor
  · ext page
    change next.kernel.leaf .disk slot page ≠ 0 ↔ world.kernel.leaf .disk slot page ≠ 0 ∧ page ∉ pagesOf allocation
    rw [disk, Space.removeAll_diskFrame, whole]
    by_cases touched : page ∈ touchedPages allocation.pointer (roundUp allocation.size)
    · rw [if_pos ((mem_rangeOf inside).2 touched)]
      exact iff_of_false (fun some => some rfl) fun both => both.2 touched
    · rw [if_neg fun member => touched ((mem_rangeOf inside).1 member)]
      exact (and_iff_left touched).symm
  · intro page within listed
    constructor
    · rw [← frameAt_eq_none, frames, if_pos ⟨range page within, listed⟩]
    · intro frame there
      apply released.freed _ (range page within) (stepped.env.symm ▸ listed)
      rw [pageOf_mul, same, there]
  · intro page within unlisted
    rw [← frameAt_eq_none, frames, if_neg fun both => unlisted both.2, frameAt_eq_none]

/-- Exactly if every page of it that is in memory is in `ActiveList` or `SecondList`. -/
theorem releasesMemory_iff (valid : layout.Valid) (reached : (processes layout program slot).Reaches Proper world)
    (curenv : world.kernel.curenv = some slot) (member : allocation ∈ world.heap.live) :
    ReleasesMemory slot allocation world ↔ ∀ page ∈ pagesOf allocation,
      world.kernel.leaf .user slot page ≠ 0 → page * pageSize ∈ (world.kernel.envs slot).recency := by
  have alive := alive_of_reaches reached
  have placed := placed_of_live (sound_of_live alive.heap member) member
  obtain ⟨next, executes⟩ := alive.exists_free valid curenv member
  have freed := freesListed valid alive curenv placed (alive.frees member executes)
  constructor
  · rintro ⟨last, again, gone⟩ page within mapped
    obtain rfl := Option.some.inj (executes.symm.trans again)
    apply Decidable.of_not_not
    intro unlisted
    exact mapped ((freed.unlisted page within unlisted).1 (gone.unmapped page within))
  · intro listed
    refine ⟨next, executes, ⟨fun page within => ?_, fun page within => freed.unfiled within, fun page within frame there => ?_⟩⟩
    · by_cases present : page * pageSize ∈ (world.kernel.envs slot).recency
      · exact (freed.listed page within present).1
      · have unmapped : world.kernel.leaf .user slot page = 0 := Decidable.of_not_not fun mapped =>
          present (listed page within mapped)
        exact (freed.unlisted page within present).2 unmapped
    · have mapped : world.kernel.leaf .user slot page ≠ 0 := fun unmapped => by
        rw [frameAt_eq_none.2 unmapped] at there
        cases there
      exact (freed.listed page within (listed page within mapped)).2 frame there

/-- A run from the creation of a first environment on. -/
theorem exists_reached (program : UserProgram) {good : World → Prop} {pageWSSize secondListSize : Nat} {actions : List Action}
    (contained : Contained cleanMachine (.create program pageWSSize secondListSize))
    (proper : ∀ world, ∀ action ∈ actions, Proper world action)
    (ran : ∃ kernel ∈ Kernel.exec cleanMachine (.create program pageWSSize secondListSize), 0 ∈ kernel.runnable ∧
      ∃ last ∈ (processes .small program 0).run ⟨kernel, Session.initial⟩ actions, good last) :
    ∃ world, (processes .small program 0).Reaches Proper world ∧ good world := by
  obtain ⟨kernel, creates, runnable, rest⟩ := ran
  have free : 0 ∈ cleanMachine.envFreeList := by decide
  have begins : (processes .small program 0).start ⟨kernel, Session.initial⟩ :=
    ⟨⟨cleanMachine, pageWSSize, secondListSize, .start ⟨_, _, rfl⟩, contained, free, creates⟩, runnable, rfl⟩
  exact System.Reaches.exists_of_run begins proper rest

/-- The program starts and allocates one page. -/
def allocating : List Action := [.event (.start 0), .event .schedule, .request (.malloc 4096)]

theorem proper_allocating (world : World) (action : Action) (member : action ∈ allocating) : Proper world action := by
  simp only [allocating, List.mem_cons, List.not_mem_nil, or_false] at member
  rcases member with rfl | rfl | rfl
  · trivial
  · trivial
  · exact ⟨by decide, by decide⟩

/-- The page belongs to a segment of the program, and is in `ActiveList`. -/
theorem releasesMemory_iff_listed : ∃ world, world.kernel.curenv = some 0 ∧ (⟨0x80000000, 4096⟩ : Allocation) ∈ world.heap.live ∧
    ReleasesMemory 0 ⟨0x80000000, 4096⟩ world := by
  obtain ⟨world, reached, curenv, live, listed⟩ := exists_reached heapProgram
    ⟨heapProgram_loadable, by decide, by decide⟩ proper_allocating
    (by decide +kernel : ∃ kernel ∈ Kernel.exec cleanMachine (.create heapProgram 5 2), 0 ∈ kernel.runnable ∧
      ∃ last ∈ (processes .small heapProgram 0).run ⟨kernel, Session.initial⟩ allocating,
        last.kernel.curenv = some 0 ∧ (⟨0x80000000, 4096⟩ : Allocation) ∈ last.heap.live ∧
          0x80000 * pageSize ∈ (last.kernel.envs 0).recency)
  refine ⟨world, curenv, live, (releasesMemory_iff BootLayout.small_valid reached curenv live).2 ?_⟩
  rintro page ⟨lower, upper⟩ -
  have first : pageOf (⟨0x80000000, 4096⟩ : Allocation).pointer = 0x80000 := by decide
  have one : roundUp (⟨0x80000000, 4096⟩ : Allocation).size / pageSize = 1 := by decide
  obtain rfl : page = 0x80000 := by omega
  exact listed

/-- `allocateMem` puts the page it maps in no list, and it stays mapped. -/
theorem not_releasesMemory : ∃ world, (processes .small ⟨"heap", fun _ => 0, []⟩ 0).Reaches Proper world ∧
    world.kernel.curenv = some 0 ∧ ∃ allocation ∈ world.heap.live, ¬ ReleasesMemory 0 allocation world := by
  obtain ⟨world, reached, curenv, live, next, frees, mapped⟩ := exists_reached ⟨"heap", fun _ => 0, []⟩
    ⟨UserProgram.loadable_of_nil rfl, by decide, by decide⟩ proper_allocating
    (by decide +kernel : ∃ kernel ∈ Kernel.exec cleanMachine (.create ⟨"heap", fun _ => 0, []⟩ 5 2), 0 ∈ kernel.runnable ∧
      ∃ last ∈ (processes .small ⟨"heap", fun _ => 0, []⟩ 0).run ⟨kernel, Session.initial⟩ allocating,
        last.kernel.curenv = some 0 ∧ (⟨0x80000000, 4096⟩ : Allocation) ∈ last.heap.live ∧
          ∃ next ∈ exec 0 last (.request (.free 0x80000000)), next.kernel.leaf .user 0 0x80000 ≠ 0)
  refine ⟨world, reached, curenv, _, live, ?_⟩
  rintro ⟨other, again, gone⟩
  obtain rfl := Option.some.inj (frees.symm.trans again)
  exact mapped (gone.unmapped 0x80000 ⟨by decide, by decide⟩)

end Fos.Process
