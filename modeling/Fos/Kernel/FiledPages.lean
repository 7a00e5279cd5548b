import Fos.Kernel.Lifetimes
import Fos.Kernel.ProgramImage
import Fos.Kernel.RangeAgreement

/-! What an event does to the lists and to the page file of an environment that goes on. -/

set_option autoImplicit false

namespace Fos.Kernel

open Foundation

variable {layout : BootLayout} {ram : Nat → Page} {slot owner address size : Nat} {strict tidy : Prop}
  {state next : KernelState} {event : Event} {program : UserProgram}

/-! ### Environments that go on -/

namespace Population

/-- The environment the kernel panicked for cannot run any more. -/
theorem gone_of_stopped (population : Population layout ram strict tidy state) (curenv : state.curenv = some slot)
    (acts : Acts slot [] state [] next) : slot ∉ (afterPanic next).runnable := by
  have quiet := acts.quiet
  obtain ⟨-, outside⟩ := population.apart curenv
  rw [afterPanic, quiet.curenv, curenv]
  intro member
  obtain ⟨waits, -⟩ := waiting_of_envExit next member
  rw [quiet.newQueue, quiet.readyQueue] at waits
  exact outside (List.mem_append_right _ (List.mem_append_left _ waits))

/-- One that can run before and after an event was left alone, or the event was its own. -/
theorem undisturbed_or_works (population : Population layout ram strict tidy state)
    (passage : Passage layout ram state next event) (before : slot ∈ state.runnable) (after : slot ∈ next.runnable) :
    Undisturbed slot state next ∨ state.curenv = some slot ∧ Works slot state next event := by
  cases passage with
  | works owner curenv goesOn acts worked =>
      by_cases own : slot = owner
      · exact .inr (own ▸ ⟨curenv, worked⟩)
      · exact .inl (.of_acts population.inv.toLedger acts own)
  | arrives owner program pageWSSize secondListSize pages created free isCreate creates entered =>
      left
      have different : slot ≠ owner := by
        rintro rfl
        obtain ⟨-, outside⟩ := population.free_apart free
        exact outside (List.mem_append_right _ (List.mem_append_left _ before))
      have enters : Scheduled created (schedInsertNew owner created) := .of_status owner .new rfl
      have machine : SameMachine (created.setEnvFreeList state.envFreeList) created := rfl
      have worked := Undisturbed.of_acts population.inv.toLedger creates.acts different
      rw [entered]
      exact (worked.trans (.of_scheduled (.of_same machine))).trans (.of_scheduled enters)
  | remains remain => exact .inl (remain slot after).2

end Population

/-! ### Events of the running environment -/

/-- What an event that came back has done to the lists and to the page file of its environment. -/
inductive Worked (slot : Nat) (state next : KernelState) : Event → Prop
  | kept {event : Event} (recency : (next.envs slot).recency = (state.envs slot).recency)
      (disk : next.leaf .disk slot = state.leaf .disk slot) : Worked slot state next event
  | brought {address : Nat} {access : Access}
      (recency : (next.envs slot).recency =
        touch (state.envs slot).pageWSMaxSize (roundDown address) (state.envs slot).recency)
      (refiled : Refiled slot (roundDown address) state next) : Worked slot state next (.fault address access)
  | allocated {address size : Nat} (recency : (next.envs slot).recency = (state.envs slot).recency)
      (kept : ∀ page, state.leaf .disk slot page ≠ 0 → next.leaf .disk slot page ≠ 0) :
      Worked slot state next (.allocateMem address size)
  | freed {address size : Nat} (recency : (next.envs slot).recency =
        (state.envs slot).recency.filter (· ∉ rangeOf address (roundUp size / pageSize)))
      (disk : ∀ page, next.leaf .disk slot page = if page ∈ (rangeOf address (roundUp size / pageSize)).map pageOf then 0
        else state.leaf .disk slot page) : Worked slot state next (.freeMem address size)

theorem Works.worked (valid : layout.Valid) (population : Population layout ram strict tidy state)
    (contained : Contained state event) (curenv : state.curenv = some slot)
    (works : Works slot state next event) : Worked slot state next event := by
  obtain ⟨-, running, healthy⟩ := population.running curenv
  cases works with
  | fault faults returns =>
      cases (wp_of_ok returns).1 (faultHandler_spec valid running healthy (population.inaccessible curenv faults)) with
      | tabled becomes keeps calm =>
          exact .kept (congrArg Env.recency (calm.placed running.placed)) (congrArg Space.diskFrame becomes.space)
      | served served => exact .brought served.recency served.refiled
  | @access address access accesses =>
      rw [root_eq] at accesses
      cases access with
      | read =>
          rw [userAccess_read accesses]
          exact .kept rfl rfl
      | write value =>
          obtain ⟨-, becomes, -, calm⟩ := userAccess_write running contained accesses
          exact .kept (congrArg Env.recency (calm.placed running.placed)) (congrArg Space.diskFrame becomes.space)
  | @allocateMem address size returns =>
      have allocated := (wp_of_ok returns).1 (allocatePages_spec valid running healthy (size / pageSize) contained)
      refine .allocated (congrArg Env.recency allocated.env) fun page filed => ?_
      exact (allocated.diskKept page filed).trans_ne filed
  | @freeMem address size word returns =>
      have frees : wp (Kernel.freeMem slot address size) _ (fun _ _ => False) state :=
        freeMem_spec valid running healthy word size
      obtain ⟨removed, stepped, released⟩ := (wp_of_ok returns).1 frees
      apply Worked.freed
      · rw [released.recency, stepped.env]
      · intro page
        rw [released.disk]
        exact (congrFun (congrArg Space.diskFrame stepped.becomes.space) page).trans (Space.removeAll_diskFrame _)
  | allocatePage word returns =>
      have granted := (wp_of_ok returns).1 (sysAllocatePage_spec valid running healthy word (contained slot curenv))
      exact .kept (congrArg Env.recency granted.env) granted.disk

/-! ### New environments -/

/-- The pages the loader gives a page-file frame: those of the segments, and those their file parts end in. -/
def UserProgram.footprint (program : UserProgram) : Set Nat :=
  {page | ∃ segment ∈ program.segments, segment.Touches page ∨ page = pageOf segment.fileEnd}

theorem KernelState.Vacant.unfiled (vacant : state.Vacant slot) (page : Nat) : state.leaf .disk slot page = 0 := by
  apply Decidable.of_not_not
  intro placed
  exact placed_of_leaf placed vacant.disk

/-- The stack page has a page-file frame if the segments left one. -/
theorem Created.filed_iff {pageWSSize secondListSize : Nat} {pages : List Nat} (vacant : state.Vacant slot)
    (sound : ∀ segment ∈ program.segments, segment.Sound)
    (creates : Created layout ram slot program pageWSSize secondListSize pages state next) (page : Nat) :
    next.leaf .disk slot page ≠ 0 ↔ page ∈ program.footprint ∨
      page = stackPage ∧ program.footprint.ncard < state.diskFreeFrameList.length := by
  obtain ⟨middle, stores, filed⟩ := creates.filed
  have written := @lastWrite_flatMap_ne_none program program.segments (layout.bootMem ram 1)
  have loaded (number : Nat) : middle.diskFrame number ≠ 0 ↔ number ∈ program.footprint := by
    cases wrote : lastWrite (program.segments.flatMap (segmentWrites program · (layout.bootMem ram 1))) number with
    | some content =>
        exact iff_of_true (stores.written number content wrote).1 ((written sound).1 (wrote ▸ Option.some_ne_none content))
    | none =>
        have same := (stores.others number wrote).1
        exact iff_of_false (not_not_intro (same.trans (vacant.unfiled number))) fun inside => (written sound).2 inside wrote
  have footprint : {number | middle.diskFrame number ≠ 0} = program.footprint := Set.ext loaded
  rw [footprint] at filed
  cases filed with
  | placed stacked room =>
      by_cases same : page = stackPage
      · rw [same]
        have wrote := stacked.written stackPage (layout.bootMem ram 1) (by rw [lastWrite_single, if_pos rfl])
        refine iff_of_true wrote.1 (room.imp (loaded stackPage).1 fun space => ⟨rfl, not_le.1 space⟩)
      · have kept := (stacked.others page (by rw [lastWrite_single, if_neg (Ne.symm same)])).1
        change (next.space slot).diskFrame page ≠ 0 ↔ _
        rw [kept, loaded, or_iff_left fun stack => same stack.1]
  | dropped full unplaced diskFrame stored =>
      change (next.space slot).diskFrame page ≠ 0 ↔ _
      rw [diskFrame, loaded, or_iff_left fun stack => absurd stack.2 (not_lt.2 full)]

/-- The disk frames of a new environment were free. -/
theorem Created.diskFrame_free {pageWSSize secondListSize : Nat} {pages : List Nat} (vacant : state.Vacant slot)
    (creates : Created layout ram slot program pageWSSize secondListSize pages state next) {page diskFrame : Nat}
    (named : next.diskNames (slot, page) = some diskFrame) : diskFrame ∈ state.diskFreeFrameList := by
  rcases creates.acts.heldDisk diskFrame (.inr ⟨page, named⟩) with free | ⟨other, before⟩
  · exact free
  · rw [KernelState.diskNames, if_pos (vacant.unfiled other)] at before
    cases before

/-- There was room for the segments. -/
theorem Created.footprint_le {pageWSSize secondListSize : Nat} {pages : List Nat}
    (vacant : state.Vacant slot) (sound : ∀ segment ∈ program.segments, segment.Sound)
    (creates : Created layout ram slot program pageWSSize secondListSize pages state next) :
    program.footprint.ncard ≤ state.diskFreeFrameList.length := by
  have placed (page : Nat) (inside : page ∈ program.footprint) : next.leaf .disk slot page ≠ 0 :=
    (creates.filed_iff vacant sound page).2 (.inl inside)
  have named (page : Nat) (inside : page ∈ program.footprint) :
      next.diskNames (slot, page) = some (next.leaf .disk slot page) := if_neg (placed page inside)
  have free (page : Nat) (inside : page ∈ program.footprint) :
      next.leaf .disk slot page ∈ (state.diskFreeFrameList.toFinset : Set Nat) := by
    rw [List.coe_toFinset]
    exact creates.diskFrame_free vacant (named page inside)
  have distinct : Set.InjOn (next.leaf .disk slot) program.footprint := by
    intro page inside other insideOther same
    have both := creates.inv.diskExclusive.injective _ _ _ (named page inside) (same ▸ named other insideOther)
    exact (Prod.mk.inj both).2
  calc program.footprint.ncard
      ≤ (state.diskFreeFrameList.toFinset : Set Nat).ncard :=
        Set.ncard_le_ncard_of_injOn (next.leaf .disk slot) free distinct (Finset.finite_toSet _)
    _ = state.diskFreeFrameList.toFinset.card := Set.ncard_coe_finset _
    _ ≤ state.diskFreeFrameList.length := List.toFinset_card_le _

end Fos.Kernel
