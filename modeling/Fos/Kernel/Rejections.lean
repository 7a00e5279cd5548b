import Fos.Foundation.Weakest
import Fos.Kernel.Actions
import Fos.Kernel.Bookkeeping
import Fos.Kernel.System

/-! An access to a page that does not exist is refused by the page fault handler only after it has
changed the lists. -/

set_option autoImplicit false

namespace Fos.Kernel

open Foundation

variable {slot : Nat}

/-- `PageWorkingSetList`, `ActiveList` and `SecondList`. -/
def KernelState.workingSet (slot : Nat) (state : KernelState) : List Nat × List Nat × List Nat :=
  ((state.envs slot).pageWorkingSetList, (state.envs slot).activeList, (state.envs slot).secondList)

/-- The program leaves the lists alone, and does not refuse an access. -/
abbrev KeepsLists {Result : Type} (slot : Nat) (program : KernelM Result) : Prop :=
  Leaves (KernelState.workingSet slot) (· ≠ illegalAccess) program

theorem KeepsBookkeeping.lists {Result : Type} {program : KernelM Result} (keeps : KeepsBookkeeping slot program) :
    KeepsLists slot program :=
  keeps.weaken (fun kept => (kept.unused, kept.active, kept.second)) fun _ ordinary => List.ne_of_not_mem_cons ordinary

/-! ### The branches of the handler -/

/-- When the program refuses an access, the lists are no longer those of `start`. -/
def RefusesLate {Result : Type} (slot : Nat) (start : KernelState) (program : KernelM Result) (state : KernelState) : Prop :=
  wp program (fun _ _ => True) (fun stop next => stop = illegalAccess → next.workingSet slot ≠ start.workingSet slot) state

namespace RefusesLate

variable {Result Other : Type} {start state : KernelState}

theorem bind {program : KernelM Other} {continuation : Other → KernelM Result} (keeps : KeepsBookkeeping slot program)
    (rest : ∀ result next, next.workingSet slot = state.workingSet slot →
      RefusesLate slot start (continuation result) next) :
    RefusesLate slot start (program >>= continuation) state := by
  unfold RefusesLate
  rw [wp_bind]
  apply wp_mono (keeps.lists.from_state state)
  · exact rest
  · exact fun _ _ failed refused => absurd refused failed.2

theorem modifyEnv {change : Env → Env} {continuation : Unit → KernelM Result}
    (rest : RefusesLate slot start (continuation ()) (state.setEnv slot (change (state.envs slot)))) :
    RefusesLate slot start (modifyEnv slot change >>= continuation) state := rest

theorem get {continuation : KernelState → KernelM Result} (rest : RefusesLate slot start (continuation state) state) :
    RefusesLate slot start (MonadState.get >>= continuation) state := rest

/-- The last element of a list is one of its elements. -/
theorem listLast {elements : List Nat} {continuation : Nat → KernelM Result}
    (rest : ∀ element ∈ elements, RefusesLate slot start (continuation element) state) :
    RefusesLate slot start (listLast elements >>= continuation) state := by
  unfold Kernel.listLast
  cases last : elements.getLast? with
  | none => exact fun refused => absurd refused nofun
  | some element => exact rest element (List.mem_of_getLast? last)

/-- The legality check of `bringIn` comes too late when the lists have changed before. -/
theorem bringIn {element faultVa : Nat} (changed : state.workingSet slot ≠ start.workingSet slot) :
    RefusesLate slot start (bringIn slot element faultVa) state := by
  apply bind KeepsEnv.allocateFrame.bookkeeping
  intro frame allocated sameAllocated
  apply get
  apply bind (KeepsEnv.mapFrame _ _ _ _).bookkeeping
  intro _ mapped sameMapped
  apply bind (KeepsEnv.pfReadEnvPage _ _).bookkeeping
  intro answer read sameRead
  split
  · split
    · apply bind (KeepsEnv.pfAddEmptyEnvPage _ _ _).bookkeeping
      intro _ added _
      trivial
    · intro _
      rwa [sameRead, sameMapped, sameAllocated]
  · trivial

end RefusesLate

theorem erase_ne_self {elements : List Nat} {element : Nat} (member : element ∈ elements) :
    elements.erase element ≠ elements := by
  intro same
  have shorter := List.length_erase_of_mem member
  have some := List.length_pos_of_mem member
  rw [same] at shorter
  omega

/-- A used element is gone. -/
theorem changed_of_unused {state start : KernelState} {element : Nat}
    (member : element ∈ (start.envs slot).pageWorkingSetList)
    (taken : (state.workingSet slot).1 = (start.envs slot).pageWorkingSetList.erase element) :
    state.workingSet slot ≠ start.workingSet slot := by
  intro same
  rw [same] at taken
  exact erase_ne_self member taken.symm

/-- An active element is gone. -/
theorem changed_of_active {state start : KernelState} {element : Nat}
    (member : element ∈ (start.envs slot).activeList)
    (taken : (state.workingSet slot).2.1 = (start.envs slot).activeList.erase element) :
    state.workingSet slot ≠ start.workingSet slot := by
  intro same
  rw [same] at taken
  exact erase_ne_self member taken.symm

namespace RefusesLate

variable {start state : KernelState} {faultVa element : Nat}

theorem placeInActive : RefusesLate slot state (placeInActive slot faultVa) state := by
  apply get
  apply listLast
  intro element member
  apply modifyEnv
  apply bind (KeepsBookkeeping.setVirtualAddress _ _ _)
  intro _ next same
  apply bringIn
  apply changed_of_unused member
  rw [same]
  simp [KernelState.workingSet]

theorem secondListHit : RefusesLate slot start (secondListHit slot element) state := by
  apply modifyEnv
  apply get
  apply bind (KeepsEnv.ptSetPagePermissions _ _ _ _).bookkeeping
  intro _ shown _
  apply get
  apply listLast
  intro activeTail _
  apply modifyEnv
  apply get
  apply bind (KeepsEnv.ptSetPagePermissions _ _ _ _).bookkeeping
  intro _ hidden _
  apply modifyEnv
  exact trivial

theorem placeBehindDemotion : RefusesLate slot state (placeBehindDemotion slot faultVa) state := by
  apply get
  apply listLast
  intro activeTail _
  apply modifyEnv
  apply get
  apply bind (KeepsEnv.ptSetPagePermissions _ _ _ _).bookkeeping
  intro _ hidden sameHidden
  apply modifyEnv
  apply get
  apply listLast
  intro element member
  apply modifyEnv
  apply bind (KeepsBookkeeping.setVirtualAddress _ _ _)
  intro _ placed samePlaced
  have unused : (hidden.envs slot).pageWorkingSetList = (state.envs slot).pageWorkingSetList := by
    have unused := congrArg Prod.fst sameHidden
    simpa [KernelState.workingSet] using unused
  apply bringIn
  have inUnused : element ∈ (state.envs slot).pageWorkingSetList := by simpa [unused] using member
  apply changed_of_unused inUnused
  · rw [samePlaced]
    simp [KernelState.workingSet, unused]

theorem replaceActiveTail : RefusesLate slot state (replaceActiveTail slot faultVa) state := by
  apply get
  apply listLast
  intro activeTail member
  apply modifyEnv
  apply get
  apply bind (KeepsEnv.getFrameInfo _ _).bookkeeping
  rintro ⟨frame, table⟩ found sameFound
  apply bind (KeepsEnv.ptGetPagePermissions _ _).bookkeeping
  intro permissions read sameRead
  apply bind (KeepsEnv.writeBackIfModified _ _ _ _).bookkeeping
  intro _ written sameWritten
  apply bind (KeepsEnv.unmapFrame _ _).bookkeeping
  intro _ unmapped sameUnmapped
  apply bind (KeepsBookkeeping.setVirtualAddress _ _ _)
  intro _ placed samePlaced
  apply bringIn
  apply changed_of_active member
  rw [samePlaced, sameUnmapped, sameWritten, sameRead, sameFound]
  simp [KernelState.workingSet]

theorem replaceSecondTail : RefusesLate slot state (replaceSecondTail slot faultVa) state := by
  apply get
  apply listLast
  intro secondTail _
  apply get
  apply bind (KeepsEnv.ptGetPagePermissions _ _).bookkeeping
  intro permissions read sameRead
  apply bind (KeepsEnv.getFrameInfo _ _).bookkeeping
  rintro ⟨frame, table⟩ found sameFound
  apply bind (KeepsEnv.writeBackIfModified _ _ _ _).bookkeeping
  intro _ written sameWritten
  apply bind (KeepsEnv.unmapFrame _ _).bookkeeping
  intro _ unmapped sameUnmapped
  apply modifyEnv
  apply bind (KeepsBookkeeping.setVirtualAddress _ _ _)
  intro _ placed samePlaced
  apply get
  apply listLast
  intro activeTail member
  apply get
  apply bind (KeepsEnv.ptSetPagePermissions _ _ _ _).bookkeeping
  intro _ hidden sameHidden
  apply modifyEnv
  apply modifyEnv
  have active : (placed.envs slot).activeList = (state.envs slot).activeList := by
    have kept := sameUnmapped.trans (sameWritten.trans (sameFound.trans sameRead))
    have active := congrArg (fun lists => lists.2.1) (samePlaced)
    have before := congrArg (fun lists => lists.2.1) kept
    simp only [KernelState.workingSet, KernelState.setEnv_envs, if_true] at active before
    exact active.trans before
  have hiddenActive : (hidden.envs slot).activeList = (state.envs slot).activeList :=
    (congrArg (fun lists => lists.2.1) sameHidden).trans active
  apply bringIn
  have inActive : activeTail ∈ (state.envs slot).activeList := active ▸ member
  apply changed_of_active inActive
  · simp [KernelState.workingSet, hiddenActive]

theorem pageFaultHandler : RefusesLate slot state (pageFaultHandler slot faultVa) state := by
  apply get
  dsimp only
  split
  · split
    · exact placeInActive
    · split
      · exact secondListHit
      · exact placeBehindDemotion
  · split
    · exact secondListHit
    · split
      · exact replaceActiveTail
      · exact replaceSecondTail

end RefusesLate

/-! ### A refused access is not undone -/

/-- The lists of an environment, its page table and what its resident pages hold, and the free
frames. -/
structure Untouched (slot : Nat) (state next : KernelState) : Prop where
  workingSet : next.workingSet slot = state.workingSet slot
  tables : ∀ index, next.dirWord .user slot index = state.dirWord .user slot index
  entries : ∀ page, next.leaf .user slot page = state.leaf .user slot page
  freeFrameList : next.freeFrameList = state.freeFrameList
  pages : ∀ page, state.leaf .user slot page ≠ 0 →
    next.mem (frameOf (state.leaf .user slot page)) = state.mem (frameOf (state.leaf .user slot page))

/-- The handler refuses the access and leaves the environment intact. -/
def RefusedIntact (slot faultVa : Nat) (state : KernelState) : Prop :=
  ∃ next, pageFaultHandler slot faultVa state = .error illegalAccess next ∧ Untouched slot state next

/-- Whenever an access is refused, an element of a list is already gone. -/
theorem not_refusedIntact (slot faultVa : Nat) (state : KernelState) : ¬ RefusedIntact slot faultVa state := by
  rintro ⟨next, refused, untouched⟩
  have late : RefusesLate slot state (pageFaultHandler slot faultVa) state := RefusesLate.pageFaultHandler
  rw [RefusesLate, wp_of_error refused] at late
  exact late rfl untouched.workingSet

private def refusal : EStateM.Result Stop KernelState Unit → Option KernelState
  | .error stop next => if stop = illegalAccess then some next else none
  | .ok _ _ => none

private theorem exists_refusal {result : EStateM.Result Stop KernelState Unit} {good : KernelState → Prop}
    (found : ∃ next ∈ refusal result, good next) : ∃ next, result = .error illegalAccess next ∧ good next := by
  obtain ⟨next, member, holds⟩ := found
  unfold refusal at member
  split at member
  · split at member
    · next stop next' same =>
        cases member
        exact ⟨next, same ▸ rfl, holds⟩
    · cases member
  · cases member

private theorem exists_booted (events : List Event) (good : KernelState → Prop)
    (ran : ∃ last ∈ (kernel .small).run (BootLayout.small.boot (fun _ => Page.zero) fun _ => Page.zero) events, good last) :
    ∃ last, (kernel .small).Reaches (fun _ _ => True) last ∧ good last :=
  System.Reaches.exists_of_run ⟨_, _, rfl⟩ (fun _ _ _ => trivial) ran

/-- A program with one page touches another page of the same table: it is refused, and an element
and a frame are lost. -/
theorem refused_lossy : ∃ state, (kernel .small).Reaches (fun _ _ => True) state ∧ state.curenv = some 0 ∧
    0x900000 < ustackBottom ∧ state.leaf .disk 0 (pageOf 0x900000) = 0 ∧
    state.userTranslate (state.envs 0).envPageDirectory 0x900000 .read = none ∧
    (state.envs 0).pageWorkingSetList = [4, 3, 2] ∧ ¬ RefusedIntact 0 0x900000 state ∧
    ∃ next, pageFaultHandler 0 0x900000 state = .error illegalAccess next ∧
      (next.envs 0).pageWorkingSetList = [4, 3] ∧ next.freeFrameList.length + 1 = state.freeFrameList.length := by
  obtain ⟨state, reached, current, unplaced, faults, unused, refused⟩ := exists_booted
    [.create ⟨"touch", fun _ => 0, [⟨0, 16, 16, 0x800000⟩]⟩ 5 0, .start 0, .schedule]
    (fun state => state.curenv = some 0 ∧ state.leaf .disk 0 (pageOf 0x900000) = 0 ∧
      state.userTranslate (state.envs 0).envPageDirectory 0x900000 .read = none ∧
      (state.envs 0).pageWorkingSetList = [4, 3, 2] ∧ ∃ next ∈ refusal (pageFaultHandler 0 0x900000 state),
        (next.envs 0).pageWorkingSetList = [4, 3] ∧
          next.freeFrameList.length + 1 = state.freeFrameList.length) (by decide +kernel)
  obtain ⟨next, panics, taken, lost⟩ := exists_refusal refused
  refine ⟨state, reached, current, by decide, unplaced, faults, unused, ?_, next, panics, taken, lost⟩
  rintro ⟨other, same, untouched⟩
  rw [panics] at same
  cases same
  have kept := congrArg Prod.fst untouched.workingSet
  simp [KernelState.workingSet, taken, unused] at kept

end Fos.Kernel
