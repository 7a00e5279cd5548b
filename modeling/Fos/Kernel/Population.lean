import Fos.Kernel.AllocationProperties
import Fos.Kernel.CreationProperties
import Fos.Kernel.Scheduling

/-! The environments of the kernel: free slots, environments that can run and environments that
have exited, and how each keeps what it is while the kernel works for another. -/

set_option autoImplicit false

namespace Fos.Kernel

open Foundation

variable {layout : BootLayout} {ram : Nat → Page} {slot other : Nat} {strict tidy : Prop}
  {state next : KernelState}

/-! ### What one environment is to the others -/

theorem Acts.vacant_other (acts : Acts slot [] state [] next) (different : other ≠ slot)
    (vacant : state.Vacant other) : next.Vacant other := by
  constructor <;> rw [acts.envs other different]
  · exact vacant.directory
  · exact vacant.disk
  · exact vacant.unused
  · exact vacant.active
  · exact vacant.second

theorem Acts.leaf_user_other (acts : Acts slot [] state [] next) (ledger : Ledger layout state)
    (different : other ≠ slot) : next.leaf .user other = state.leaf .user other :=
  funext fun page => acts.leaf_other ledger (List.forall_mem_nil _) different .user page

theorem Acts.loaded_other (acts : Acts slot [] state [] next) (ledger : Ledger layout state)
    (different : other ≠ slot) (loaded : Loaded strict tidy other state) : Loaded strict tidy other next where
  live := (acts.root_other different .user).symm ▸ loaded.live
  placed := (acts.envs other different).symm ▸ loaded.placed
  listed := (acts.envs other different).symm ▸ loaded.listed
  resident := by
    rw [acts.leaf_user_other ledger different, acts.envs other different]
    exact loaded.resident

theorem Acts.healthy_other (acts : Acts slot [] state [] next) (ledger : Ledger layout state)
    (different : other ≠ slot) (healthy : Healthy strict tidy other state) : Healthy strict tidy other next where
  live := (acts.root_other different .user).symm ▸ healthy.live
  placed := (acts.envs other different).symm ▸ healthy.placed
  lists := (acts.envs other different).symm ▸ healthy.lists
  resident := by
    rw [acts.leaf_user_other ledger different, acts.envs other different]
    exact healthy.resident

theorem Loaded.weaken {strict' tidy' : Prop} (loaded : Loaded strict tidy slot state)
    (fromStrict : strict' → strict) (fromTidy : tidy' → tidy) : Loaded strict' tidy' slot state :=
  { loaded with resident := loaded.resident.weaken fromStrict fromTidy }

theorem Healthy.weaken {strict' tidy' : Prop} (healthy : Healthy strict tidy slot state)
    (fromStrict : strict' → strict) (fromTidy : tidy' → tidy) : Healthy strict' tidy' slot state :=
  { healthy with resident := healthy.resident.weaken fromStrict fromTidy }

/-! ### All slots -/

/-- The slots of three kinds, each in the state its kind says. -/
structure Housed (layout : BootLayout) (ram : Nat → Page) (strict tidy : Prop) (free runnable exited : List Nat)
    (state : KernelState) : Prop where
  inv : Inv layout ram state
  distinct : (free ++ (runnable ++ exited)).Nodup
  vacant : ∀ slot ∈ free, state.Vacant slot
  healthy : ∀ slot ∈ runnable, Healthy strict tidy slot state
  loaded : ∀ slot ∈ exited, Loaded False tidy slot state

namespace Housed

variable {free runnable exited free' runnable' exited' : List Nat}

theorem perm (housed : Housed layout ram strict tidy free runnable exited state) (sameFree : free'.Perm free)
    (sameRunnable : runnable'.Perm runnable) (sameExited : exited'.Perm exited) :
    Housed layout ram strict tidy free' runnable' exited' state where
  inv := housed.inv
  distinct := (sameFree.append (sameRunnable.append sameExited)).nodup_iff.2 housed.distinct
  vacant slot member := housed.vacant slot (sameFree.mem_iff.1 member)
  healthy slot member := housed.healthy slot (sameRunnable.mem_iff.1 member)
  loaded slot member := housed.loaded slot (sameExited.mem_iff.1 member)

/-- The kernel works for a slot that is of no kind at the moment. -/
theorem acts (housed : Housed layout ram strict tidy free runnable exited state)
    (outside : slot ∉ free ++ (runnable ++ exited)) (acts : Acts slot [] state [] next)
    (inv : Inv layout ram next) : Housed layout ram strict tidy free runnable exited next where
  inv := inv
  distinct := housed.distinct
  vacant other member :=
    acts.vacant_other (fun same => outside (same ▸ List.mem_append_left _ member)) (housed.vacant other member)
  healthy other member :=
    acts.healthy_other housed.inv.toLedger
      (fun same => outside (same ▸ List.mem_append_right _ (List.mem_append_left _ member)))
      (housed.healthy other member)
  loaded other member :=
    acts.loaded_other housed.inv.toLedger
      (fun same => outside (same ▸ List.mem_append_right _ (List.mem_append_right _ member)))
      (housed.loaded other member)

theorem scheduled (housed : Housed layout ram strict tidy free runnable exited state)
    (scheduled : Scheduled state next) : Housed layout ram strict tidy free runnable exited next where
  inv := scheduled.inv housed.inv
  distinct := housed.distinct
  vacant other member := scheduled.vacant (housed.vacant other member)
  healthy other member := scheduled.healthy (housed.healthy other member)
  loaded other member := scheduled.loaded (housed.loaded other member)

/-- Without one of the slots. -/
theorem filter (housed : Housed layout ram strict tidy free runnable exited state) (slot : Nat) :
    Housed layout ram strict tidy free (runnable.filter (· != slot)) (exited.filter (· != slot)) state where
  inv := housed.inv
  distinct := housed.distinct.sublist
    ((List.Sublist.refl free).append (List.filter_sublist.append List.filter_sublist))
  vacant := housed.vacant
  healthy other member := housed.healthy other (List.mem_filter.1 member).1
  loaded other member := housed.loaded other (List.mem_filter.1 member).1

/-! #### Leaving a kind -/

theorem dropFree (housed : Housed layout ram strict tidy (slot :: free) runnable exited state) :
    Housed layout ram strict tidy free runnable exited state ∧ slot ∉ free ++ (runnable ++ exited) := by
  obtain ⟨outside, distinct⟩ := List.nodup_cons.1 housed.distinct
  exact ⟨{ housed with
    distinct := distinct
    vacant := fun other member => housed.vacant other (List.mem_cons_of_mem _ member) }, outside⟩

theorem dropRunnable (housed : Housed layout ram strict tidy free (slot :: runnable) exited state) :
    Housed layout ram strict tidy free runnable exited state ∧ slot ∉ free ++ (runnable ++ exited) := by
  obtain ⟨outside, distinct⟩ := List.nodup_middle.1 housed.distinct |> List.nodup_cons.1
  exact ⟨{ housed with
    distinct := distinct
    healthy := fun other member => housed.healthy other (List.mem_cons_of_mem _ member) }, outside⟩

/-! #### Joining a kind -/

theorem addFree (housed : Housed layout ram strict tidy free runnable exited state)
    (outside : slot ∉ free ++ (runnable ++ exited)) (vacant : state.Vacant slot) :
    Housed layout ram strict tidy (slot :: free) runnable exited state :=
  { housed with
    distinct := List.nodup_cons.2 ⟨outside, housed.distinct⟩
    vacant := List.forall_mem_cons.2 ⟨vacant, housed.vacant⟩ }

theorem addRunnable (housed : Housed layout ram strict tidy free runnable exited state)
    (outside : slot ∉ free ++ (runnable ++ exited)) (healthy : Healthy strict tidy slot state) :
    Housed layout ram strict tidy free (slot :: runnable) exited state :=
  { housed with
    distinct := List.nodup_middle.2 (List.nodup_cons.2 ⟨outside, housed.distinct⟩)
    healthy := List.forall_mem_cons.2 ⟨healthy, housed.healthy⟩ }

theorem addExited (housed : Housed layout ram strict tidy free runnable exited state)
    (outside : slot ∉ free ++ (runnable ++ exited)) (loaded : Loaded False tidy slot state) :
    Housed layout ram strict tidy free runnable (slot :: exited) state :=
  { housed with
    distinct := by
      rw [← List.append_assoc, List.nodup_middle, List.append_assoc]
      exact List.nodup_cons.2 ⟨outside, housed.distinct⟩
    loaded := List.forall_mem_cons.2 ⟨loaded, housed.loaded⟩ }

end Housed

/-- What every state of the kernel between two events is. -/
structure Population (layout : BootLayout) (ram : Nat → Page) (strict tidy : Prop) (state : KernelState) : Prop
    extends Housed layout ram strict tidy state.envFreeList state.runnable state.envExitQueue state where
  active : state.cr3 = state.activeCr3

namespace Population

/-- The scheduler chooses who runs next. -/
theorem of_fosScheduler (housed : Housed layout ram strict tidy state.envFreeList state.runnable
    state.envExitQueue state) : Population layout ram strict tidy (fosScheduler state) := by
  obtain ⟨shuffled, active⟩ := fosScheduler_shuffled state
  refine ⟨?_, active⟩
  rw [shuffled.freeList, shuffled.exitQueue]
  exact (housed.scheduled shuffled.toScheduled).perm (.refl _) shuffled.runnable (.refl _)

theorem running (population : Population layout ram strict tidy state) (curenv : state.curenv = some slot) :
    slot ∈ state.runnable ∧ Running layout ram slot state ∧ Healthy strict tidy slot state := by
  have member : slot ∈ state.runnable := by simp [KernelState.runnable, curenv]
  have healthy := population.healthy slot member
  have active := population.active
  rw [KernelState.activeCr3, curenv] at active
  exact ⟨member, ⟨population.inv, curenv, active.trans (population.inv.physical slot), healthy.live,
    healthy.placed⟩, healthy⟩

/-- The slots without the running environment. -/
theorem apart (population : Population layout ram strict tidy state) (curenv : state.curenv = some slot) :
    Housed layout ram strict tidy state.envFreeList (state.envNewQueue ++ state.envReadyQueue) state.envExitQueue state ∧
      slot ∉ state.envFreeList ++ ((state.envNewQueue ++ state.envReadyQueue) ++ state.envExitQueue) := by
  have perm : (slot :: (state.envNewQueue ++ state.envReadyQueue)).Perm state.runnable := by
    rw [KernelState.runnable, curenv, Option.toList_some, ← List.append_assoc]
    exact (List.perm_append_singleton ..).symm
  exact (population.toHoused.perm (.refl _) perm (.refl _)).dropRunnable

/-- The kernel worked for the running environment, which goes on. -/
theorem ran (population : Population layout ram strict tidy state) (acts : Acts slot [] state [] next)
    (running : Running layout ram slot next) (healthy : Healthy strict tidy slot next) :
    Population layout ram strict tidy next := by
  have quiet := acts.quiet
  have curenv : state.curenv = some slot := quiet.curenv.symm.trans running.curenv
  obtain ⟨housed, outside⟩ := population.apart curenv
  have perm : next.runnable.Perm (slot :: (state.envNewQueue ++ state.envReadyQueue)) := by
    rw [KernelState.runnable, running.curenv, quiet.newQueue, quiet.readyQueue, Option.toList_some, ← List.append_assoc]
    exact List.perm_append_singleton ..
  refine ⟨?_, ?_⟩
  · rw [quiet.freeList, quiet.exitQueue]
    exact ((housed.acts outside acts running.inv).addRunnable outside healthy).perm (.refl _) perm (.refl _)
  · rw [KernelState.activeCr3, running.curenv]
    exact running.active.trans (running.inv.physical slot).symm

/-- The running environment exits. -/
theorem of_envExit
    (housed : Housed layout ram strict tidy state.envFreeList (state.envNewQueue ++ state.envReadyQueue)
      state.envExitQueue state)
    (outside : slot ∉ state.envFreeList ++ ((state.envNewQueue ++ state.envReadyQueue) ++ state.envExitQueue))
    (loaded : Loaded False tidy slot state) : Population layout ram strict tidy (envExit slot state) := by
  apply of_fosScheduler
  have scheduled : Scheduled state { state.setEnv slot { state.envs slot with envStatus := .exit } with
      envExitQueue := slot :: state.envExitQueue
      curenv := none } := .of_status slot .exit rfl
  have perm : (state.envNewQueue ++ (state.envReadyQueue ++ (none : Option Nat).toList)).Perm
      (state.envNewQueue ++ state.envReadyQueue) := by
    rw [Option.toList_none, List.append_nil]
  exact ((housed.addExited outside loaded).scheduled scheduled).perm (.refl _) perm (.refl _)

/-- The kernel panicked while it worked for the running environment. -/
theorem stopped (population : Population layout ram strict tidy state) (curenv : state.curenv = some slot)
    (acts : Acts slot [] state [] next) (inv : Inv layout ram next) (loaded : Loaded False tidy slot next) :
    Population layout ram strict tidy (afterPanic next) := by
  have quiet := acts.quiet
  have curenvNext : next.curenv = some slot := quiet.curenv.trans curenv
  obtain ⟨housed, outside⟩ := population.apart curenv
  have housedNext := housed.acts outside acts inv
  rw [← quiet.freeList, ← quiet.newQueue, ← quiet.readyQueue, ← quiet.exitQueue] at housedNext outside
  rw [afterPanic, curenvNext]
  exact of_envExit housedNext outside loaded

/-- The directory of the running environment stays where it is. -/
theorem activeCr3_congr (curenv : next.curenv = state.curenv) (directory : next.ptrPageDirectory = state.ptrPageDirectory)
    (same : ∀ current, state.curenv = some current → (next.envs current).envCr3 = (state.envs current).envCr3) :
    next.activeCr3 = state.activeCr3 := by
  rw [KernelState.activeCr3, KernelState.activeCr3, curenv, directory]
  cases running : state.curenv with
  | none => rfl
  | some current => exact same current running

/-! ### Arrivals -/

/-- A free slot is on no queue. -/
theorem free_apart (population : Population layout ram strict tidy state) (free : slot ∈ state.envFreeList) :
    Housed layout ram strict tidy (state.envFreeList.erase slot) state.runnable state.envExitQueue state ∧
      slot ∉ state.envFreeList.erase slot ++ (state.runnable ++ state.envExitQueue) :=
  (population.toHoused.perm (List.perm_cons_erase free).symm (.refl _) (.refl _)).dropFree

theorem ne_running (population : Population layout ram strict tidy state) (free : slot ∈ state.envFreeList) {current : Nat}
    (curenv : state.curenv = some current) : current ≠ slot := by
  rintro rfl
  obtain ⟨-, outside⟩ := population.free_apart free
  have member := (population.running curenv).1
  exact outside (List.mem_append_right _ (List.mem_append_left _ member))

/-- A new environment goes to the new queue. -/
theorem arrived (population : Population layout ram strict tidy state) (free : slot ∈ state.envFreeList)
    (acts : Acts slot [] state [] (next.setEnvFreeList state.envFreeList)) (inv : Inv layout ram next)
    (freeList : next.envFreeList = state.envFreeList.erase slot) (healthy : Healthy strict tidy slot next) :
    Population layout ram strict tidy (schedInsertNew slot next) := by
  obtain ⟨housed, outside⟩ := population.free_apart free
  have quiet := acts.quiet
  have machine : SameMachine (next.setEnvFreeList state.envFreeList) next := rfl
  have back : SameMachine next (next.setEnvFreeList state.envFreeList) := rfl
  have scheduled : Scheduled next (schedInsertNew slot next) := .of_status slot .new rfl
  have there := (housed.acts outside acts (back.inv inv)).scheduled (.of_same machine)
  have runnable : (schedInsertNew slot next).runnable = slot :: state.runnable := by
    have newQueue : next.envNewQueue = state.envNewQueue := quiet.newQueue
    have readyQueue : next.envReadyQueue = state.envReadyQueue := quiet.readyQueue
    have curenv : next.curenv = state.curenv := quiet.curenv
    simp only [KernelState.runnable, schedInsertNew, KernelState.setEnv, newQueue, readyQueue, curenv, List.cons_append]
  have exitQueue : (schedInsertNew slot next).envExitQueue = state.envExitQueue := quiet.exitQueue
  have freeQueue : (schedInsertNew slot next).envFreeList = state.envFreeList.erase slot := freeList
  refine ⟨?_, ?_⟩
  · rw [runnable, exitQueue, freeQueue]
    exact (there.addRunnable outside healthy).scheduled scheduled
  · have cr3 : (schedInsertNew slot next).cr3 = state.cr3 := quiet.cr3
    have curenv : (schedInsertNew slot next).curenv = state.curenv := quiet.curenv
    have same : (schedInsertNew slot next).activeCr3 = state.activeCr3 := by
      apply activeCr3_congr curenv quiet.directory
      intro current curenv
      have different := population.ne_running free curenv
      have kept : (schedInsertNew slot next).envs current = state.envs current :=
        (if_neg different).trans (acts.envs current different)
      rw [kept]
    rw [cr3, population.active, same]

/-- The kernel panicked while it made an environment: its slot is free again or lost. -/
theorem abandoned (population : Population layout ram strict tidy state) (free : slot ∈ state.envFreeList)
    (abandoned : Abandoned layout ram slot state next) :
    Population layout ram strict tidy (afterPanic next) := by
  obtain ⟨inv, acts, freeList⟩ := abandoned
  obtain ⟨housed, outside⟩ := population.free_apart free
  have quiet := acts.quiet
  have back : SameMachine next ((next.setEnvFreeList state.envFreeList).setCr3 state.cr3) := rfl
  have machine : SameMachine ((next.setEnvFreeList state.envFreeList).setCr3 state.cr3) next := rfl
  have there := (housed.acts outside acts (back.inv inv)).scheduled (.of_same machine)
  have newQueue : next.envNewQueue = state.envNewQueue := quiet.newQueue
  have readyQueue : next.envReadyQueue = state.envReadyQueue := quiet.readyQueue
  have exitQueue : next.envExitQueue = state.envExitQueue := quiet.exitQueue
  have curenv : next.curenv = state.curenv := quiet.curenv
  have runnable : next.runnable = state.runnable := by
    simp only [KernelState.runnable, newQueue, readyQueue, curenv]
  have freed : Housed layout ram strict tidy next.envFreeList next.runnable next.envExitQueue next := by
    rw [runnable, exitQueue]
    rcases freeList with ⟨same, vacant⟩ | erased
    · rw [same]
      exact (there.addFree outside vacant).perm (List.perm_cons_erase free) (.refl _) (.refl _)
    · rw [erased]
      exact there
  unfold afterPanic
  cases running : next.curenv with
  | none => exact of_fosScheduler freed
  | some current =>
      have perm : (current :: (next.envNewQueue ++ next.envReadyQueue)).Perm next.runnable := by
        rw [KernelState.runnable, running, Option.toList_some, ← List.append_assoc]
        exact (List.perm_append_singleton ..).symm
      have split := freed.perm (.refl _) perm (.refl _)
      have healthy := split.healthy current (List.mem_cons_self ..)
      obtain ⟨others, apart⟩ := split.dropRunnable
      exact of_envExit others apart (healthy.loaded.weaken False.elim id)

/-! ### Departures -/

/-- An environment is taken out of its queue. -/
theorem removed (population : Population layout ram strict tidy state)
    (queued : slot ∈ state.envNewQueue ∨ slot ∈ state.envReadyQueue ∨ slot ∈ state.envExitQueue) :
    Housed layout ram strict tidy state.envFreeList (schedRemove slot state).runnable
        (schedRemove slot state).envExitQueue (schedRemove slot state) ∧
      slot ∉ state.envFreeList ++ ((schedRemove slot state).runnable ++ (schedRemove slot state).envExitQueue) ∧
      Loaded False tidy slot (schedRemove slot state) ∧ state.curenv ≠ some slot := by
  have scheduled : Scheduled state (schedRemove slot state) := .of_status slot .unknown rfl
  obtain ⟨-, restDistinct, freeApart⟩ := List.nodup_append.1 population.distinct
  obtain ⟨runnableDistinct, exitDistinct, exitApart⟩ := List.nodup_append.1 restDistinct
  obtain ⟨newDistinct, liveDistinct, newApart⟩ := List.nodup_append.1 runnableDistinct
  obtain ⟨readyDistinct, -, readyApart⟩ := List.nodup_append.1 liveDistinct
  have idle : slot ∉ state.curenv.toList := by
    intro running
    have live : slot ∈ state.envReadyQueue ++ state.curenv.toList := List.mem_append_right _ running
    rcases queued with isNew | isReady | hasExited
    · exact newApart slot isNew slot live rfl
    · exact readyApart slot isReady slot running rfl
    · exact exitApart slot (List.mem_append_right _ live) slot hasExited rfl
  have member : slot ∈ state.runnable ∨ slot ∈ state.envExitQueue := by
    rcases queued with isNew | isReady | hasExited
    · exact .inl (List.mem_append_left _ isNew)
    · exact .inl (List.mem_append_right _ (List.mem_append_left _ isReady))
    · exact .inr hasExited
  have runnable : (schedRemove slot state).runnable = state.runnable.filter (· != slot) := by
    have running : state.curenv.toList.filter (· != slot) = state.curenv.toList :=
      List.filter_eq_self.2 fun other here => bne_iff_ne.2 fun same => idle (same ▸ here)
    simp only [KernelState.runnable, schedRemove, KernelState.setEnv, List.filter_append, running,
      newDistinct.erase_eq_filter, readyDistinct.erase_eq_filter]
  have exitQueue : (schedRemove slot state).envExitQueue = state.envExitQueue.filter (· != slot) :=
    exitDistinct.erase_eq_filter slot
  rw [runnable, exitQueue]
  refine ⟨?_, ?_, ?_, ?_⟩
  · have kept := population.toHoused.filter slot
    exact kept.scheduled scheduled
  · simp only [List.mem_append, List.mem_filter, bne_self_eq_false, Bool.false_eq_true, and_false, or_false]
    intro free
    rcases member with isRunnable | hasExited
    · exact freeApart slot free slot (List.mem_append_left _ isRunnable) rfl
    · exact freeApart slot free slot (List.mem_append_right _ hasExited) rfl
  · apply scheduled.loaded
    rcases member with isRunnable | hasExited
    · exact (population.healthy slot isRunnable).loaded.weaken False.elim id
    · exact population.loaded slot hasExited
  · intro running
    exact idle (by simp [running])

/-- An environment was freed. -/
theorem departed (population : Population layout ram strict tidy state)
    (queued : slot ∈ state.envNewQueue ∨ slot ∈ state.envReadyQueue ∨ slot ∈ state.envExitQueue)
    (freed : Freed layout ram tidy slot (schedRemove slot state) next) :
    Population layout ram strict tidy next := by
  obtain ⟨housed, outside, -, idle⟩ := population.removed queued
  obtain ⟨inv, acts, freeList, cleared, -⟩ := freed
  have quiet := acts.quiet
  have back : SameMachine next (next.setEnvFreeList (schedRemove slot state).envFreeList) := rfl
  have machine : SameMachine (next.setEnvFreeList (schedRemove slot state).envFreeList) next := rfl
  have there := (housed.acts outside acts (back.inv inv)).scheduled (.of_same machine)
  have newQueue : next.envNewQueue = (schedRemove slot state).envNewQueue := quiet.newQueue
  have readyQueue : next.envReadyQueue = (schedRemove slot state).envReadyQueue := quiet.readyQueue
  have exitQueue : next.envExitQueue = (schedRemove slot state).envExitQueue := quiet.exitQueue
  have curenv : next.curenv = (schedRemove slot state).curenv := quiet.curenv
  have runnable : next.runnable = (schedRemove slot state).runnable := by
    simp only [KernelState.runnable, newQueue, readyQueue, curenv]
  have vacant : next.Vacant slot := by
    constructor <;> rw [cleared] <;> rfl
  refine ⟨?_, ?_⟩
  · rw [freeList, runnable, exitQueue]
    exact there.addFree outside vacant
  · have cr3 : next.cr3 = state.cr3 := quiet.cr3
    have idleCurenv : next.curenv = state.curenv := quiet.curenv
    have same : next.activeCr3 = state.activeCr3 := by
      apply activeCr3_congr idleCurenv quiet.directory
      intro current running
      have different : current ≠ slot := fun here => idle (here ▸ running)
      have kept : next.envs current = state.envs current :=
        (acts.envs current different).trans (if_neg different)
      rw [kept]
    rw [cr3, population.active, same]

end Population

end Fos.Kernel
