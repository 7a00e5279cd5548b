import Fos.Kernel.EnvFreeProperties
import Fos.Kernel.System

/-! What the scheduler changes: queues, the processor and the status of environments, and nothing
of their memory. -/

set_option autoImplicit false

namespace Fos.Kernel

open Foundation

variable {layout : BootLayout} {ram : Nat → Page} {slot : Nat} {strict tidy : Prop}
  {state next last : KernelState}

/-- Memory and the page file are the same, and so are the environments but for their status. -/
structure Scheduled (state next : KernelState) : Prop where
  status : ∀ slot, next.envs slot = { state.envs slot with envStatus := (next.envs slot).envStatus }
  rest : SameMachine { state with envs := next.envs } next

namespace Scheduled

theorem refl (state : KernelState) : Scheduled state state := ⟨fun _ => rfl, rfl⟩

theorem trans (first : Scheduled state next) (second : Scheduled next last) : Scheduled state last where
  status slot := by
    rw [second.status slot, first.status slot]
  rest := by
    rw [SameMachine, second.rest, first.rest]

/-- An environment gets another status, and is somewhere else. -/
theorem of_status (slot : Nat) (status : EnvStatus)
    (same : SameMachine (state.setEnv slot { state.envs slot with envStatus := status }) next) :
    Scheduled state next where
  status other := by
    rw [same.envs]
    by_cases here : other = slot
    · simp [KernelState.setEnv, here]
    · simp [KernelState.setEnv, here]
  rest := by
    rw [SameMachine, same]
    rfl

theorem of_same (same : SameMachine state next) : Scheduled state next where
  status slot := by rw [same.envs]
  rest := by
    rw [SameMachine, same]

theorem roots (scheduled : Scheduled state next) : SameRoots state next := by
  constructor <;> intro slot <;> rw [scheduled.status slot]

theorem mem (scheduled : Scheduled state next) : next.mem = state.mem := by
  rw [scheduled.rest]

theorem references (scheduled : Scheduled state next) : next.references = state.references := by
  rw [scheduled.rest]

theorem free (scheduled : Scheduled state next) : next.freeFrameList = state.freeFrameList := by
  rw [scheduled.rest]

theorem diskFree (scheduled : Scheduled state next) : next.diskFreeFrameList = state.diskFreeFrameList := by
  rw [scheduled.rest]

theorem size (scheduled : Scheduled state next) : next.numberOfFrames = state.numberOfFrames := by
  rw [scheduled.rest]

theorem directory (scheduled : Scheduled state next) : next.ptrPageDirectory = state.ptrPageDirectory := by
  rw [scheduled.rest]

theorem dirWord (scheduled : Scheduled state next) (side : Side) (slot index : Nat) :
    next.dirWord side slot index = state.dirWord side slot index :=
  dirWord_congr (scheduled.roots.root side slot) fun _ => by rw [scheduled.mem]

theorem leaf (scheduled : Scheduled state next) (side : Side) (slot : Nat) :
    next.leaf side slot = state.leaf side slot :=
  funext fun _ => leaf_congr (scheduled.dirWord side slot _) fun _ => by rw [scheduled.mem]

theorem names (scheduled : Scheduled state next) : next.names = state.names :=
  names_congr scheduled.roots.root scheduled.dirWord fun slot => congrFun (scheduled.leaf .user slot)

theorem diskNames (scheduled : Scheduled state next) : next.diskNames = state.diskNames :=
  diskNames_congr fun slot => congrFun (scheduled.leaf .disk slot)

theorem space (scheduled : Scheduled state next) (slot : Nat) : next.space slot = state.space slot := by
  have stored : next.diskPage = state.diskPage := by
    rw [scheduled.rest]
    rfl
  simp only [KernelState.space, scheduled.leaf, scheduled.mem, stored]

theorem keeps (scheduled : Scheduled state next) (slot : Nat) : Keeps slot [] state [] next :=
  ⟨fun frame => (KernelState.held_congr scheduled.names scheduled.free slot [] frame).2,
    fun diskFrame => (KernelState.heldDisk_congr scheduled.diskNames scheduled.diskFree slot diskFrame).2⟩

theorem inv (scheduled : Scheduled state next) (inv : Inv layout ram state) : Inv layout ram next where
  size := scheduled.size.trans inv.size
  directory := scheduled.directory.trans inv.directory
  kernel := by
    rw [scheduled.mem]
    exact inv.kernel
  words side slot index := by
    rw [scheduled.dirWord]
    exact inv.words side slot index
  upper side slot index := by
    rw [scheduled.mem, scheduled.roots.root]
    exact inv.upper side slot index
  physical slot := by
    rw [scheduled.roots.cr3, scheduled.roots.user]
    exact inv.physical slot
  physicalDisk slot directory := by
    rw [scheduled.roots.disk, scheduled.roots.diskPA]
    exact inv.physicalDisk slot directory
  toLedger := inv.toLedger.congr scheduled.names scheduled.diskNames scheduled.free scheduled.references
    scheduled.diskFree

theorem vacant (scheduled : Scheduled state next) (vacant : state.Vacant slot) : next.Vacant slot := by
  constructor <;> rw [scheduled.status slot]
  · exact vacant.directory
  · exact vacant.disk
  · exact vacant.unused
  · exact vacant.active
  · exact vacant.second

theorem loaded (scheduled : Scheduled state next) (loaded : Loaded strict tidy slot state) :
    Loaded strict tidy slot next where
  live := scheduled.roots.root .user slot ▸ loaded.live
  placed := scheduled.roots.disk slot ▸ loaded.placed
  listed := by
    rw [scheduled.status slot]
    exact ⟨loaded.listed.nodup, loaded.listed.bounded⟩
  resident := by
    rw [scheduled.status slot, scheduled.leaf]
    exact loaded.resident

theorem healthy (scheduled : Scheduled state next) (healthy : Healthy strict tidy slot state) :
    Healthy strict tidy slot next where
  live := scheduled.roots.root .user slot ▸ healthy.live
  placed := scheduled.roots.disk slot ▸ healthy.placed
  lists := by
    rw [scheduled.status slot]
    exact { healthy.lists with }
  resident := by
    rw [scheduled.status slot, scheduled.leaf]
    exact healthy.resident

end Scheduled

/-! ### The queues -/

/-- The environments that run or will. -/
def KernelState.runnable (state : KernelState) : List Nat :=
  state.envNewQueue ++ (state.envReadyQueue ++ state.curenv.toList)

/-- The directory the processor should use. -/
def KernelState.activeCr3 (state : KernelState) : Nat :=
  match state.curenv with
  | none => toPhysicalAddress state.ptrPageDirectory
  | some slot => (state.envs slot).envCr3

/-- A step of the scheduler that takes no environment away and brings none. -/
structure Shuffled (state next : KernelState) : Prop extends Scheduled state next where
  runnable : next.runnable.Perm state.runnable
  freeList : next.envFreeList = state.envFreeList
  exitQueue : next.envExitQueue = state.envExitQueue

/-- The running environment goes to the head of the ready queue. -/
def preempted (state : KernelState) : KernelState :=
  match state.curenv with
  | none => state
  | some current => { state with
      envReadyQueue := current :: state.envReadyQueue
      curenv := none }

theorem preempted_shuffled (state : KernelState) : Shuffled state (preempted state) := by
  unfold preempted
  cases running : state.curenv with
  | none => exact ⟨.refl state, .refl _, rfl, rfl⟩
  | some current =>
      refine ⟨.of_same rfl, ?_, rfl, rfl⟩
      simp only [KernelState.runnable, running, Option.toList_none, Option.toList_some, List.append_nil]
      exact (List.perm_append_singleton current state.envReadyQueue).symm.append_left _

theorem Shuffled.trans (first : Shuffled state next) (second : Shuffled next last) : Shuffled state last :=
  ⟨first.toScheduled.trans second.toScheduled, second.runnable.trans first.runnable,
    second.freeList.trans first.freeList, second.exitQueue.trans first.exitQueue⟩

/-- `fos_scheduler` lets the environment at the end of the ready queue run. -/
theorem fosScheduler_shuffled (state : KernelState) :
    Shuffled state (fosScheduler state) ∧ (fosScheduler state).cr3 = (fosScheduler state).activeCr3 := by
  have before := preempted_shuffled state
  have same : fosScheduler state = fosScheduler (preempted state) := by
    unfold preempted
    cases running : state.curenv with
    | none => rfl
    | some current =>
        simp only [fosScheduler, running]
        rfl
  have idle : (preempted state).curenv = none := by
    unfold preempted
    cases running : state.curenv with
    | none => exact running
    | some current => rfl
  rw [same]
  generalize preempted state = paused at before idle
  cases last : paused.envReadyQueue.getLast? with
  | none =>
      have none : fosScheduler paused =
          { paused with curenv := none, cr3 := toPhysicalAddress paused.ptrPageDirectory } := by
        simp only [fosScheduler, idle, last]
      rw [none]
      refine ⟨before.trans ⟨.of_same rfl, ?_, rfl, rfl⟩, rfl⟩
      simp [KernelState.runnable, idle]
  | some next =>
      have some : fosScheduler paused =
          { paused.setEnv next { paused.envs next with envStatus := .runnable } with
            envReadyQueue := paused.envReadyQueue.dropLast
            curenv := some next
            cr3 := (paused.envs next).envCr3 } := by
        simp only [fosScheduler, idle, last]
      rw [some]
      refine ⟨before.trans ⟨.of_status next .runnable rfl, ?_, rfl, rfl⟩, ?_⟩
      · have split : paused.envReadyQueue.dropLast ++ [next] = paused.envReadyQueue :=
          List.dropLast_append_getLast? next last
        simp [KernelState.runnable, idle, split]
      · simp [KernelState.activeCr3, KernelState.setEnv]

end Fos.Kernel
