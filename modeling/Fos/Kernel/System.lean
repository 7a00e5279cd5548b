import Fos.Foundation.Runs
import Fos.Kernel.Boot

/-! The kernel as a system: what environments and the command prompt can make it do. -/

set_option autoImplicit false

namespace Fos.Kernel

/-! ### Scheduling -/

/-- `fos_scheduler` with the round-robin method. The running environment, if any, goes to
the ready queue, and the environment at its end runs next. -/
def fosScheduler (state : KernelState) : KernelState :=
  let state := match state.curenv with
    | none => state
    | some current => { state with envReadyQueue := current :: state.envReadyQueue }
  match state.envReadyQueue.getLast? with
  | none => { state with curenv := none, cr3 := toPhysicalAddress state.ptrPageDirectory }
  | some next =>
      { state.setEnv next { state.envs next with envStatus := .runnable } with
        envReadyQueue := state.envReadyQueue.dropLast
        curenv := some next
        cr3 := (state.envs next).envCr3 }

def schedInsertNew (slot : Nat) (state : KernelState) : KernelState :=
  { state.setEnv slot { state.envs slot with envStatus := .new } with
    envNewQueue := slot :: state.envNewQueue }

/-- `sched_remove_new`, then `sched_insert_ready`. -/
def schedStart (slot : Nat) (state : KernelState) : KernelState :=
  { state.setEnv slot { state.envs slot with envStatus := .ready } with
    envNewQueue := state.envNewQueue.erase slot
    envReadyQueue := slot :: state.envReadyQueue }

/-- `env_exit` of the running environment. -/
def envExit (current : Nat) (state : KernelState) : KernelState :=
  fosScheduler { state.setEnv current { state.envs current with envStatus := .exit } with
    envExitQueue := current :: state.envExitQueue
    curenv := none }

/-- Taking an environment that is not running out of its queue, before it is freed. -/
def schedRemove (slot : Nat) (state : KernelState) : KernelState :=
  { state.setEnv slot { state.envs slot with envStatus := .unknown } with
    envNewQueue := state.envNewQueue.erase slot
    envReadyQueue := state.envReadyQueue.erase slot
    envExitQueue := state.envExitQueue.erase slot }

/-- `_panic`: the running environment exits. -/
def afterPanic (state : KernelState) : KernelState :=
  match state.curenv with
  | some current => envExit current state
  | none => fosScheduler state

/-! ### Events -/

/-- The access a user instruction makes to a byte. -/
inductive Access where
  | read
  | write (value : Nat)

/-- What the kernel is entered for. The arguments of system calls are 32-bit words. -/
inductive Event where
  /-- `env_create` and `sched_new_env`, from the prompt or `sys_create_env`. -/
  | create (program : UserProgram) (pageWSSize secondListSize : Nat)
  /-- An environment of the new queue becomes ready. -/
  | start (slot : Nat)
  /-- A clock interrupt, or the prompt starting the scheduler. -/
  | schedule
  /-- An instruction of the running environment that faults. -/
  | fault (address : Nat) (access : Access)
  /-- An access of the running environment that does not fault. -/
  | access (address : Nat) (access : Access)
  | allocateMem (address size : Nat)
  | freeMem (address size : Nat)
  | allocatePage (address perm : Nat)
  /-- The running environment exits. -/
  | exit
  /-- An environment that is not running is freed. -/
  | kill (slot : Nat)

/-- The frame a user access reaches: both entries are present and allow it. -/
def KernelState.userTranslate (state : KernelState) (directory address : Nat)
    (access : Access) : Option Nat :=
  let needed := match access with
    | .read => permPresent ||| permUser
    | .write _ => permPresent ||| permUser ||| permWriteable
  let table := state.mem directory (pdx address)
  if hasPerm table needed then
    let entry := state.mem (frameOf table) (ptx address)
    if hasPerm entry needed then some (frameOf entry) else none
  else
    none

/-- A word with one of its bytes replaced. -/
def setByte (word position value : Nat) : Nat :=
  word - word / 256 ^ position % 256 * 256 ^ position + value % 256 * 256 ^ position

/-- A user access that is translated; a write sets the modified bit. -/
def userAccess (directory address : Nat) (access : Access) (state : KernelState) :
    Option KernelState :=
  match state.userTranslate directory address access, access with
  | none, _ => none
  | some _, .read => some state
  | some frame, .write value =>
      let table := frameOf (state.mem directory (pdx address))
      let state := state.writeWord table (ptx address)
        (state.mem table (ptx address) ||| permModified)
      let offset := address % pageSize
      some (state.writeWord frame (offset / 4)
        (setByte (state.mem frame (offset / 4)) (offset % 4) value))

/-- What comes back from kernel code that was entered: a panic ends in the scheduler. -/
def settle {Result : Type} : EStateM.Result Stop KernelState Result → Option KernelState
  | .ok _ state => some state
  | .error (.panic _) state => some (afterPanic state)
  | .error (.undefined _) _ => none

def createAndSchedule (program : UserProgram) (pageWSSize secondListSize : Nat) :
    KernelM Unit := do
  match ← envCreate (some program) pageWSSize secondListSize with
  | none => return ()
  | some slot => modify (schedInsertNew slot)

def exec (state : KernelState) : Event → Option KernelState
  | .create program pageWSSize secondListSize =>
      settle (createAndSchedule program pageWSSize secondListSize state)
  | .start slot => if slot ∈ state.envNewQueue then some (schedStart slot state) else none
  | .schedule => some (fosScheduler state)
  | .fault address access =>
      match state.curenv with
      | none => none
      | some current =>
          if address < wordSize ∧ state.userTranslate (state.envs current).envPageDirectory
              address access = none then
            settle (faultHandler address state)
          else none
  | .access address access =>
      match state.curenv with
      | none => none
      | some current =>
          if address < wordSize then
            userAccess (state.envs current).envPageDirectory address access state
          else none
  | .allocateMem address size =>
      match state.curenv with
      | none => none
      | some current =>
          if address < wordSize ∧ size < wordSize then
            settle (allocateMem current address size state)
          else none
  | .freeMem address size =>
      match state.curenv with
      | none => none
      | some current =>
          if address < wordSize ∧ size < wordSize then
            settle (freeMem current address size state)
          else none
  | .allocatePage address perm =>
      match state.curenv with
      | none => none
      | some current =>
          if address < wordSize ∧ perm < wordSize then
            settle (sysAllocatePage current address perm state)
          else none
  | .exit =>
      match state.curenv with
      | none => none
      | some current => some (envExit current state)
  | .kill slot =>
      if slot ∈ state.envNewQueue ∨ slot ∈ state.envReadyQueue ∨ slot ∈ state.envExitQueue then
        settle (envFree slot (schedRemove slot state))
      else none

/-- The kernel, booted on a machine. -/
def kernel (layout : BootLayout) : Foundation.System KernelState Event where
  start := fun state => ∃ ram disk, state = layout.boot ram disk
  exec := exec

/-- The kernel, booted on one machine. -/
def bootedKernel (layout : BootLayout) (ram disk : Nat → Page) : Foundation.System KernelState Event where
  start := (· = layout.boot ram disk)
  exec := exec

end Fos.Kernel
