import Fos.Foundation.Runs
import Fos.Kernel.Places

/-! Page tables in the page file: the last part of `kern/file_manager.c`. The kernel proper
never calls it, so `disk_env_tabledir` stands beside the kernel state. -/

set_option autoImplicit false

namespace Fos.Kernel

/-- The kernel state with `disk_env_tabledir` and `disk_env_tabledir_PA` of every
environment. -/
structure TableFile where
  kernel : KernelState
  diskEnvTabledir : Nat → Option Nat
  diskEnvTabledirPA : Nat → Nat

abbrev TableFileM := EStateM Stop TableFile

/-- Kernel code that knows nothing of table directories. -/
def onKernel {Result : Type} (program : KernelM Result) : TableFileM Result := fun state =>
  match program state.kernel with
  | .ok result kernel => .ok result { state with kernel := kernel }
  | .error stop kernel => .error stop { state with kernel := kernel }

def setTabledir (slot : Nat) (directory : Option Nat) (physical : Nat) : TableFileM Unit :=
  modify fun state => { state with
    diskEnvTabledir := Function.update state.diskEnvTabledir slot directory
    diskEnvTabledirPA := Function.update state.diskEnvTabledirPA slot physical }

/-- The directory is created on the first use. -/
def getDiskTableDirectory (slot : Nat) : TableFileM Nat := do
  match (← get).diskEnvTabledir slot with
  | some directory => return directory
  | none =>
      let frame ← onKernel allocateFrame
      onKernel (modify fun state => state.setReferences frame 1)
      let directory ← onKernel (staticKernelVirtualAddress (toPhysicalAddress frame))
      setTabledir slot (some directory) (toPhysicalAddress frame)
      onKernel (modify fun state => state.writeFrame directory Page.zero)
      return directory

def pfWriteEnvTable (slot address : Nat) (table : Page) : TableFileM Int := do
  if kernelBase ≤ address then
    onKernel (panic "assertion failed: (uint32)virtual_address < KERNEL_BASE")
  let directory ← getDiskTableDirectory slot
  let diskFrame := (← get).kernel.mem directory (pdx address)
  if diskFrame = 0 then
    match ← onKernel allocateDiskFrame with
    | none => return eNoPageFileSpace
    | some diskFrame =>
        onKernel (modify fun state => state.writeWord directory (pdx address) diskFrame)
        onKernel (modify fun state => state.writeDiskPage diskFrame table)
        return 0
  else
    onKernel (modify fun state => state.writeDiskPage diskFrame table)
    return 0

/-- An entry of the table directory is cleared and its disk frame freed. -/
def removeTableEntry (directory index : Nat) : TableFileM Unit := do
  let diskFrame := (← get).kernel.mem directory index
  onKernel (modify fun state => state.writeWord directory index 0)
  onKernel (freeDiskFrame diskFrame)

def pfRemoveEnvTable (slot address : Nat) : TableFileM Unit := do
  match (← get).diskEnvTabledir slot with
  | none => return ()
  | some directory => removeTableEntry directory (pdx address)

/-- The loop of `__pf_remove_env_all_tables`. -/
def removeTables (directory : Nat) : Nat → Nat → TableFileM Unit
  | _, 0 => pure ()
  | index, count + 1 => do
      removeTableEntry directory index
      removeTables directory (index + 1) count

def pfRemoveEnvAllTables (slot : Nat) : TableFileM Unit := do
  match (← get).diskEnvTabledir slot with
  | none => return ()
  | some directory => removeTables directory 0 (pdx userTop)

namespace TableFile

/-- `pf_free_env` in full. -/
def pfFreeEnv (slot : Nat) : TableFileM Unit := do
  onKernel (Kernel.pfFreeEnv slot)
  match (← get).diskEnvTabledir slot with
  | none => return ()
  | some _ =>
      pfRemoveEnvAllTables slot
      let frame ← onKernel (toFrameInfo ((← get).diskEnvTabledirPA slot))
      onKernel (decrementReferences frame)
      setTabledir slot none 0

def pfCalculateFreeFrames (state : TableFile) : Nat :=
  state.kernel.diskFreeFrameList.foldl (fun totalFreeDiskFrames _ => totalFreeDiskFrames + 1) 0

/-! ### Runs -/

/-- A call into the page file. -/
inductive Call where
  | addEnvPage (slot address : Nat) (dataSrc : Page)
  | addEmptyEnvPage (slot address : Nat) (initializeByZero : Bool)
  | removeEnvPage (slot address : Nat)
  | writeEnvTable (slot address : Nat) (table : Page)
  | removeEnvTable (slot address : Nat)
  | freeEnv (slot : Nat)

/-- The result of a call, where it has one. -/
def Call.program : Call → TableFileM (Option Int)
  | .addEnvPage slot address dataSrc => some <$> onKernel (pfAddEnvPage slot address dataSrc)
  | .addEmptyEnvPage slot address initializeByZero =>
      some <$> onKernel (pfAddEmptyEnvPage slot address initializeByZero)
  | .removeEnvPage slot address => do
      onKernel (pfRemoveEnvPage slot address)
      return none
  | .writeEnvTable slot address table => some <$> pfWriteEnvTable slot address table
  | .removeEnvTable slot address => do
      pfRemoveEnvTable slot address
      return none
  | .freeEnv slot => do
      pfFreeEnv slot
      return none

/-- The virtual addresses of a call lie below `USER_TOP`. -/
def Call.InUserSpace : Call → Prop
  | .addEnvPage _ address _ => address < userTop
  | .addEmptyEnvPage _ address _ => address < userTop
  | .removeEnvPage _ address => address < userTop
  | .writeEnvTable _ address _ => address < userTop
  | .removeEnvTable _ address => address < userTop
  | .freeEnv _ => True

/-- A call that panics ends where it stands, and other calls may follow. -/
def exec (state : TableFile) (call : Call) : Option TableFile :=
  match call.program state with
  | .ok _ next => some next
  | .error (.panic _) next => some next
  | .error (.undefined _) _ => none

/-- The page file of a booted kernel. -/
def system (layout : BootLayout) : Foundation.System TableFile Call where
  start := fun state => ∃ ram disk, state = ⟨layout.boot ram disk, fun _ => none, fun _ => 0⟩
  exec := exec

/-! ### Who holds a disk frame -/

/-- The entries of disk page tables and of disk table directories. -/
inductive Entry where
  | page (slot number : Nat)
  | table (slot index : Nat)
  deriving DecidableEq, Repr

/-- The disk frame an entry below `USER_TOP` holds, 0 if none. -/
def entry (state : TableFile) : Entry → Nat
  | .page slot number => state.kernel.leaf .disk slot number
  | .table slot index =>
      match state.diskEnvTabledir slot with
      | none => 0
      | some directory => if index < userTables then state.kernel.mem directory index else 0

end TableFile

end Fos.Kernel
