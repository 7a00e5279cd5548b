import Fos.Kernel.Frames

/-! The page file: `kern/file_manager.c`. The disk page tables of an environment
hold raw disk frame numbers; 0 means that the page is not in the page file. -/

set_option autoImplicit false

namespace Fos.Kernel

abbrev pageFileStartSector : Nat := 40960
abbrev sectorPerPage : Nat := 8
abbrev pagesPerFile : Nat := 133120

abbrev eNoPageFileSpace : Int := -8
abbrev ePageNotExistInPF : Int := -9

/-- The page `ide_read` brings in from the sectors of a disk frame. -/
def KernelState.diskPage (state : KernelState) (diskFrame : Nat) : Page := fun index =>
  state.disk (pageFileStartSector + diskFrame * sectorPerPage + index / 128) (index % 128)

/-- `write_disk_page` through `ide_write`. -/
@[simps] def KernelState.writeDiskPage (state : KernelState) (diskFrame : Nat) (page : Page) :
    KernelState :=
  { state with
    disk := fun sector index =>
      if pageFileStartSector + diskFrame * sectorPerPage ≤ sector ∧
          sector < pageFileStartSector + diskFrame * sectorPerPage + sectorPerPage then
        page ((sector - (pageFileStartSector + diskFrame * sectorPerPage)) * 128 + index)
      else
        state.disk sector index }

/-- `none` for `E_NO_PAGE_FILE_SPACE`. -/
def allocateDiskFrame : KernelM (Option Nat) := do
  match (← get).diskFreeFrameList with
  | [] => return none
  | diskFrame :: rest =>
      modify fun state => state.setDiskFreeFrameList rest
      return some diskFrame

def freeDiskFrame (diskFrame : Nat) : KernelM Unit := do
  if diskFrame = 0 then
    return ()
  else
    modify fun state => state.setDiskFreeFrameList (diskFrame :: state.diskFreeFrameList)

/-- The disk page table of an address; without `create` a missing one is `none`. -/
def getDiskPageTable (directory address : Nat) (create : Bool) : KernelM (Option Nat) := do
  let entry := (← get).mem directory (pdx address)
  let table ← staticKernelVirtualAddress (extractAddress entry)
  if entry = 0 then
    if create then
      return some (← createTable directory address permPresent)
    else
      return none
  else
    return some table

/-- The directory is created on the first use. -/
def getDiskPageDirectory (slot : Nat) : KernelM Nat := do
  match ((← get).envs slot).diskEnvPgdir with
  | some directory => return directory
  | none =>
      let frame ← allocateFrame
      modify fun state => state.setReferences frame 1
      let directory ← staticKernelVirtualAddress (toPhysicalAddress frame)
      modify fun state => state.setEnv slot { state.envs slot with
        diskEnvPgdir := some directory
        diskEnvPgdirPA := toPhysicalAddress frame }
      modify fun state => state.writeFrame directory Page.zero
      return directory

/-- The disk frame of a page, allocated if the page has none: the common part of
`pf_add_empty_env_page` and `pf_add_env_page`. -/
def addDiskFrame (slot address : Nat) : KernelM (Option Nat) := do
  if kernelBase ≤ address then
    panic "assertion failed: (uint32)virtual_address < KERNEL_BASE"
  let directory ← getDiskPageDirectory slot
  match ← getDiskPageTable directory address true with
  | none => return none
  | some table =>
      let diskFrame := (← get).mem table (ptx address)
      if diskFrame = 0 then
        match ← allocateDiskFrame with
        | none => return none
        | some diskFrame =>
            modify fun state => state.writeWord table (ptx address) diskFrame
            return some diskFrame
      else
        return some diskFrame

def pfAddEnvPage (slot address : Nat) (dataSrc : Page) : KernelM Int := do
  match ← addDiskFrame slot address with
  | none => return eNoPageFileSpace
  | some diskFrame =>
      modify fun state => state.writeDiskPage diskFrame dataSrc
      return 0

/-- `ptr_zero_page` is the page of frame 1. -/
def pfAddEmptyEnvPage (slot address : Nat) (initializeByZero : Bool) : KernelM Int := do
  if initializeByZero then
    pfAddEnvPage slot address ((← get).mem 1)
  else
    match ← addDiskFrame slot address with
    | none => return eNoPageFileSpace
    | some _ => return 0

def pfUpdateEnvPage (slot address : Nat) (modifiedFrame : Option Nat) : KernelM Int := do
  if kernelBase ≤ address then
    panic "assertion failed: (uint32)virtual_address < KERNEL_BASE"
  let directory ← getDiskPageDirectory slot
  match ← getDiskPageTable directory address false with
  | none => return ePageNotExistInPF
  | some table =>
      let diskFrame := (← get).mem table (ptx address)
      if diskFrame = 0 then
        return ePageNotExistInPF
      else
        match modifiedFrame with
        | none => undefined "to_physical_address(NULL)"
        | some frame =>
            let source ← staticKernelVirtualAddress (toPhysicalAddress frame)
            modify fun state => state.writeDiskPage diskFrame (state.mem source)
            return 0

/-- The page is read to its user address; the modified bit this sets is cleared
again. -/
def pfReadEnvPage (slot address : Nat) : KernelM Int := do
  let address := roundDown address
  match ((← get).envs slot).diskEnvPgdir with
  | none => return ePageNotExistInPF
  | some directory =>
      match ← getDiskPageTable directory address false with
      | none => return ePageNotExistInPF
      | some table =>
          let diskFrame := (← get).mem table (ptx address)
          if diskFrame = 0 then
            return ePageNotExistInPF
          else
            let page := (← get).diskPage diskFrame
            modifyMappedPage address fun _ => page
            match (← get).curenv with
            | none => undefined "curenv == NULL"
            | some current => ptSetPagePermissions current address 0 permModified
            return 0

def pfRemoveEnvPage (slot address : Nat) : KernelM Unit := do
  match ((← get).envs slot).diskEnvPgdir with
  | none => return ()
  | some directory =>
      match ← getDiskPageTable directory address false with
      | none => return ()
      | some table =>
          let diskFrame := (← get).mem table (ptx address)
          modify fun state => state.writeWord table (ptx address) 0
          freeDiskFrame diskFrame

/-- One disk page table of `pf_free_env`. -/
def pfFreeTable (directory pdeno : Nat) : KernelM Unit := do
  let entry := (← get).mem directory pdeno
  if hasPerm entry permPresent then
    let table ← staticKernelVirtualAddress (extractAddress entry)
    loopFrom (fun pteno => do
      let diskFrame := (← get).mem table pteno
      modify fun state => state.writeWord table pteno 0
      freeDiskFrame diskFrame) 0 1024
    modify fun state => state.writeWord directory pdeno 0
    decrementReferences (← toFrameInfo (extractAddress entry))

/-- `disk_env_tabledir` stays NULL, so the page tables need no freeing. -/
def pfFreeEnv (slot : Nat) : KernelM Unit := do
  match ((← get).envs slot).diskEnvPgdir with
  | none => undefined "disk_env_pgdir == NULL"
  | some directory =>
      loopFrom (pfFreeTable directory) 0 (pdx userTop)
      decrementReferences (← toFrameInfo ((← get).envs slot).diskEnvPgdirPA)
      modify fun state => state.setEnv slot { state.envs slot with
        diskEnvPgdir := none
        diskEnvPgdirPA := 0 }

end Fos.Kernel
