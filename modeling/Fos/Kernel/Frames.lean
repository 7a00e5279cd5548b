import Fos.Kernel.Machine

/-! Physical frames and two-level page tables: `kern/memory_manager.c`, in the
configuration `USE_KHEAP = 0` without page buffering. -/

set_option autoImplicit false

namespace Fos.Kernel

/-- `STATIC_KERNEL_VIRTUAL_ADDRESS`: the frame behind the kernel address. -/
def staticKernelVirtualAddress (physical : Nat) : KernelM Nat := do
  if (← get).numberOfFrames ≤ frameOf physical then
    panic "K_VIRTUAL_ADDRESS called with invalid pa"
  else
    return frameOf physical

def toFrameInfo (physical : Nat) : KernelM Nat := do
  if (← get).numberOfFrames ≤ frameOf physical then
    panic "to_frame_info called with invalid pa"
  else
    return frameOf physical

/-- `isBuffered` is never set, so the buffering branch has no effect. -/
def allocateFrame : KernelM Nat := do
  match (← get).freeFrameList with
  | [] => panic "ERROR: Kernel run out of memory... allocate_frame cannot find a free frame.\n"
  | frame :: rest =>
      modify fun state => state.setFreeFrameList rest
      modify fun state => state.setReferences frame 0
      return frame

def freeFrame (frame : Nat) : KernelM Unit := do
  modify fun state => state.setReferences frame 0
  modify fun state => state.setFreeFrameList (frame :: state.freeFrameList)

/-- The count is a `uint16`. -/
def decrementReferences (frame : Nat) : KernelM Unit := do
  let count := ((← get).references frame + 0xFFFF) % 0x10000
  modify fun state => state.setReferences frame count
  if count = 0 then freeFrame frame

def incrementReferences (frame : Nat) : KernelM Unit :=
  modify fun state => state.setReferences frame ((state.references frame + 1) % 0x10000)

/-- The page table of an address, `none` for `TABLE_NOT_EXIST`. A directory entry
that is neither zero nor present leads to `fault_handler(NULL)`. -/
def getPageTable (directory address : Nat) : KernelM (Option Nat) := do
  let entry := (← get).mem directory (pdx address)
  let table ← staticKernelVirtualAddress (extractAddress entry)
  if hasPerm entry permPresent then
    return some table
  else if entry ≠ 0 then
    undefined "fault_handler(NULL)"
  else
    return none

/-- A frame of zeros becomes the table of an address: the common part of `__static_cpt`
and `get_disk_page_table`. -/
def createTable (directory address permissions : Nat) : KernelM Nat := do
  let frame ← allocateFrame
  let table ← staticKernelVirtualAddress (toPhysicalAddress frame)
  modify fun state => state.setReferences frame 1
  modify fun state => state.writeWord directory (pdx address)
    (constructEntry (toPhysicalAddress frame) permissions)
  modify fun state => state.writeFrame table Page.zero
  return table

def staticCpt (directory address : Nat) : KernelM Nat :=
  createTable directory address (permPresent ||| permUser ||| permWriteable)

/-- The frame mapped at an address, with the page table it was found in. -/
def getFrameInfo (directory address : Nat) : KernelM (Option Nat × Option Nat) := do
  match ← getPageTable directory address with
  | none => return (none, none)
  | some table =>
      let entry := (← get).mem table (ptx address)
      if entry ≠ 0 then
        let frame ← toFrameInfo (extractAddress entry)
        return (some frame, some table)
      else
        return (none, some table)

def unmapFrame (directory address : Nat) : KernelM Unit := do
  match ← getFrameInfo directory address with
  | (some frame, some table) =>
      decrementReferences frame
      modify fun state => state.writeWord table (ptx address) 0
  | _ => return ()

/-- The end of `map_frame` and of `loadtime_map_frame`. -/
def bindFrame (table frame address permissions : Nat) : KernelM Unit := do
  incrementReferences frame
  modify fun state => state.writeWord table (ptx address)
    (constructEntry (toPhysicalAddress frame) (permissions ||| permPresent))

/-- `map_frame` from where it has the page table. -/
def mapInTable (directory table frame address permissions : Nat) : KernelM Unit := do
  let entry := (← get).mem table (ptx address)
  if hasPerm entry permPresent ∧ extractAddress entry = toPhysicalAddress frame then
    return ()
  else
    if hasPerm entry permPresent then unmapFrame directory address
    bindFrame table frame address permissions

def mapFrame (directory frame address permissions : Nat) : KernelM Unit := do
  match ← getPageTable directory address with
  | some table => mapInTable directory table frame address permissions
  | none => mapInTable directory (← staticCpt directory address) frame address permissions

def loadtimeMapFrame (directory frame address permissions : Nat) : KernelM Unit := do
  let entry := (← get).mem directory (pdx address)
  let existing ← staticKernelVirtualAddress (extractAddress entry)
  if entry = 0 then
    bindFrame (← staticCpt directory address) frame address permissions
  else
    bindFrame existing frame address permissions

/-! ### Entry flags of an environment's pages

A table that is nonzero but not present would have to be in the page file. No
table is ever written there, so `__pf_read_env_table` fails and the code panics. -/

def pageTableForFlags (directory address : Nat) (onDisk missing : String) :
    KernelM Nat := do
  let entry := (← get).mem directory (pdx address)
  if hasPerm entry permPresent then
    staticKernelVirtualAddress (extractAddress entry)
  else if entry ≠ 0 then
    panic onDisk
  else
    panic missing

def ptSetPagePermissions (slot address set clear : Nat) : KernelM Unit := do
  let directory := ((← get).envs slot).envPageDirectory
  let table ← pageTableForFlags directory address
    "pt_set_page_permissions: table not found in PF when expected to find one !. please revise your table fault\t\t\thandling code"
    "function pt_set_page_permissions() called with invalid virtual address. The corresponding page table doesn't exist\n"
  modify fun state => state.writeWord table (ptx address)
    (changePerm (state.mem table (ptx address)) set clear)

def ptClearPageTableEntry (slot address : Nat) : KernelM Unit := do
  let directory := ((← get).envs slot).envPageDirectory
  let table ← pageTableForFlags directory address
    "pt_clear_page_table_entry: table not found in PF when expected to find one !. please revise your table fault\t\t\thandling code"
    "function pt_clear_page_table_entry() called with invalid virtual address. The corresponding page table doesn't exist\n"
  modify fun state => state.writeWord table (ptx address) 0

/-- The low twelve bits of the entry, 0 without a page table. -/
def ptGetPagePermissions (slot address : Nat) : KernelM Nat := do
  let directory := ((← get).envs slot).envPageDirectory
  let entry := (← get).mem directory (pdx address)
  if hasPerm entry permPresent then
    let table ← staticKernelVirtualAddress (extractAddress entry)
    return (← get).mem table (ptx address) &&& 0xFFF
  else if entry ≠ 0 then
    panic "pt_get_page_permissions: table not found in PF when expected to find one !. please revise your table fault\t\t\thandling code"
  else
    return 0

def pdClearPageDirEntry (slot address : Nat) : KernelM Unit :=
  modify fun state => state.writeWord (state.envs slot).envPageDirectory (pdx address) 0

/-! ### The memory management unit -/

/-- The frame an address is translated to, if its directory and table entries are
present. -/
def KernelState.translate (state : KernelState) (directory address : Nat) : Option Nat :=
  let table := state.mem directory (pdx address)
  if hasPerm table permPresent then
    let entry := state.mem (frameOf table) (ptx address)
    if hasPerm entry permPresent then some (frameOf entry) else none
  else
    none

/-- The kernel rewrites the page at a user address through the active page
directory; the processor sets the modified bit of the entry. -/
def modifyMappedPage (address : Nat) (change : Page → Page) : KernelM Unit := do
  let directory := frameOf (← get).cr3
  match (← get).translate directory address with
  | none => undefined "page fault in the kernel"
  | some frame =>
      modify fun state =>
        let table := frameOf (state.mem directory (pdx address))
        state.writeWord table (ptx address) (state.mem table (ptx address) ||| permModified)
      modify fun state => state.writeFrame frame (change (state.mem frame))

end Fos.Kernel
