import Fos.Kernel.Boot
import Fos.Kernel.BootMapping
import Fos.Kernel.EnvironmentIds

/-! `FOS_initialize` as far as it sets up memory: `detect_memory`, `initialize_kernel_VM` with its check,
`turn_on_paging`, `initialize_paging`, and the lists of `env_init` and `sched_init`. -/

set_option autoImplicit false

namespace Fos.Kernel

/-- `sizeof(struct Frame_Info)`, with what aligns its fields. -/
def sizeofFrameInfo : Nat := sizeofListEntry + (2 + 2) + 4 + 4 + (1 + 3)

/-! ### The size of the memory -/

/-- What `nvram_read` finds of the base memory and the extended memory, in units of 1 KB, and of the memory above
16 MB, in units of 64 KB. -/
structure Nvram where
  base : Nat
  extended : Nat
  other : Nat

/-- The bytes from `KERNEL_BASE` to the end of the address space. -/
abbrev kernelVirtualArea : Nat := 0x10000000

/-- The pages the kernel maps of the memory. -/
@[irreducible] def kernelPages : Nat := kernelVirtualArea / pageSize

@[irreducible] def npdEntries : Nat := 1024

/-- `detect_memory`: the number of frames. Memory that is larger than the kernel can map is not accepted, and the
function does not return. -/
def detectMemory (nvram : Nvram) : Option Nat :=
  let sizeOfExtendedMem := roundDown (nvram.extended * 1024 % wordSize)
  let sizeOfOtherMem := roundDown (nvram.other * 1024 * 64 % wordSize)
  let maxpa :=
    if sizeOfOtherMem > 0 then (sizeOfOtherMem + 16 * 1024 * 1024) % wordSize
    else if sizeOfExtendedMem ≠ 0 then (physExtendedMem + sizeOfExtendedMem) % wordSize
    else sizeOfExtendedMem
  if maxpa > kernelVirtualArea then none else some (maxpa / pageSize)

/-! ### The kernel's address space -/

/-- What the linker says about the kernel. -/
structure KernelImage where
  endOfKernel : Nat
  ptrStackBottom : Nat

/-- `memset` with zero on words at a kernel address. -/
@[simps] def BootState.clear (state : BootState) (address size : Nat) : BootState :=
  { state with
    mem := fun frame index =>
      let word := kernelBase + frame * pageSize + 4 * index
      if index < 1024 ∧ address ≤ word ∧ word < address + size then 0 else state.mem frame index }

namespace Boot

variable (image : KernelImage)

def check (condition : Bool) (text : String) : BootM Unit :=
  if condition then return () else throw (.panic ("assertion failed: " ++ text))

/-- An array that starts with zeros. -/
def allocateArray (size : Nat) : BootM Nat := do
  let array ← bootAllocateSpace image.endOfKernel size pageSize
  modify (·.clear array size)
  return array

/-- The loop over `sva`, which has 64 bits. -/
def createWindowTables (directory : Nat) : BootM Unit :=
  (List.range ((0xFFFFFFFF - kernelBase + (ptSize - 1)) / ptSize)).forM fun nTables => do
    let _ ← bootGetPageTable image.endOfKernel directory (kernelBase + nTables * ptSize) true

def setupListing (directory : Nat) : BootM Unit := do
  modify (·.writeWord directory (pdx vpt)
    (constructEntry (toPhysicalAddress directory) (permPresent ||| permWriteable)))
  modify (·.writeWord directory (pdx uvpt) (toPhysicalAddress directory ||| permUser ||| permPresent))

/-- The assertions about an entry of the page directory. -/
def checkDirectoryEntry (directory index : Nat) : BootM Unit := do
  let entry := (← get).mem directory index
  if index = pdx vpt ∨ index = pdx uvpt ∨ index = pdx (kernelStackTop - 1) ∨ index = pdx uenvs then
    check (entry != 0) "ptr_page_directory[i]"
  else if index ≥ pdx kernelBase then
    check (entry != 0) "ptr_page_directory[i]"
  else
    check (entry == 0) "ptr_page_directory[i] == 0"

/-- An assertion of `check_boot_pgdir` about `check_va2pa`. -/
def checkPage (directory address physical : Nat) (text : String) : BootM Unit := do
  let found ← checkVa2pa directory address
  check (found == physical) text

/-- The loop ends where the address of the next page is zero. -/
def checkMemory (directory : Nat) : BootM Unit :=
  (List.range kernelPages).forM fun page =>
    checkPage directory (kernelBase + page * pageSize) (page * pageSize)
      "check_va2pa(ptr_page_directory, KERNEL_BASE + i) == i"

def checkStack (directory : Nat) : BootM Unit :=
  (List.range (kernelStackSize / pageSize)).forM fun page => do
    let physical ← kernelPhysicalAddress image.ptrStackBottom
    checkPage directory (kernelStackTop - kernelStackSize + page * pageSize) (physical + page * pageSize)
      "check_va2pa(ptr_page_directory, KERNEL_STACK_TOP - KERNEL_STACK_SIZE + i) == STATIC_KERNEL_PHYSICAL_ADDRESS(ptr_stack_bottom) + i"

def checkBootPgdir (directory : Nat) : BootM Unit := do
  checkMemory directory
  checkStack image directory
  (List.range npdEntries).forM (checkDirectoryEntry directory)

/-- The first loop of `turn_on_paging`: the kernel's page tables are at address zero as well. -/
def copyEntries (directory count : Nat) : BootM Unit :=
  (List.range count).forM fun index =>
    modify fun state => state.writeWord directory index (state.mem directory (pdx kernelBase + index))

def clearEntries (directory count : Nat) : BootM Unit :=
  (List.range count).forM fun index => modify (·.writeWord directory index 0)

/-- The processor turns paging on in between. -/
def turnOnPaging (directory : Nat) : BootM Unit := do
  let count := pdx (← get).ptrFreeMem - pdx kernelBase
  copyEntries directory count
  clearEntries directory count

/-- `initialize_kernel_VM`: the frame of the page directory. -/
def initializeKernelVM : BootM Nat := do
  let ptrPageDirectory ← allocateArray image pageSize
  let physPageDirectory ← kernelPhysicalAddress ptrPageDirectory
  let directory := frameOf physPageDirectory
  let stack ← kernelPhysicalAddress image.ptrStackBottom
  bootMapRange image.endOfKernel directory (kernelStackTop - kernelStackSize) kernelStackSize stack permWriteable
  createWindowTables image directory
  let _framesInfo ← allocateArray image ((← get).numberOfFrames * sizeofFrameInfo % wordSize)
  let _diskFramesInfo ← allocateArray image (pagesPerFile * sizeofFrameInfo % wordSize)
  setupListing directory
  let envs ← allocateArray image (nenv * sizeofEnv)
  let physEnvs ← kernelPhysicalAddress envs
  bootMapRange image.endOfKernel directory uenvs (nenv * sizeofEnv) physEnvs permUser
  modify fun state => state.writeWord directory (pdx uenvs) (state.mem directory (pdx uenvs) ||| (permUser ||| permPresent))
  bootMapRange image.endOfKernel directory kernelBase (0xFFFFFFFF - kernelBase) 0 permWriteable
  checkBootPgdir image directory
  turnOnPaging directory
  return directory

end Boot

/-! ### Free frames and environments -/

namespace KernelState

/-- A frame that is never free. -/
def markFrame (state : KernelState) (frame : Nat) : KernelState :=
  { state with references := Function.update state.references frame 1 }

/-- `initialize_frame_info` and `LIST_INSERT_HEAD`. -/
def putFrame (state : KernelState) (frame : Nat) : KernelState :=
  { state with
    references := Function.update state.references frame 0
    freeFrameList := frame :: state.freeFrameList }

def putDiskFrame (state : KernelState) (diskFrame : Nat) : KernelState :=
  { state with diskFreeFrameList := diskFrame :: state.diskFreeFrameList }

def putEnv (state : KernelState) (slot : Nat) : KernelState :=
  { state with
    envs := Function.update state.envs slot { state.envs slot with envStatus := .free, envId := 0 }
    envFreeList := slot :: state.envFreeList }

/-- The first 1024 bytes of `ptr_zero_page` and `ptr_temp_page`. -/
def clearPages (state : KernelState) : KernelState :=
  { state with mem := fun frame index => if (frame = 1 ∨ frame = 2) ∧ index < 256 then 0 else state.mem frame index }

end KernelState

def initializeDiskPageFile (state : KernelState) : KernelState :=
  (List.range' 1 (pagesPerFile - 1)).foldl KernelState.putDiskFrame { state with diskFreeFrameList := [] }

/-- `initialize_paging`, after the loop variables were divided by `PAGE_SIZE`. -/
def initializePaging (ptrFreeMem : Nat) (state : KernelState) : KernelState :=
  let state := [0, 1, 2].foldl KernelState.markFrame { state with freeFrameList := [] }
  let state := state.clearPages
  let rangeEnd := roundUp physIOMem / pageSize
  let state := (List.range' 3 (rangeEnd - 3)).foldl KernelState.putFrame state
  let hole := physIOMem / pageSize
  let extended := physExtendedMem / pageSize
  let state := (List.range' hole (extended - hole)).foldl KernelState.markFrame state
  let rangeEnd := roundUp (ptrFreeMem - kernelBase) / pageSize
  let state := (List.range' extended (rangeEnd - extended)).foldl KernelState.markFrame state
  let state := (List.range' rangeEnd (state.numberOfFrames - rangeEnd)).foldl KernelState.putFrame state
  initializeDiskPageFile state

def envInit (state : KernelState) : KernelState :=
  (List.range nenv).reverse.foldl KernelState.putEnv state

/-- `LIST_INIT` of `sched_init`. -/
def initializeQueues (state : KernelState) : KernelState :=
  { state with envNewQueue := [], envReadyQueue := [], envExitQueue := [] }

/-- The kernel's variables are zero but for those `initialize_kernel_VM` has set, the arrays it has cleared are. -/
def BootState.kernelState (state : BootState) (directory : Nat) (disk : Nat → Page) : KernelState where
  mem := state.mem
  numberOfFrames := state.numberOfFrames
  ptrPageDirectory := directory
  references := fun _ => 0
  freeFrameList := []
  disk := disk
  diskFreeFrameList := []
  envs := fun _ => Env.zero
  envFreeList := []
  envNewQueue := []
  envReadyQueue := []
  envExitQueue := []
  curenv := none
  cr3 := toPhysicalAddress directory

/-- `FOS_initialize`, up to the command prompt. -/
def fosInitialize (image : KernelImage) (disk : Nat → Page) : BootM KernelState := do
  let directory ← Boot.initializeKernelVM image
  let state ← get
  return initializeQueues (envInit (initializePaging state.ptrFreeMem (state.kernelState directory disk)))

/-! ### What the layout is -/

/-- The pages of an array. -/
def pagesOf (size : Nat) : Nat := (size + (pageSize - 1)) / pageSize

namespace KernelImage

variable (image : KernelImage) (numberOfFrames : Nat)

/-- The kernel was loaded behind the extended memory's first byte, and its stack is a sequence of pages. -/
structure Sound : Prop where
  loaded : kernelBase + physExtendedMem ≤ image.endOfKernel
  stack : kernelBase ≤ image.ptrStackBottom ∧ image.ptrStackBottom < wordSize - kernelStackSize
  aligned : image.ptrStackBottom % pageSize = 0

/-- The frame of the page directory. The page tables of the stack and of the memory at `KERNEL_BASE` follow. -/
def firstFrame : Nat := pagesOf (image.endOfKernel - kernelBase)

def framesInfo : Nat := image.firstFrame + 2 + windowTables

def diskFramesInfo : Nat := image.framesInfo + pagesOf (numberOfFrames * sizeofFrameInfo)

def envs : Nat := image.diskFramesInfo numberOfFrames + pagesOf (pagesPerFile * sizeofFrameInfo)

def envsTable : Nat := image.envs numberOfFrames + pagesOf (nenv * sizeofEnv)

def layout : BootLayout where
  numberOfFrames := numberOfFrames
  pageDirectory := image.firstFrame
  stackTable := image.firstFrame + 1
  windowTable := fun index => image.firstFrame + 2 + index
  envsTable := image.envsTable numberOfFrames
  stackBottom := frameOf (image.ptrStackBottom - kernelBase)
  envsFrame := image.envs numberOfFrames
  envsPages := pagesOf (nenv * sizeofEnv)
  rangeEnd := image.envsTable numberOfFrames + 1

end KernelImage

/-- The same state, as far as the processor can see: a page has 1024 words. -/
structure KernelState.Same (state booted : KernelState) : Prop where
  words : ∀ frame, ∀ index < 1024, state.mem frame index = booted.mem frame index
  rest : state = { booted with mem := state.mem }

end Fos.Kernel
