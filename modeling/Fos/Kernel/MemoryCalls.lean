import Fos.Kernel.PageFile

/-! The memory system calls: `allocateMem` and `freeMem` of
`kern/memory_manager.c` and `__sys_allocate_page` of `kern/syscall.c`. -/

set_option autoImplicit false

namespace Fos.Kernel

abbrev eInval : Int := -3

/-- The address of the next page, in 32 bits. -/
def nextPage (address : Nat) : Nat := (address + pageSize) % wordSize

/-- One round of `allocateMem`. -/
def allocateMemPage (slot address : Nat) : KernelM Unit := do
  let result ← pfAddEmptyEnvPage slot address false
  if result = eNoPageFileSpace then
    panic "No page file space.\n"
  else
    let frame ← allocateFrame
    mapFrame ((← get).envs slot).envPageDirectory frame address
      (permWriteable ||| permPresent ||| permUser)

def allocatePages (slot : Nat) : Nat → Nat → KernelM Unit
  | _, 0 => pure ()
  | address, count + 1 => do
      allocateMemPage slot address
      allocatePages slot (nextPage address) count

def allocateMem (slot address size : Nat) : KernelM Unit :=
  allocatePages slot address (size / pageSize)

def removePages (slot : Nat) : Nat → Nat → KernelM Unit
  | _, 0 => pure ()
  | address, count + 1 => do
      pfRemoveEnvPage slot address
      removePages slot (nextPage address) count

/-- The number of zero entries among the 1024 of a page table. -/
def countZeroEntries (page : Page) : Nat :=
  (List.range 1024).countP fun index => page index == 0

/-- The page table of a page that has left memory is given back if it is empty.
Its frame is looked up through the kernel mapping of the table itself. -/
def freeMemTable (slot address : Nat) : KernelM Unit := do
  let directory := ((← get).envs slot).envPageDirectory
  match ← getPageTable directory address with
  | none =>
      -- `get_frame_info(dir, NULL, ..)` with a counter of 0: nothing is freed.
      let _ ← getFrameInfo directory 0
  | some table =>
      let counter := countZeroEntries ((← get).mem table)
      match ← getFrameInfo directory (kernelBase + toPhysicalAddress table) with
      | (some frame, _) =>
          if counter = 1024 then
            freeFrame frame
            pdClearPageDirEntry slot address
      | _ => return ()

/-- The page of an element leaves memory, and the element is unused again. -/
def freeMemElement (slot address element : Nat) : KernelM Unit := do
  unmapFrame ((← get).envs slot).envPageDirectory address
  modifyEnv slot fun env =>
    env.setElement element { env.ptrPageWorkingSet element with empty := true }
  ptClearPageTableEntry slot address
  modifyEnv slot fun env => { env with
    pageWorkingSetList := element :: env.pageWorkingSetList }

/-- The head of `SecondList` moves to the end of `ActiveList`. -/
def refillActiveList (slot : Nat) : KernelM Unit := do
  match ((← get).envs slot).secondList with
  | [] => pure ()
  | secondHead :: rest =>
      modifyEnv slot fun env => { env with secondList := rest }
      ptSetPagePermissions slot (((← get).envs slot).ptrPageWorkingSet secondHead).virtualAddress
        (permPresent ||| permWriteable ||| permUser) 0
      modifyEnv slot fun env => { env with activeList := env.activeList ++ [secondHead] }

/-- The element of a page of the range, found in `ActiveList`. -/
def freeMemActive (slot address element : Nat) : KernelM Unit := do
  if (((← get).envs slot).ptrPageWorkingSet element).virtualAddress = address then
    modifyEnv slot fun env => { env with activeList := env.activeList.erase element }
    freeMemElement slot address element
    refillActiveList slot
    freeMemTable slot address

/-- The element of a page of the range, found in `SecondList`. -/
def freeMemSecond (slot address element : Nat) : KernelM Unit := do
  if (((← get).envs slot).ptrPageWorkingSet element).virtualAddress = address then
    modifyEnv slot fun env => { env with secondList := env.secondList.erase element }
    freeMemElement slot address element
    freeMemTable slot address

def activeListOf (slot : Nat) (state : KernelState) : List Nat := (state.envs slot).activeList
def secondListOf (slot : Nat) (state : KernelState) : List Nat := (state.envs slot).secondList

/-- The bound on the rounds of a traversal: the lists hold distinct elements of
`ptr_pageWorkingSet`. -/
abbrev listRounds : Nat := pwsMaxSize + 1

/-- One page of the second part of `freeMem`. -/
def freeMemPage (slot address : Nat) : KernelM Unit := do
  listForeach (activeListOf slot) (freeMemActive slot address) listRounds
    ((← get).envs slot).activeList.head?
  listForeach (secondListOf slot) (freeMemSecond slot address) listRounds
    ((← get).envs slot).secondList.head?

def freePages (slot : Nat) : Nat → Nat → KernelM Unit
  | _, 0 => pure ()
  | address, count + 1 => do
      freeMemPage slot address
      freePages slot (nextPage address) count

def freeMem (slot address size : Nat) : KernelM Unit := do
  let numOfPages := roundUp size / pageSize
  removePages slot address numOfPages
  freePages slot address numOfPages

/-- `__sys_allocate_page(va, perm)`. The frame is taken before the arguments are
checked. -/
def sysAllocatePage (slot address perm : Nat) : KernelM Int := do
  let frame ← allocateFrame
  if userTop ≤ address ∨ address % pageSize ≠ 0 then
    return eInval
  else if perm &&& (wordSize - 1 - (permAvailable ||| permWriteable)) ≠ permUser then
    return eInval
  else
    let page ← staticKernelVirtualAddress (toPhysicalAddress frame)
    modify fun state => state.writeFrame page Page.zero
    mapFrame ((← get).envs slot).envPageDirectory frame address perm
    return 0

end Fos.Kernel
