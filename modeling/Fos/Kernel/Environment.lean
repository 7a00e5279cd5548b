import Fos.Kernel.MemoryCalls

/-! Loading and freeing environments: `kern/user_environment.c`. -/

set_option autoImplicit false

namespace Fos.Kernel

/-- `NENV`, for the 32-bit layout of `struct Env`. -/
abbrev nenv : Nat := 12

/-- A program segment as `PROGRAM_SEGMENT_FOREACH` delivers it. -/
structure ProgramSegment where
  ptrStart : Nat
  sizeInFile : Nat
  sizeInMemory : Nat
  virtualAddress : Nat

/-- A user program: its name, the bytes the kernel sees from its start on, and its
LOAD segments. -/
structure UserProgram where
  name : String
  image : Nat → Nat
  segments : List ProgramSegment

/-! ### Initialization -/

def completeEnvironmentInitialization (slot : Nat) : KernelM Unit := do
  let env := (← get).envs slot
  modify fun state => state.writeWord env.envPageDirectory (pdx vpt)
    (env.envCr3 ||| permPresent ||| permWriteable)
  modify fun state => state.writeWord env.envPageDirectory (pdx uvpt)
    (env.envCr3 ||| permPresent ||| permUser)
  let candidate := toInt32 (toUInt32 (env.envId + 0x1000) &&& (wordSize - 1 - (nenv - 1)))
  let generation := if candidate ≤ 0 then 0x1000 else candidate
  let state ← get
  let parent := match state.curenv with
    | none => 0
    | some current => (state.envs current).envId
  modifyEnv slot fun env => { env with
    diskEnvPgdir := none
    diskEnvPgdirPA := 0
    envId := toInt32 (toUInt32 generation ||| slot)
    envParentId := parent
    envStatus := .new }
  modify fun state => state.setEnvFreeList (state.envFreeList.erase slot)

def initializeEnvironment (slot directory : Nat) : KernelM Unit := do
  modifyEnv slot fun env => { env with
    envPageDirectory := directory
    envCr3 := toPhysicalAddress directory }
  modify fun state => state.writeFrame directory fun index =>
    if index < pdx userTop then 0 else state.mem state.ptrPageDirectory index
  let size := ((← get).envs slot).pageWSMaxSize
  if pwsMaxSize < size then
    undefined "ptr_pageWorkingSet beyond __PWS_MAX_SIZE"
  else
    modifyEnv slot fun env => { env with
      pageWorkingSetList := (List.range size).reverse ++ env.pageWorkingSetList
      ptrPageWorkingSet := fun index =>
        if index < size then ⟨0, true⟩ else env.ptrPageWorkingSet index
      pageLastWSIndex := 0
      tableLastWSIndex := 0 }
    completeEnvironmentInitialization slot

/-! ### Loading -/

/-- The working-set bookkeeping of one loaded page: the element at
`page_last_WS_index` leaves `PageWorkingSetList` for `ActiveList` while that has
fewer than `limit` elements, else for `SecondList`. -/
def recordLoadedPage (slot address limit : Nat) : KernelM Unit := do
  let env := (← get).envs slot
  let element := env.pageLastWSIndex
  if pwsMaxSize ≤ element then
    undefined "ptr_pageWorkingSet beyond __PWS_MAX_SIZE"
  if element ∉ env.pageWorkingSetList then
    undefined "LIST_REMOVE of an element that is not in PageWorkingSetList"
  modifyEnv slot fun env => { env.setElement element ⟨address, false⟩ with
    pageWorkingSetList := env.pageWorkingSetList.erase element }
  if env.activeList.length < limit then
    modifyEnv slot fun env => { env with activeList := element :: env.activeList }
  else
    modifyEnv slot fun env => { env with secondList := element :: env.secondList }
  if env.pageWSMaxSize = 0 then
    panic "unhandled trap in kernel"
  modifyEnv slot fun env => { env with
    pageLastWSIndex := (env.pageLastWSIndex + 1) % env.pageWSMaxSize }

/-- `addTableToTableWorkingSet`, with the check its caller makes. -/
def addTableToTableWorkingSet (slot : Nat) : KernelM Unit := do
  modifyEnv slot fun env => { env with
    tableLastWSIndex := (env.tableLastWSIndex + 1) % twsMaxSize }
  if ((← get).envs slot).tableLastWSIndex = 0 then
    panic "\nenv_create: Table working set become FULL during the application loading. Please increase the table working set size to be able to load the program successfully\n"

/-- The mapping loop of `program_segment_alloc_map_copy_workingset`, from one page
on. `lastTableNumber` is threaded through all segments. -/
def mapSegmentPages (slot : Nat) : Nat → Nat → Nat → KernelM Nat
  | _, 0, lastTableNumber => pure lastTableNumber
  | address, count + 1, lastTableNumber => do
      let frame ← allocateFrame
      loadtimeMapFrame ((← get).envs slot).envPageDirectory frame address
        (permUser ||| permWriteable)
      recordLoadedPage slot address (toUInt32 (((← get).envs slot).activeListSize - 1))
      if pdx address ≠ lastTableNumber then
        addTableToTableWorkingSet slot
      mapSegmentPages slot (address + pageSize) count (pdx address)

/-- The byte the copying loops leave at an address of a loaded page. -/
def segmentByte (program : UserProgram) (segment : ProgramSegment) (old : Nat)
    (address : Nat) : Nat :=
  if address < segment.virtualAddress then
    old
  else if address < segment.virtualAddress + segment.sizeInFile then
    program.image (segment.ptrStart + (address - segment.virtualAddress))
  else
    0

def copySegmentPages (program : UserProgram) (segment : ProgramSegment) :
    Nat → Nat → KernelM Unit
  | _, 0 => pure ()
  | address, count + 1 => do
      modifyMappedPage address fun old => Page.ofBytes fun offset =>
        segmentByte program segment (old.byte offset) (address + offset)
      copySegmentPages program segment (address + pageSize) count

/-- `program_segment_alloc_map_copy_workingset`: the pages allocated and the last
table number. -/
def programSegmentAllocMapCopyWorkingset (slot : Nat) (program : UserProgram)
    (segment : ProgramSegment) (remainingWSPages lastTableNumber : Nat) :
    KernelM (Nat × Nat) := do
  let first := roundDown segment.virtualAddress
  let last := roundUp ((segment.virtualAddress + segment.sizeInMemory) % wordSize)
  let remaining :=
    if first = 0x200000 ∧ ((← get).envs slot).progName ≠ "tpp" then min remainingWSPages 6
    else remainingWSPages
  let allocatedPages := min ((last - first) / pageSize) remaining
  let lastTableNumber ← mapSegmentPages slot first allocatedPages lastTableNumber
  copySegmentPages program segment first allocatedPages
  return (allocatedPages, lastTableNumber)

def outOfPageFile : KernelM Unit :=
  panic "ERROR: Page File OUT OF SPACE. can't load the program in Page file!!"

/-- The middle pages of a segment go to the page file straight from the image. -/
def addSegmentPages (slot : Nat) (program : UserProgram) : Nat → Nat → Nat → KernelM Unit
  | _, _, 0 => pure ()
  | address, source, count + 1 => do
      if (← pfAddEnvPage slot address
          (Page.ofBytes fun offset => program.image (source + offset))) = eNoPageFileSpace then
        outOfPageFile
      addSegmentPages slot program (address + pageSize) (source + pageSize) count

def addZeroPages (slot : Nat) : Nat → Nat → KernelM Unit
  | _, 0 => pure ()
  | address, count + 1 => do
      if (← pfAddEmptyEnvPage slot address true) = eNoPageFileSpace then
        outOfPageFile
      addZeroPages slot (address + pageSize) count

/-- The page-file image of a segment: first page, middle pages, last page, and the
area beyond the file. -/
def addSegmentToPageFile (slot : Nat) (program : UserProgram) (segment : ProgramSegment) :
    KernelM Unit := do
  let va := segment.virtualAddress
  let startFirstPage := roundDown va
  let endFirstPage := roundUp va
  let firstPage := Page.ofBytes fun offset =>
    if va - startFirstPage ≤ offset ∧ startFirstPage + offset < endFirstPage then
      program.image (segment.ptrStart + (offset - (va - startFirstPage)))
    else 0
  if (← pfAddEnvPage slot startFirstPage firstPage) = eNoPageFileSpace then
    outOfPageFile
  let endLastPage := (va + segment.sizeInFile) % wordSize
  let startLastPage := roundDown endLastPage
  let middlePages := (startLastPage - endFirstPage) / pageSize
  let middleSource := segment.ptrStart + (endFirstPage - va)
  addSegmentPages slot program endFirstPage middleSource middlePages
  let lastSource := middleSource + middlePages * pageSize
  let lastPage := Page.ofBytes fun offset =>
    if startLastPage + offset < endLastPage then program.image (lastSource + offset) else 0
  if (← pfAddEnvPage slot startLastPage lastPage) = eNoPageFileSpace then
    outOfPageFile
  let startRemainingArea := roundUp endLastPage
  let remainingLength :=
    (va + segment.sizeInMemory + (wordSize - startRemainingArea)) % wordSize
  addZeroPages slot startRemainingArea (roundUp remainingLength / pageSize)

/-- The body of `PROGRAM_SEGMENT_FOREACH` in `env_create`, for all segments. -/
def loadSegments (slot : Nat) (program : UserProgram) :
    List ProgramSegment → Nat → Nat → KernelM Unit
  | [], _, _ => pure ()
  | segment :: rest, remainingWSPages, lastTableNumber => do
      let (allocatedPages, lastTableNumber) ←
        programSegmentAllocMapCopyWorkingset slot program segment remainingWSPages lastTableNumber
      addSegmentToPageFile slot program segment
      loadSegments slot program rest (remainingWSPages - allocatedPages) lastTableNumber

/-- The modified bits of the pages in the working set are cleared. -/
def clearModifiedBits (slot : Nat) : KernelM Unit := do
  let size := ((← get).envs slot).pageWSMaxSize
  loopFrom (fun index => do
    let env := (← get).envs slot
    let element := env.ptrPageWorkingSet index
    if ¬ element.empty then
      match ← getPageTable env.envPageDirectory element.virtualAddress with
      | none => undefined "ptr_page_table == NULL"
      | some table =>
          modify fun state => state.writeWord table (ptx element.virtualAddress)
            (changePerm (state.mem table (ptx element.virtualAddress)) 0 permModified)) 0 size

/-- The one page of the initial stack. -/
def allocateStackPage (slot : Nat) : KernelM Unit := do
  let stackVa := ustackTop - pageSize
  let frame ← allocateFrame
  loadtimeMapFrame ((← get).envs slot).envPageDirectory frame stackVa (permUser ||| permWriteable)
  modifyMappedPage stackVa fun _ => Page.zero
  let env := (← get).envs slot
  if env.pageWSMaxSize ≤ env.pageLastWSIndex then
    panic "assertion failed: entry_index >= 0 && entry_index < e->page_WS_max_size"
  recordLoadedPage slot stackVa (toUInt32 env.activeListSize)
  let _ ← pfAddEmptyEnvPage slot stackVa true

/-- The present bits of the pages in `SecondList` are cleared. -/
def clearPresentBits (slot : Nat) : List Nat → KernelM Unit
  | [] => pure ()
  | element :: rest => do
      ptSetPagePermissions slot (((← get).envs slot).ptrPageWorkingSet element).virtualAddress
        0 permPresent
      clearPresentBits slot rest

/-- `env_create`, for the program `get_user_program_info` finds. NULL is `none`. -/
def envCreate (program : Option UserProgram) (pageWSSize secondListSize : Nat) :
    KernelM (Option Nat) := do
  match program with
  | none => return none
  | some program =>
    match (← get).envFreeList with
    | [] => return none
    | slot :: _ =>
      modifyEnv slot fun env => { env with
        envStatus := .unknown
        progName := program.name }
      let frame ← allocateFrame
      modify fun state => state.setReferences frame 1
      let directory ← staticKernelVirtualAddress (toPhysicalAddress frame)
      modifyEnv slot fun env => { env with
        pageWSMaxSize := pageWSSize
        secondListSize := toInt32 secondListSize
        activeListSize := toInt32 ((pageWSSize + (wordSize - secondListSize)) % wordSize) }
      initializeEnvironment slot directory
      let kernPhysPgdir := (← get).cr3
      modify fun state => state.setCr3 (state.envs slot).envCr3
      loadSegments slot program program.segments ((pageWSSize + (wordSize - 1)) % wordSize) 0xFFFFFFFF
      clearModifiedBits slot
      allocateStackPage slot
      clearPresentBits slot ((← get).envs slot).secondList
      modify fun state => state.setCr3 kernPhysPgdir
      return some slot

/-! ### Freeing -/

/-- The body of the two list loops of `env_free`, for one list. -/
def envFreeElement (slot : Nat) (remove : Env → Nat → Env) (element : Nat) : KernelM Unit := do
  let env := (← get).envs slot
  let address := (env.ptrPageWorkingSet element).virtualAddress
  match ← getFrameInfo env.envPageDirectory address with
  | (_, none) => return ()
  | (_, some _) =>
      unmapFrame env.envPageDirectory address
      modifyEnv slot fun env => remove env element
      modifyEnv slot fun env =>
        { env.setElement element { env.ptrPageWorkingSet element with empty := true } with
          pageWorkingSetList := element :: env.pageWorkingSetList }

def envFreeTable (slot index : Nat) : KernelM Unit := do
  let directory := ((← get).envs slot).envPageDirectory
  let entry := (← get).mem directory index
  if extractAddress entry ≠ 0 then
    let frame ← toFrameInfo (extractAddress entry)
    if (← get).references frame ≠ 0 then
      modify fun state => state.setReferences frame 0
      freeFrame frame
    modify fun state => state.writeWord directory index 0

def freeEnvironment (slot : Nat) : KernelM Unit := do
  modify fun state => state.setEnv slot Env.zero
  modify fun state => state.setEnvFreeList (slot :: state.envFreeList)

def envFree (slot : Nat) : KernelM Unit := do
  listForeach (secondListOf slot)
    (envFreeElement slot fun env element => { env with secondList := env.secondList.erase element })
    listRounds ((← get).envs slot).secondList.head?
  listForeach (activeListOf slot)
    (envFreeElement slot fun env element => { env with activeList := env.activeList.erase element })
    listRounds ((← get).envs slot).activeList.head?
  loopFrom (envFreeTable slot) 0 (pdx userTop)
  freeFrame (← toFrameInfo ((← get).envs slot).envCr3)
  pfFreeEnv slot
  freeEnvironment slot

end Fos.Kernel
