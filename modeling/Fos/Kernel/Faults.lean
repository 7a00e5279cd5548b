import Fos.Kernel.Environment

/-! Page and table faults of the running environment: `kern/trap.c`, with
`isBufferingEnabled()` false. -/

set_option autoImplicit false

namespace Fos.Kernel

/-- `LIST_LAST`, where the caller dereferences it. -/
def listLast (elements : List Nat) : KernelM Nat :=
  match elements.getLast? with
  | some element => return element
  | none => undefined "LIST_LAST of an empty list"

def setVirtualAddress (slot element address : Nat) : KernelM Unit :=
  modifyEnv slot fun env =>
    env.setElement element { env.ptrPageWorkingSet element with virtualAddress := address }

/-- The end of every branch that brings the faulted page into memory: a frame is mapped,
the page is read from the page file, a stack page that is not there gets a place in it,
and the element goes to the head of `ActiveList`. -/
def bringIn (slot element faultVa : Nat) : KernelM Unit := do
  let frame ← allocateFrame
  mapFrame ((← get).envs slot).envPageDirectory frame faultVa
    (permUser ||| permWriteable ||| permPresent)
  if (← pfReadEnvPage slot faultVa) = ePageNotExistInPF then
    if faultVa < ustackTop ∧ ustackBottom ≤ faultVa then
      let _ ← pfAddEmptyEnvPage slot faultVa false
      modifyEnv slot fun env => { env with activeList := element :: env.activeList }
    else
      panic "Illegal memory access to page that's not exist in Page File and not STACK\n"
  else
    modifyEnv slot fun env => { env with activeList := element :: env.activeList }

/-- `ActiveList` has room: the last unused element takes the page. -/
def placeInActive (slot faultVa : Nat) : KernelM Unit := do
  let element ← listLast ((← get).envs slot).pageWorkingSetList
  modifyEnv slot fun env => { env with
    pageWorkingSetList := env.pageWorkingSetList.erase element }
  setVirtualAddress slot element faultVa
  bringIn slot element faultVa

/-- The page is in `SecondList`: it trades places with the tail of `ActiveList`. -/
def secondListHit (slot element : Nat) : KernelM Unit := do
  modifyEnv slot fun env => { env with secondList := env.secondList.erase element }
  ptSetPagePermissions slot (((← get).envs slot).ptrPageWorkingSet element).virtualAddress
    permPresent 0
  let activeTail ← listLast ((← get).envs slot).activeList
  modifyEnv slot fun env => { env with activeList := env.activeList.erase activeTail }
  ptSetPagePermissions slot (((← get).envs slot).ptrPageWorkingSet activeTail).virtualAddress
    0 permPresent
  modifyEnv slot fun env => { env with activeList := element :: env.activeList }
  modifyEnv slot fun env => { env with secondList := activeTail :: env.secondList }

/-- `ActiveList` is full, and an element is still unused: the tail of `ActiveList` moves
to `SecondList`. -/
def placeBehindDemotion (slot faultVa : Nat) : KernelM Unit := do
  let activeTail ← listLast ((← get).envs slot).activeList
  modifyEnv slot fun env => { env with activeList := env.activeList.erase activeTail }
  ptSetPagePermissions slot (((← get).envs slot).ptrPageWorkingSet activeTail).virtualAddress
    0 permPresent
  modifyEnv slot fun env => { env with secondList := activeTail :: env.secondList }
  let element ← listLast ((← get).envs slot).pageWorkingSetList
  modifyEnv slot fun env => { env with
    pageWorkingSetList := env.pageWorkingSetList.erase element }
  setVirtualAddress slot element faultVa
  bringIn slot element faultVa

/-- A modified page is written to its place in the page file. -/
def writeBackIfModified (slot address permissions : Nat) (frame : Option Nat) :
    KernelM Unit := do
  if permissions &&& permModified ≠ 0 then
    let _ ← pfUpdateEnvPage slot address frame

/-- No element is unused and there is no second list: the tail of `ActiveList` is
replaced. -/
def replaceActiveTail (slot faultVa : Nat) : KernelM Unit := do
  let activeTail ← listLast ((← get).envs slot).activeList
  modifyEnv slot fun env => { env with activeList := env.activeList.erase activeTail }
  let env := (← get).envs slot
  let address := (env.ptrPageWorkingSet activeTail).virtualAddress
  let (frame, _) ← getFrameInfo env.envPageDirectory address
  let permissions ← ptGetPagePermissions slot address
  writeBackIfModified slot address permissions frame
  unmapFrame env.envPageDirectory address
  setVirtualAddress slot activeTail faultVa
  bringIn slot activeTail faultVa

/-- No element is unused: the tail of `SecondList` is replaced, and the tail of
`ActiveList` moves to `SecondList`. -/
def replaceSecondTail (slot faultVa : Nat) : KernelM Unit := do
  let secondTail ← listLast ((← get).envs slot).secondList
  let env := (← get).envs slot
  let address := (env.ptrPageWorkingSet secondTail).virtualAddress
  let permissions ← ptGetPagePermissions slot address
  let (frame, _) ← getFrameInfo env.envPageDirectory address
  writeBackIfModified slot address permissions frame
  unmapFrame env.envPageDirectory address
  modifyEnv slot fun env => { env with secondList := env.secondList.erase secondTail }
  setVirtualAddress slot secondTail faultVa
  let activeTail ← listLast ((← get).envs slot).activeList
  ptSetPagePermissions slot (((← get).envs slot).ptrPageWorkingSet activeTail).virtualAddress
    0 permPresent
  modifyEnv slot fun env => { env with activeList := env.activeList.erase activeTail }
  modifyEnv slot fun env => { env with secondList := activeTail :: env.secondList }
  bringIn slot secondTail faultVa

/-- The first element of a list that holds an address. -/
def Env.find (env : Env) (elements : List Nat) (address : Nat) : Option Nat :=
  elements.find? fun element => (env.ptrPageWorkingSet element).virtualAddress = address

def pageFaultHandler (slot faultVa : Nat) : KernelM Unit := do
  let faultVa := roundDown faultVa
  let env := (← get).envs slot
  if env.pageWorkingSetList.length ≠ 0 then
    if (env.activeList.length : Int) ≠ env.activeListSize then
      placeInActive slot faultVa
    else
      match env.find env.secondList faultVa with
      | some element => secondListHit slot element
      | none => placeBehindDemotion slot faultVa
  else
    match env.find env.secondList faultVa with
    | some element => secondListHit slot element
    | none =>
        if env.secondListSize = 0 then
          replaceActiveTail slot faultVa
        else
          replaceSecondTail slot faultVa

def tableFaultHandler (slot faultVa : Nat) : KernelM Unit := do
  let _ ← staticCpt ((← get).envs slot).envPageDirectory faultVa

/-- `fault_handler` for a fault taken in user mode. -/
def faultHandler (faultVa : Nat) : KernelM Unit := do
  if ustackTop ≤ faultVa then
    panic "User: stack underflow exception!"
  else
    match (← get).curenv with
    | none => undefined "curenv == NULL"
    | some slot =>
        let entry := (← get).mem ((← get).envs slot).envPageDirectory (pdx faultVa)
        if hasPerm entry permPresent then
          pageFaultHandler slot faultVa
        else
          tableFaultHandler slot faultVa

end Fos.Kernel
