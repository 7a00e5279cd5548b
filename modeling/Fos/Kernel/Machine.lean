import Fos.Layout
import Mathlib.Tactic.Simps.Basic

/-! The machine the kernel runs on: page-table entries of `inc/mmu.h`, physical memory,
and the kernel state.

Physical memory is a table of frames of 1024 words. Page directories, page
tables, disk page tables and user pages all live in it, so that sharing a frame
is a fact about frame numbers in entries. A kernel pointer to a whole frame is
the number of that frame. -/

set_option autoImplicit false

namespace Fos.Kernel

/-! ### Addresses and entries -/

/-- Page directory index. -/
def pdx (address : Nat) : Nat := (address >>> 22) &&& 0x3FF
/-- Page table index. -/
def ptx (address : Nat) : Nat := (address >>> 12) &&& 0x3FF

abbrev permPresent : Nat := 0x001
abbrev permWriteable : Nat := 0x002
abbrev permUser : Nat := 0x004
abbrev permModified : Nat := 0x040
abbrev permAvailable : Nat := 0xE00

def extractAddress (entry : Nat) : Nat := entry - entry % pageSize
def constructEntry (physical permissions : Nat) : Nat := physical ||| permissions

def hasPerm (entry permission : Nat) : Bool := entry &&& permission == permission

/-- `entry | set`, then `& ~clear`. -/
def changePerm (entry set clear : Nat) : Nat := (entry ||| set) &&& (wordSize - 1 - clear)

/-- `PPN`: the frame a physical address lies in. -/
def frameOf (physical : Nat) : Nat := physical >>> 12

def toPhysicalAddress (frame : Nat) : Nat := frame <<< 12

/-- The words of a page, little-endian bytes packed four at a time. -/
abbrev Page := Nat → Nat

def Page.byte (page : Page) (offset : Nat) : Nat :=
  page (offset / 4) / 256 ^ (offset % 4) % 256

def Page.ofBytes (bytes : Nat → Nat) : Page := fun index =>
  bytes (4 * index) % 256 + 256 * (bytes (4 * index + 1) % 256) +
    65536 * (bytes (4 * index + 2) % 256) + 16777216 * (bytes (4 * index + 3) % 256)

def Page.zero : Page := fun _ => 0

/-! ### State -/

structure WorkingSetElement where
  virtualAddress : Nat
  empty : Bool

inductive EnvStatus where
  | free | ready | runnable | blocked | new | exit | unknown
  deriving DecidableEq, Repr

/-- `struct Env`, without the saved registers, the statistics counters and the
fields no modelled function reads. The three LRU lists hold indices into
`ptrPageWorkingSet`. -/
structure Env where
  envId : Int
  envParentId : Int
  envStatus : EnvStatus
  progName : String
  envPageDirectory : Nat
  envCr3 : Nat
  diskEnvPgdir : Option Nat
  diskEnvPgdirPA : Nat
  pageWSMaxSize : Nat
  ptrPageWorkingSet : Nat → WorkingSetElement
  pageLastWSIndex : Nat
  tableLastWSIndex : Nat
  pageWorkingSetList : List Nat
  activeList : List Nat
  secondList : List Nat
  activeListSize : Int
  secondListSize : Int

/-- The all-zero `struct Env` that `free_environment` leaves. -/
def Env.zero : Env where
  envId := 0
  envParentId := 0
  envStatus := .free
  progName := ""
  envPageDirectory := 0
  envCr3 := 0
  diskEnvPgdir := none
  diskEnvPgdirPA := 0
  pageWSMaxSize := 0
  ptrPageWorkingSet := fun _ => ⟨0, false⟩
  pageLastWSIndex := 0
  tableLastWSIndex := 0
  pageWorkingSetList := []
  activeList := []
  secondList := []
  activeListSize := 0
  secondListSize := 0

def Env.setElement (env : Env) (element : Nat) (value : WorkingSetElement) : Env :=
  { env with ptrPageWorkingSet := fun other =>
      if other = element then value else env.ptrPageWorkingSet other }

/-- `address`es of the elements of a list, in list order. -/
def Env.addresses (env : Env) (elements : List Nat) : List Nat :=
  elements.map fun element => (env.ptrPageWorkingSet element).virtualAddress

structure KernelState where
  mem : Nat → Page
  numberOfFrames : Nat
  ptrPageDirectory : Nat
  references : Nat → Nat
  freeFrameList : List Nat
  disk : Nat → Page
  diskFreeFrameList : List Nat
  envs : Nat → Env
  envFreeList : List Nat
  envNewQueue : List Nat
  envReadyQueue : List Nat
  envExitQueue : List Nat
  curenv : Option Nat
  cr3 : Nat

/-- Why kernel code does not return: a `panic`, or an access the C program has no
defined behaviour for. The state it stopped in is kept. -/
inductive Stop where
  | panic (message : String)
  | undefined (access : String)
  deriving DecidableEq, Repr

abbrev KernelM := EStateM Stop KernelState

def panic {Result : Type} (message : String) : KernelM Result := throw (.panic message)
def undefined {Result : Type} (access : String) : KernelM Result := throw (.undefined access)

/-! ### Primitive state changes -/

@[simps] def KernelState.writeWord (state : KernelState) (frame index word : Nat) : KernelState :=
  { state with
    mem := fun other position =>
      if other = frame ∧ position = index then word else state.mem other position }

@[simps] def KernelState.writeFrame (state : KernelState) (frame : Nat) (page : Page) : KernelState :=
  { state with
    mem := fun other => if other = frame then page else state.mem other }

@[simps] def KernelState.setReferences (state : KernelState) (frame count : Nat) : KernelState :=
  { state with
    references := fun other =>
      if other = frame then count else state.references other }

@[simps] def KernelState.setEnv (state : KernelState) (slot : Nat) (env : Env) : KernelState :=
  { state with
    envs := fun other => if other = slot then env else state.envs other }

@[simps] def KernelState.setFreeFrameList (state : KernelState) (frames : List Nat) :
    KernelState :=
  { state with freeFrameList := frames }

@[simps] def KernelState.setDiskFreeFrameList (state : KernelState) (diskFrames : List Nat) :
    KernelState :=
  { state with diskFreeFrameList := diskFrames }

@[simps] def KernelState.setEnvFreeList (state : KernelState) (slots : List Nat) :
    KernelState :=
  { state with envFreeList := slots }

@[simps] def KernelState.setCr3 (state : KernelState) (physical : Nat) : KernelState :=
  { state with cr3 := physical }

def modifyEnv (slot : Nat) (change : Env → Env) : KernelM Unit :=
  modify fun state => state.setEnv slot (change (state.envs slot))

/-- A loop of the kernel that counts `i` up from `first`. -/
def loopFrom (body : Nat → KernelM Unit) : Nat → Nat → KernelM Unit
  | _, 0 => pure ()
  | index, count + 1 => do
      body index
      loopFrom body (index + 1) count

/-! ### Linked lists

A list of the kernel is the sequence of its elements. -/

/-- `LOOP_LIST_NEXT`: the element that follows in the list. -/
def listNext : List Nat → Nat → Option Nat
  | [], _ => none
  | head :: rest, element => if head = element then rest.head? else listNext rest element

/-- `LIST_FOREACH` without `break`: the successor is saved before the body runs.
No list of the kernel has more elements than the fuel it is given. -/
def listForeach (list : KernelState → List Nat) (body : Nat → KernelM Unit) :
    Nat → Option Nat → KernelM Unit
  | 0, _ => pure ()
  | _ + 1, none => pure ()
  | fuel + 1, some element => do
      let next := listNext (list (← get)) element
      body element
      listForeach list body fuel next

end Fos.Kernel
