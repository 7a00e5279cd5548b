import Fos.Layout
import Fos.Foundation.Runs

/-! The user heap: `malloc` and `free` of `lib/uheap.c`. -/

set_option autoImplicit false

namespace Fos.UserHeap

structure Info where
  strAddress : Nat
  endAddress : Nat
  pages : Int
  isFree : Bool
  deriving DecidableEq, Repr

/-- A slot no call has written yet. -/
def Info.zero : Info := ⟨0, 0, 0, false⟩

/-- What a merge leaves in the slot it gives up. -/
def Info.removed : Info := ⟨0, 0, -1, false⟩

/-- The number of pages of the heap, and of the slots of `spaces`. -/
abbrev numPages : Nat := (userHeapMax - userHeapStart) / pageSize

/-- Why a call does not return. -/
inductive Fault where
  | slotBeyondSpaces
  | panic (message : String)
  deriving DecidableEq, Repr

/-- The memory system call a library call ends in. -/
inductive SystemCall where
  | allocateMem (address size : Nat)
  | freeMem (address size : Nat)
  deriving DecidableEq, Repr

/-- What a call leaves behind. `spaces` stands for the slots below `arraySize`. -/
structure Outcome where
  spaces : List Info
  pointer : Nat
  systemCall : Option SystemCall
  deriving DecidableEq, Repr

def slot (spaces : List Info) (index : Nat) : Info := spaces.getD index Info.zero

/-! ### malloc -/

/-- The first call makes the whole heap one free space. -/
def initializeSpaces (spaces : List Info) : List Info :=
  if spaces.length = 0 then [⟨userHeapStart, userHeapMax, numPages, true⟩] else spaces

/-- The search loop from slot `i` on: the index of the smallest space that is large
enough, the first of several. -/
def searchBestFit (reqPages : Int) : List Info → Nat → Int → Option Nat → Option Nat
  | [], _, _, index => index
  | space :: rest, i, minDiff, index =>
      if space.isFree ∧ reqPages ≤ space.pages ∧ space.pages - reqPages < minDiff then
        searchBestFit reqPages rest (i + 1) (space.pages - reqPages) (some i)
      else
        searchBestFit reqPages rest (i + 1) minDiff index

/-- `reqPages`: the size in pages, after rounding it up. -/
def reqPagesOf (size : Nat) : Nat := roundUp size / pageSize

def malloc (size : Nat) (spaces : List Info) : Except Fault Outcome :=
  let spaces := initializeSpaces spaces
  let reqPages := reqPagesOf size
  match searchBestFit reqPages spaces 0 (numPages + 1) none with
  | none => .ok ⟨spaces, 0, none⟩
  | some index =>
      let space := slot spaces index
      let systemCall := SystemCall.allocateMem space.strAddress (reqPages * pageSize)
      if reqPages = space.pages then
        .ok ⟨spaces.set index { space with isFree := false }, space.strAddress, systemCall⟩
      else if spaces.length = numPages then
        .error .slotBeyondSpaces
      else
        let newEnd := space.strAddress + reqPages * pageSize
        .ok ⟨spaces.set index
              { space with endAddress := newEnd, pages := reqPages, isFree := false } ++
            [⟨newEnd, space.endAddress, space.pages - reqPages, true⟩],
          space.strAddress, systemCall⟩

/-! ### free -/

/-- A merge loop: the first free space that meets the freed one takes it over, and
the slot of the freed space is given up. -/
def mergeInto (meets : Info → Info → Bool) (joined : Info → Info → Info) (index : Nat)
    (spaces : List Info) : Option (List Info) :=
  match spaces.findIdx? fun space => space.isFree && meets (slot spaces index) space with
  | none => none
  | some i => some ((spaces.set i (joined (slot spaces index) (slot spaces i))).set index
      Info.removed)

/-- The first loop: into a space that ends where the freed one starts. -/
def mergeLeft : Nat → List Info → Option (List Info) :=
  mergeInto (fun freed space => freed.strAddress == space.endAddress) fun freed space =>
    { space with endAddress := freed.endAddress, pages := space.pages + freed.pages }

/-- The second loop: into a space that starts where the freed one ends. -/
def mergeRight : Nat → List Info → Option (List Info) :=
  mergeInto (fun freed space => freed.endAddress == space.strAddress) fun freed space =>
    { space with strAddress := freed.strAddress, pages := space.pages + freed.pages }

def free (virtualAddress : Nat) (spaces : List Info) : Except Fault Outcome :=
  match spaces.findIdx? fun space => space.strAddress == virtualAddress with
  | none => .error (.panic "Error")
  | some index =>
      let systemCall := SystemCall.freeMem virtualAddress
        (toUInt32 ((slot spaces index).pages * pageSize))
      let merged := match mergeLeft index spaces with
        -- the second loop runs on the slot the first has given up
        | some merged => (mergeRight index merged).getD merged
        | none => (mergeRight index spaces).getD
            (spaces.set index { slot spaces index with isFree := true })
      .ok ⟨merged, virtualAddress, systemCall⟩

/-! ### Programs -/

/-- A pointer `malloc` returned and the size it was asked for. -/
structure Allocation where
  pointer : Nat
  size : Nat
  deriving DecidableEq, Repr

inductive Request where
  | malloc (size : Nat)
  | free (pointer : Nat)
  deriving DecidableEq, Repr

/-- The heap of a program, with the allocations it has not freed yet. -/
structure Session where
  spaces : List Info
  live : List Allocation
  deriving DecidableEq, Repr

def Session.initial : Session := ⟨[], []⟩

/-- A program frees only live pointers. -/
def Session.exec (session : Session) : Request → Option Session
  | .malloc size =>
      match malloc size session.spaces with
      | .error _ => none
      | .ok outcome => some {
          spaces := outcome.spaces
          live := if outcome.pointer = 0 then session.live
            else ⟨outcome.pointer, size⟩ :: session.live }
  | .free pointer =>
      if pointer ∈ session.live.map Allocation.pointer then
        match free pointer session.spaces with
        | .error _ => none
        | .ok outcome => some {
            spaces := outcome.spaces
            live := session.live.eraseP fun allocation => allocation.pointer == pointer }
      else
        none

def sessions : Foundation.System Session Request where
  start := (· = Session.initial)
  exec := Session.exec

/-- The sizes that round up to at least one page without wrapping. -/
def Request.Sized : Request → Prop
  | .malloc size => 0 < size ∧ size ≤ 0xFFFFF000
  | .free _ => True

instance : DecidablePred Request.Sized
  | .malloc _ => inferInstanceAs (Decidable (_ ∧ _))
  | .free _ => inferInstanceAs (Decidable True)

/-- The spaces that no merge has removed. -/
def inUse (spaces : List Info) : List Info := spaces.filter fun space => space.pages ≠ -1

end Fos.UserHeap
