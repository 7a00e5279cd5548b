import Fos.Foundation.Counting
import Fos.Foundation.Runs
import Fos.Kernel.Places

/-! The mapping calls of `kern/memory_manager.c` on any number of page directories, as a system:
a frame may be mapped at several pages and in several directories. -/

set_option autoImplicit false

namespace Fos.Kernel

open Foundation

/-- The page directory of a new environment, as `env_create` and `initialize_environment` make it. -/
def createPageDirectory (slot : Nat) : KernelM Nat := do
  let frame ← allocateFrame
  modify fun state => state.setReferences frame 1
  let directory ← staticKernelVirtualAddress (toPhysicalAddress frame)
  modifyEnv slot fun env => { env with
    envPageDirectory := directory
    envCr3 := toPhysicalAddress directory }
  modify fun state => state.writeFrame directory fun index =>
    if index < pdx userTop then 0 else state.mem state.ptrPageDirectory index
  return directory

/-! ### Entries of a directory -/

namespace KernelState

variable (state : KernelState)

/-- The frame of the page table of a page. -/
def tableFrame (directory page : Nat) : Nat := frameOf (state.mem directory (page / 1024))

/-- The page table entry of a page below `USER_TOP`, 0 without a table. -/
def entry (directory page : Nat) : Nat :=
  if state.mem directory (page / 1024) = 0 then 0 else state.mem (state.tableFrame directory page) (page % 1024)

/-- The frame is one of the directories, or a page table of one of them. -/
def Node (directories : List Nat) (frame : Nat) : Prop :=
  frame ∈ directories ∨
    ∃ directory ∈ directories, ∃ index < userTables,
      state.mem directory index ≠ 0 ∧ frameOf (state.mem directory index) = frame

instance (directories : List Nat) (frame : Nat) : Decidable (state.Node directories frame) :=
  inferInstanceAs (Decidable (_ ∨ _))

/-- The frame a page table entry names; entries are those of the pages of the directories. -/
def entryNames (directories : List Nat) : Nat × Nat → Option Nat := fun place =>
  if place.1 ∈ directories ∧ state.entry place.1 place.2 ≠ 0 then some (frameOf (state.entry place.1 place.2)) else none

/-- The directories that are possible, each with its pages below `USER_TOP`. -/
def entryPlaces : Finset (Nat × Nat) := Finset.range state.numberOfFrames ×ˢ Finset.range userPages

/-- The number of nonzero page table entries that name a frame. -/
def entriesNaming (directories : List Nat) (frame : Nat) : Nat :=
  namings state.entryPlaces (state.entryNames directories) frame

end KernelState

/-! ### The system -/

/-- The kernel, with the page directories there are and the frame last mapped at each page of each
directory and not unmapped since. -/
structure Mappings where
  kernel : KernelState
  directories : List Nat
  lastMapped : Nat → Nat → Option Nat

namespace Mappings

def setLastMapped (state : Mappings) (directory page : Nat) (frame : Option Nat) : Mappings :=
  { state with
    lastMapped := fun other number =>
      if other = directory ∧ number = page then frame else state.lastMapped other number }

end Mappings

inductive MappingCall where
  | allocateFrame
  | createPageDirectory (slot : Nat)
  | mapFrame (directory frame address perm : Nat)
  | loadtimeMapFrame (directory frame address perm : Nat)
  | unmapFrame (directory address : Nat)
  | ptSetPagePermissions (slot address set clear : Nat)

namespace Mappings

/-- Kernel code that comes back; a panic ends the run. -/
def after {Result : Type} (state : Mappings) (program : KernelM Result) (record : Result → Mappings → Mappings) :
    Option Mappings :=
  match program state.kernel with
  | .ok result next => some (record result { state with kernel := next })
  | .error _ _ => none

def exec (state : Mappings) : MappingCall → Option Mappings
  | .allocateFrame => state.after Kernel.allocateFrame fun _ next => next
  | .createPageDirectory slot =>
      state.after (Kernel.createPageDirectory slot) fun directory next =>
        { next with
          directories := directory :: next.directories
          lastMapped := fun other page => if other = directory then none else next.lastMapped other page }
  | .mapFrame directory frame address perm =>
      state.after (Kernel.mapFrame directory frame address perm) fun _ next =>
        next.setLastMapped directory (pageOf address) (some frame)
  | .loadtimeMapFrame directory frame address perm =>
      state.after (Kernel.loadtimeMapFrame directory frame address perm) fun _ next =>
        next.setLastMapped directory (pageOf address) (some frame)
  | .unmapFrame directory address =>
      state.after (Kernel.unmapFrame directory address) fun _ next =>
        next.setLastMapped directory (pageOf address) none
  | .ptSetPagePermissions slot address set clear =>
      state.after (Kernel.ptSetPagePermissions slot address set clear) fun _ next => next

/-- The booted kernel, whose directory maps no user page. -/
def system (layout : BootLayout) : Foundation.System Mappings MappingCall where
  start := fun state => ∃ ram disk, state = ⟨layout.boot ram disk, [layout.pageDirectory], fun _ _ => none⟩
  exec := exec

/-- A user page of one of the directories. -/
def UserPageOf (state : Mappings) (directory address : Nat) : Prop :=
  directory ∈ state.directories ∧ address < userTop

instance (state : Mappings) (directory address : Nat) : Decidable (state.UserPageOf directory address) :=
  inferInstanceAs (Decidable (_ ∧ _))

/-- The frame came from `allocate_frame` and is not free now, and `perm` holds permission bits. -/
def MayMap (layout : BootLayout) (state : Mappings) (directory frame address perm : Nat) : Prop :=
  state.UserPageOf directory address ∧ layout.Managed frame ∧ frame ∉ state.kernel.freeFrameList ∧ perm < pageSize

instance (layout : BootLayout) (state : Mappings) (directory frame address perm : Nat) :
    Decidable (state.MayMap layout directory frame address perm) :=
  inferInstanceAs (Decidable (_ ∧ _))

end Mappings

end Fos.Kernel
