import Fos.Foundation.Ownership
import Fos.Kernel.Boot
import Fos.Kernel.Words

/-! Where physical frames are named: page directories, page tables and user pages, and
their counterparts in the page file. An environment has two trees of the same shape, so
one development serves both. -/

set_option autoImplicit false

namespace Fos.Kernel

open Foundation

/-- The tree of page tables, and the tree of disk page tables. -/
inductive Side where
  | user | disk
  deriving DecidableEq, Repr

/-- The flags of an entry for a table. -/
def Side.permissions : Side → Nat
  | .user => permPresent ||| permUser ||| permWriteable
  | .disk => permPresent

/-- The number of page tables below `USER_TOP`. -/
abbrev userTables : Nat := pdx userTop

/-- The number of pages below `USER_TOP`. -/
abbrev userPages : Nat := userTables * 1024

namespace KernelState

variable (state : KernelState)

/-- The directory frame of a slot, 0 if it has none. -/
def root : Side → Nat → Nat
  | .user, slot => (state.envs slot).envPageDirectory
  | .disk, slot => (state.envs slot).diskEnvPgdir.getD 0

/-- A directory entry below `USER_TOP`. -/
def dirWord (side : Side) (slot index : Nat) : Nat :=
  if state.root side slot = 0 ∨ userTables ≤ index then 0
  else state.mem (state.root side slot) index

/-- The table entry of a page below `USER_TOP`, 0 without a table. -/
def leaf (side : Side) (slot page : Nat) : Nat :=
  if state.dirWord side slot (page / 1024) = 0 then 0
  else state.mem (frameOf (state.dirWord side slot (page / 1024))) (page % 1024)

end KernelState

/-- The places that name physical frames. -/
inductive Place where
  | root (side : Side) (slot : Nat)
  | table (side : Side) (slot index : Nat)
  | page (slot number : Nat)
  deriving DecidableEq, Repr

/-- The slot a place belongs to. -/
def Place.slot : Place → Nat
  | .root _ slot => slot
  | .table _ slot _ => slot
  | .page slot _ => slot

namespace KernelState

variable (state : KernelState)

def names : Place → Option Nat
  | .root side slot => if state.root side slot = 0 then none else some (state.root side slot)
  | .table side slot index =>
      if state.dirWord side slot index = 0 then none
      else some (frameOf (state.dirWord side slot index))
  | .page slot number =>
      if state.leaf .user slot number = 0 then none
      else some (frameOf (state.leaf .user slot number))

/-- Disk frames are named by the entries of disk page tables. -/
def diskNames : Nat × Nat → Option Nat := fun place =>
  if state.leaf .disk place.1 place.2 = 0 then none
  else some (state.leaf .disk place.1 place.2)

/-- The frame is in hand: taken from the free list and not mapped yet. -/
abbrev Fresh (frame : Nat) : Prop := Foundation.Fresh state.freeFrameList state.names frame

variable {state}

theorem names_root {side : Side} {slot : Nat} (live : state.root side slot ≠ 0) :
    state.names (.root side slot) = some (state.root side slot) := by
  simp [names, live]

theorem names_table {side : Side} {slot index : Nat}
    (present : state.dirWord side slot index ≠ 0) :
    state.names (.table side slot index) = some (frameOf (state.dirWord side slot index)) := by
  simp [names, present]

theorem names_page {slot number : Nat} (mapped : state.leaf .user slot number ≠ 0) :
    state.names (.page slot number) = some (frameOf (state.leaf .user slot number)) := by
  simp [names, mapped]

theorem root_ne_zero_of_dirWord {side : Side} {slot index : Nat}
    (present : state.dirWord side slot index ≠ 0) :
    state.root side slot ≠ 0 ∧ index < userTables := by
  unfold dirWord at present
  split at present
  · exact absurd rfl present
  · next inside =>
      obtain ⟨live, low⟩ := not_or.1 inside
      exact ⟨live, not_le.1 low⟩

theorem dirWord_eq_mem {side : Side} {slot index : Nat} (live : state.root side slot ≠ 0)
    (low : index < userTables) :
    state.dirWord side slot index = state.mem (state.root side slot) index :=
  if_neg (not_or.2 ⟨live, not_le.2 low⟩)

theorem dirWord_ne_zero_of_leaf {side : Side} {slot page : Nat}
    (mapped : state.leaf side slot page ≠ 0) : state.dirWord side slot (page / 1024) ≠ 0 := by
  intro absent
  exact mapped (if_pos absent)

theorem leaf_eq_mem {side : Side} {slot page : Nat}
    (present : state.dirWord side slot (page / 1024) ≠ 0) :
    state.leaf side slot page =
      state.mem (frameOf (state.dirWord side slot (page / 1024))) (page % 1024) :=
  if_neg present

theorem leaf_of_dirWord_eq_zero {side : Side} {slot page : Nat}
    (absent : state.dirWord side slot (page / 1024) = 0) : state.leaf side slot page = 0 :=
  if_pos absent

theorem page_lt_of_leaf {side : Side} {slot page : Nat}
    (mapped : state.leaf side slot page ≠ 0) : page < userPages := by
  have low := (root_ne_zero_of_dirWord (dirWord_ne_zero_of_leaf mapped)).2
  simp only [userPages]
  omega

end KernelState

/-- The entries of a directory from `USER_TOP` on: those of the boot-time directory, with
the directory itself at `VPT` and `UVPT`. Disk page directories have none. -/
def BootLayout.upperWord (layout : BootLayout) (side : Side) (directory index : Nat) : Nat :=
  match side with
  | .disk => 0
  | .user =>
      if index = pdx vpt then toPhysicalAddress directory ||| permPresent ||| permWriteable
      else if index = pdx uvpt then toPhysicalAddress directory ||| permPresent ||| permUser
      else layout.directoryWord index

/-- The kernel's own memory is as boot left it, and every directory is well formed. -/
structure Core (layout : BootLayout) (ram : Nat → Page) (state : KernelState) : Prop where
  size : state.numberOfFrames = layout.numberOfFrames
  directory : state.ptrPageDirectory = layout.pageDirectory
  kernel : ∀ frame, ¬ layout.Managed frame → state.mem frame = layout.bootMem ram frame
  words : ∀ side slot index, state.dirWord side slot index ≠ 0 →
    state.dirWord side slot index = constructEntry
      (toPhysicalAddress (frameOf (state.dirWord side slot index))) side.permissions
  upper : ∀ side slot index, state.root side slot ≠ 0 → userTables ≤ index → index < 1024 →
    state.mem (state.root side slot) index =
      layout.upperWord side (state.root side slot) index
  physical : ∀ slot, (state.envs slot).envCr3 =
    toPhysicalAddress (state.envs slot).envPageDirectory
  physicalDisk : ∀ slot directory, (state.envs slot).diskEnvPgdir = some directory →
    (state.envs slot).diskEnvPgdirPA = toPhysicalAddress directory ∧ directory ≠ 0

/-- No frame is named twice or while it is free, and every named frame is referenced
once. -/
structure Ledger (layout : BootLayout) (state : KernelState) : Prop where
  exclusive : Exclusive state.freeFrameList state.names
  managedFree : ∀ frame ∈ state.freeFrameList, layout.Managed frame
  managed : ∀ place frame, state.names place = some frame → layout.Managed frame
  references : ∀ place frame, state.names place = some frame → state.references frame = 1
  diskExclusive : Exclusive state.diskFreeFrameList state.diskNames
  diskPositive : ∀ diskFrame ∈ state.diskFreeFrameList, diskFrame ≠ 0

/-- What every kernel operation preserves. -/
structure Inv (layout : BootLayout) (ram : Nat → Page) (state : KernelState) : Prop
    extends Core layout ram state, Ledger layout state

/-- What an environment may use: free frames, the frames its own places name, and the
frame in hand. -/
def KernelState.Held (state : KernelState) (slot : Nat) (hand : List Nat) (frame : Nat) : Prop :=
  frame ∈ state.freeFrameList ∨
    (∃ place : Place, place.slot = slot ∧ state.names place = some frame) ∨ frame ∈ hand

def KernelState.HeldDisk (state : KernelState) (slot diskFrame : Nat) : Prop :=
  diskFrame ∈ state.diskFreeFrameList ∨ ∃ page, state.diskNames (slot, page) = some diskFrame

end Fos.Kernel
