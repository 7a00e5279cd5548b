import Fos.Kernel.MappingTables

/-! The reference counts of frames beside the page table entries, directories and page tables that
use them. -/

set_option autoImplicit false

namespace Fos.Kernel

open Foundation

variable {layout : BootLayout} {exact : Prop} {directories : List Nat} {state next : KernelState}
  {directory page frame word : Nat}

namespace KernelState

/-- What uses a frame: page table entries, and being a directory or a page table. -/
def pointers (state : KernelState) (directories : List Nat) (frame : Nat) : Nat :=
  state.entriesNaming directories frame + if state.Node directories frame then 1 else 0

theorem pointers_eq_zero (unused : state.pointers directories frame = 0) :
    state.entriesNaming directories frame = 0 ∧ ¬ state.Node directories frame := by
  unfold pointers at unused
  constructor
  · omega
  · intro node
    rw [if_pos node] at unused
    omega

end KernelState

/-- No frame has fewer references than uses; with `exact`, it has as many. -/
structure Accounts (layout : BootLayout) (exact : Prop) (directories : List Nat) (state : KernelState) : Prop where
  covered : ∀ frame, layout.Managed frame → state.pointers directories frame ≤ state.references frame
  exact : exact → ∀ frame, layout.Managed frame → state.references frame = state.pointers directories frame
  bound : ∀ frame, layout.Managed frame → state.references frame < 0x10000

/-- One page table entry is rewritten. -/
structure Edits (directories : List Nat) (directory page word : Nat) (state next : KernelState) : Prop where
  size : next.numberOfFrames = state.numberOfFrames
  entry : ∀ other ∈ directories, ∀ number < userPages, next.entry other number =
    if other = directory ∧ number = page then word else state.entry other number
  node : ∀ frame, next.Node directories frame ↔ state.Node directories frame

theorem Linked.edits (linked : Linked layout directories state) (member : directory ∈ directories)
    (low : page < userPages) (present : state.mem directory (page / 1024) ≠ 0)
    (size : next.numberOfFrames = state.numberOfFrames)
    (mem : next.mem = (state.writeWord (state.tableFrame directory page) (page % 1024) word).mem) :
    Edits directories directory page word state next where
  size := size
  entry other inOther number numberLow := by
    rw [← linked.entry_writeEntry member low present inOther numberLow]
    exact KernelState.entry_congr (by rw [mem]) fun _ => by rw [mem]
  node := by
    apply KernelState.node_congr
    intro other inOther index _
    rw [mem, linked.mem_writeEntry member low present inOther]

namespace Edits

variable (edits : Edits directories directory page word state next)

include edits

theorem entriesNaming (member : directory ∈ directories) (inside : directory < state.numberOfFrames)
    (low : page < userPages) (frame : Nat) :
    next.entriesNaming directories frame +
        (if state.entry directory page ≠ 0 ∧ frameOf (state.entry directory page) = frame then 1 else 0) =
      state.entriesNaming directories frame + if word ≠ 0 ∧ frameOf word = frame then 1 else 0 := by
  have place : (directory, page) ∈ state.entryPlaces := by
    simp [KernelState.entryPlaces, inside, low]
  have updated : namings next.entryPlaces (next.entryNames directories) frame =
      namings state.entryPlaces (Function.update (state.entryNames directories) (directory, page)
        (if word ≠ 0 then some (frameOf word) else none)) frame := by
    rw [KernelState.entryPlaces, edits.size]
    apply namings_congr
    rintro ⟨other, number⟩ inPlaces
    have numberLow : number < userPages := by simpa using (Finset.mem_product.1 inPlaces).2
    by_cases same : (other, number) = (directory, page)
    · cases same
      rw [Function.update_self]
      simp [KernelState.entryNames, member, edits.entry directory member page low]
    · rw [Function.update_of_ne same]
      have different : ¬ (other = directory ∧ number = page) := by simpa using same
      unfold KernelState.entryNames
      by_cases inOther : other ∈ directories
      · simp [inOther, edits.entry other inOther number numberLow, different]
      · simp [inOther]
  have old : (if state.entryNames directories (directory, page) = some frame then 1 else 0) =
      if state.entry directory page ≠ 0 ∧ frameOf (state.entry directory page) = frame then 1 else 0 := by
    by_cases unmapped : state.entry directory page = 0 <;> simp [KernelState.entryNames, member, unmapped]
  have new : (if (if word ≠ 0 then some (frameOf word) else none) = some frame then 1 else 0) =
      if word ≠ 0 ∧ frameOf word = frame then 1 else 0 := by
    by_cases zero : word = 0 <;> simp [zero]
  unfold KernelState.entriesNaming
  rw [updated, ← old, ← new]
  exact namings_update place _

theorem pointers (member : directory ∈ directories) (inside : directory < state.numberOfFrames)
    (low : page < userPages) (frame : Nat) :
    next.pointers directories frame +
        (if state.entry directory page ≠ 0 ∧ frameOf (state.entry directory page) = frame then 1 else 0) =
      state.pointers directories frame + if word ≠ 0 ∧ frameOf word = frame then 1 else 0 := by
  have counted := edits.entriesNaming member inside low frame
  unfold KernelState.pointers
  simp only [edits.node]
  omega

end Edits

/-- An entry is a use of the frame it names. -/
theorem Linked.entriesNaming_pos (linked : Linked layout directories state) (member : directory ∈ directories)
    (low : page < userPages) (mapped : state.entry directory page ≠ 0) :
    0 < state.entriesNaming directories (frameOf (state.entry directory page)) := by
  have place : (directory, page) ∈ state.entryPlaces := by
    simp [KernelState.entryPlaces, low, linked.size, (linked.roots directory member).1]
  apply namings_pos place
  simp [KernelState.entryNames, member, mapped]

/-- A frame no entry is counted for is named by none. -/
theorem Linked.unnamed_of_zero (linked : Linked layout directories state)
    (none : state.entriesNaming directories frame = 0) : ∀ directory ∈ directories, ∀ page < userPages,
      state.entry directory page ≠ 0 → frameOf (state.entry directory page) ≠ frame := by
  rintro directory member page low mapped rfl
  have positive := linked.entriesNaming_pos member low mapped
  omega

/-! ### Dropping and adding references -/

/-- The frame gets a new count; at 0 it is free. -/
def KernelState.withCount (state : KernelState) (frame count : Nat) : KernelState :=
  if count = 0 then (state.setReferences frame 0).setFreeFrameList (frame :: state.freeFrameList)
  else state.setReferences frame count

/-- What `decrement_references` does. -/
def KernelState.dropReference (state : KernelState) (frame : Nat) : KernelState :=
  state.withCount frame ((state.references frame + 0xFFFF) % 0x10000)

theorem wp_withCount {post : Unit → KernelState → Prop} {fail : Stop → KernelState → Prop} (count : Nat) :
    wp (do
      modify fun state => state.setReferences frame count
      if count = 0 then freeFrame frame) post fail state ↔ post () (state.withCount frame count) := by
  unfold KernelState.withCount
  by_cases last : count = 0
  · rw [if_pos last, if_pos last]
    simp only [freeFrame, wp_bind, wp_modify, KernelState.setReferences_twice, KernelState.setReferences_freeFrameList]
  · rw [if_neg last, if_neg last]
    simp only [wp_bind, wp_modify, wp_pure]

theorem wp_dropReference {post : Unit → KernelState → Prop} {fail : Stop → KernelState → Prop} :
    wp (decrementReferences frame) post fail state ↔ post () (state.dropReference frame) := by
  rw [decrementReferences, wp_bind, wp_get]
  exact wp_withCount _

/-- Only the count of the frame and the free list change. -/
structure CountsOnly (state next : KernelState) : Prop where
  mem : next.mem = state.mem
  size : next.numberOfFrames = state.numberOfFrames
  envs : next.envs = state.envs

theorem KernelState.withCount_only (state : KernelState) (frame count : Nat) :
    CountsOnly state (state.withCount frame count) := by
  unfold withCount
  split
  · exact ⟨rfl, rfl, rfl⟩
  · exact ⟨rfl, rfl, rfl⟩

/-- The frame an entry named has lost the reference, and is free if that was its last. -/
structure Drops (frame : Nat) (state next : KernelState) : Prop where
  lost : next.references frame + 1 = state.references frame
  others : ∀ other, other ≠ frame → next.references other = state.references other
  free : state.references frame = 1 → next.freeFrameList = frame :: state.freeFrameList
  inUse : state.references frame ≠ 1 → next.freeFrameList = state.freeFrameList

theorem KernelState.withCount_drops {count : Nat} (lost : count + 1 = state.references frame) :
    Drops frame state (state.withCount frame count) := by
  unfold withCount
  by_cases last : count = 0
  · rw [if_pos last]
    subst last
    constructor
    · simp [← lost]
    · intro other different
      simp [different]
    · exact fun _ => rfl
    · exact fun more => absurd lost.symm more
  · rw [if_neg last]
    constructor
    · simp [lost]
    · intro other different
      simp [different]
    · intro one
      omega
    · exact fun _ => rfl

theorem KernelState.drops (some : 0 < state.references frame) (bound : state.references frame < 0x10000) :
    Drops frame state (state.dropReference frame) ∧ CountsOnly state (state.dropReference frame) := by
  refine ⟨withCount_drops ?_, withCount_only ..⟩
  omega

/-! ### The invariant of the mapping calls -/

/-- The tables do not overlap, and the counts cover the uses. -/
structure Tabular (layout : BootLayout) (exact : Prop) (directories : List Nat) (state : KernelState) : Prop where
  linked : Linked layout directories state
  accounts : Accounts layout exact directories state

/-- An entry that named a frame is cleared, and the frame loses the reference. -/
theorem Accounts.drop (accounts : Accounts layout exact directories state) (linked : Linked layout directories state)
    (member : directory ∈ directories) (low : page < userPages) (mapped : state.entry directory page ≠ 0)
    (edits : Edits directories directory page 0 state next) (drops : Drops (frameOf (state.entry directory page)) state next) :
    Accounts layout exact directories next := by
  have inside := (linked.roots directory member).1
  rw [← linked.size] at inside
  have moved (other : Nat) : next.pointers directories other +
      (if frameOf (state.entry directory page) = other then 1 else 0) = state.pointers directories other := by
    simpa [mapped] using edits.pointers member inside low other
  have count (other : Nat) : next.references other +
      (if frameOf (state.entry directory page) = other then 1 else 0) = state.references other := by
    split
    · next same => exact same ▸ drops.lost
    · next different => exact drops.others other fun same => different same.symm
  constructor
  · intro other managed
    have := accounts.covered other managed
    have := moved other
    have := count other
    omega
  · intro isExact other managed
    have := accounts.exact isExact other managed
    have := moved other
    have := count other
    omega
  · intro other managed
    have := accounts.bound other managed
    have := count other
    omega

/-- An entry that named nothing, or whose reference may be lost, comes to name a frame. -/
theorem Accounts.add (accounts : Accounts layout exact directories state) (linked : Linked layout directories state)
    (member : directory ∈ directories) (low : page < userPages) (names : frameOf word = frame) (some : word ≠ 0)
    (unmapped : exact → state.entry directory page = 0) (room : state.references frame + 1 < 0x10000)
    (edits : Edits directories directory page word state next)
    (gained : next.references frame = state.references frame + 1)
    (others : ∀ other, other ≠ frame → next.references other = state.references other) :
    Accounts layout exact directories next := by
  have inside := (linked.roots directory member).1
  rw [← linked.size] at inside
  have moved (other : Nat) : next.pointers directories other +
      (if state.entry directory page ≠ 0 ∧ frameOf (state.entry directory page) = other then 1 else 0) =
      state.pointers directories other + if frame = other then 1 else 0 := by
    simpa [some, names] using edits.pointers member inside low other
  have count (other : Nat) : next.references other = state.references other + if frame = other then 1 else 0 := by
    split
    · next same => exact same ▸ gained
    · next different => exact others other fun same => different same.symm
  constructor
  · intro other managed
    have := accounts.covered other managed
    have := moved other
    have := count other
    omega
  · intro isExact other managed
    have equal := accounts.exact isExact other managed
    have moved := moved other
    have := count other
    simp only [unmapped isExact, ne_eq, not_true_eq_false, false_and, if_false] at moved
    omega
  · intro other managed
    have bound := accounts.bound other managed
    have count := count other
    split at count
    · next same =>
        subst same
        omega
    · omega

/-- Counts and free frames change, but not what is counted. -/
theorem Accounts.congr (accounts : Accounts layout exact directories state)
    (pointers : ∀ frame, next.pointers directories frame = state.pointers directories frame)
    (references : ∀ frame, next.references frame = state.references frame) : Accounts layout exact directories next where
  covered other managed := by
    rw [pointers, references]
    exact accounts.covered other managed
  exact isExact other managed := by
    rw [pointers, references]
    exact accounts.exact isExact other managed
  bound other managed := by
    rw [references]
    exact accounts.bound other managed

end Fos.Kernel
