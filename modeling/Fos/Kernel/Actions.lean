import Fos.Foundation.Weakest
import Fos.Kernel.PlacesProperties

/-! What kernel code does on behalf of one environment: which frames it may touch, and
what becomes of the environment's address space. -/

set_option autoImplicit false

namespace Fos.Kernel

open Foundation

variable {layout : BootLayout} {ram : Nat → Page} {slot : Nat} {hand hand' : List Nat}
  {state next last : KernelState}

/-- Only panics are allowed, and they leave a state of which `stopped` holds. -/
def onPanic (stopped : KernelState → Prop) : Stop → KernelState → Prop
  | .panic _, state => stopped state
  | .undefined _, _ => False

theorem onPanic.mono {strong weak : KernelState → Prop} (implied : ∀ state, strong state → weak state)
    {stop : Stop} (holds : onPanic strong stop state) : onPanic weak stop state := by
  cases stop with
  | panic message => exact implied state holds
  | undefined access => exact holds

@[simp] theorem wp_panic {Result : Type} {post : Result → KernelState → Prop}
    {stopped : KernelState → Prop} (message : String) :
    wp (panic message : KernelM Result) post (onPanic stopped) state ↔ stopped state := Iff.rfl

/-! ### Footprints -/

/-- The 1024 words a page has. -/
def Page.words (page : Page) : Page := fun index =>
  if index < 1024 then page index else 0

/-- The code touches only frames the environment may use, and takes none from others.
`hand` holds the frames that are allocated and not mapped yet. -/
structure Acts (slot : Nat) (hand : List Nat) (state : KernelState) (hand' : List Nat)
    (next : KernelState) : Prop where
  quiet : Quiet state next
  held : ∀ frame, next.Held slot hand' frame → state.Held slot hand frame
  mem : ∀ frame, ¬ state.Held slot hand frame → next.mem frame = state.mem frame
  references : ∀ frame, ¬ state.Held slot hand frame →
    next.references frame = state.references frame
  envs : ∀ other, other ≠ slot → next.envs other = state.envs other
  heldDisk : ∀ diskFrame, next.HeldDisk slot diskFrame → state.HeldDisk slot diskFrame
  disk : ∀ diskFrame, ¬ state.HeldDisk slot diskFrame →
    (next.diskPage diskFrame).words = (state.diskPage diskFrame).words

theorem Acts.refl (slot : Nat) (hand : List Nat) (state : KernelState) :
    Acts slot hand state hand state :=
  ⟨.refl state, fun _ => id, fun _ _ => rfl, fun _ _ => rfl, fun _ _ => rfl, fun _ => id,
    fun _ _ => rfl⟩

theorem Acts.trans {hand'' : List Nat} (first : Acts slot hand state hand' next)
    (second : Acts slot hand' next hand'' last) : Acts slot hand state hand'' last where
  quiet := first.quiet.trans second.quiet
  held frame held := first.held frame (second.held frame held)
  mem frame apart := by
    rw [second.mem frame fun held => apart (first.held frame held), first.mem frame apart]
  references frame apart := by
    rw [second.references frame fun held => apart (first.held frame held),
      first.references frame apart]
  envs other different := by rw [second.envs other different, first.envs other different]
  heldDisk diskFrame held := first.heldDisk diskFrame (second.heldDisk diskFrame held)
  disk diskFrame apart := by
    rw [second.disk diskFrame fun held => apart (first.heldDisk diskFrame held),
      first.disk diskFrame apart]

/-- Nothing the environment may use is lost. -/
structure Keeps (slot : Nat) (hand : List Nat) (state : KernelState) (hand' : List Nat)
    (next : KernelState) : Prop where
  held : ∀ frame, state.Held slot hand frame → next.Held slot hand' frame
  heldDisk : ∀ diskFrame, state.HeldDisk slot diskFrame → next.HeldDisk slot diskFrame

theorem Keeps.refl (slot : Nat) (hand : List Nat) (state : KernelState) :
    Keeps slot hand state hand state :=
  ⟨fun _ => id, fun _ => id⟩

theorem Keeps.trans {hand'' : List Nat} (first : Keeps slot hand state hand' next)
    (second : Keeps slot hand' next hand'' last) : Keeps slot hand state hand'' last :=
  ⟨fun frame held => second.held frame (first.held frame held),
    fun diskFrame held => second.heldDisk diskFrame (first.heldDisk diskFrame held)⟩

/-- A frame another environment names is not held. -/
theorem not_held_of_names (ledger : Ledger layout state)
    (inHand : ∀ frame ∈ hand, state.Fresh frame) {place : Place} {frame : Nat}
    (named : state.names place = some frame) (other : place.slot ≠ slot) :
    ¬ state.Held slot hand frame := by
  rintro (free | ⟨own, ownSlot, ownNamed⟩ | member)
  · exact ledger.exclusive.apart place frame named free
  · have same := ledger.exclusive.injective place own frame named ownNamed
    exact other (same ▸ ownSlot)
  · exact (inHand frame member).unnamed place named

theorem not_held_of_fresh {frame : Nat} (fresh : state.Fresh frame) (slot : Nat) :
    ¬ state.Held slot [] frame := by
  rintro (free | ⟨place, -, named⟩ | member)
  · exact fresh.notFree free
  · exact fresh.unnamed place named
  · cases member

theorem not_heldDisk_of_diskNames (ledger : Ledger layout state) {place : Nat × Nat}
    {diskFrame : Nat} (named : state.diskNames place = some diskFrame) (other : place.1 ≠ slot) :
    ¬ state.HeldDisk slot diskFrame := by
  rintro (free | ⟨page, ownNamed⟩)
  · exact ledger.diskExclusive.apart place diskFrame named free
  · have same := ledger.diskExclusive.injective place _ diskFrame named ownNamed
    exact other (congrArg Prod.fst same)

namespace Acts

variable {other : Nat}

theorem root_other (acts : Acts slot hand state hand' next) (different : other ≠ slot)
    (side : Side) : next.root side other = state.root side other := by
  cases side <;> simp only [KernelState.root, acts.envs other different]

theorem dirWord_other (acts : Acts slot hand state hand' next) (ledger : Ledger layout state)
    (inHand : ∀ frame ∈ hand, state.Fresh frame) (different : other ≠ slot) (side : Side)
    (index : Nat) : next.dirWord side other index = state.dirWord side other index :=
  dirWord_congr (acts.root_other different side) fun live => by
    rw [acts.mem _ (not_held_of_names ledger inHand (KernelState.names_root live) different)]

theorem leaf_other (acts : Acts slot hand state hand' next) (ledger : Ledger layout state)
    (inHand : ∀ frame ∈ hand, state.Fresh frame) (different : other ≠ slot) (side : Side)
    (page : Nat) : next.leaf side other page = state.leaf side other page :=
  leaf_congr (acts.dirWord_other ledger inHand different side _) fun present => by
    rw [acts.mem _ (not_held_of_names ledger inHand (KernelState.names_table present) different)]

/-- The places of other environments name what they did. -/
theorem names_other (acts : Acts slot hand state hand' next) (ledger : Ledger layout state)
    (inHand : ∀ frame ∈ hand, state.Fresh frame) {place : Place} (different : place.slot ≠ slot) :
    next.names place = state.names place := by
  cases place with
  | root side other =>
      have different : other ≠ slot := different
      simp only [KernelState.names, acts.root_other different]
  | table side other index =>
      have different : other ≠ slot := different
      simp only [KernelState.names, acts.dirWord_other ledger inHand different]
  | page other number =>
      have different : other ≠ slot := different
      simp only [KernelState.names, acts.leaf_other ledger inHand different]

/-- A frame in hand elsewhere stays in hand. -/
theorem fresh (acts : Acts slot hand state hand' next) (ledger : Ledger layout state)
    (inHand : ∀ frame ∈ hand, state.Fresh frame) {frame : Nat} (fresh : state.Fresh frame)
    (elsewhere : frame ∉ hand) : next.Fresh frame := by
  have apart : ¬ next.Held slot hand' frame := by
    intro held
    rcases acts.held frame held with free | ⟨place, -, named⟩ | member
    · exact fresh.notFree free
    · exact fresh.unnamed place named
    · exact elsewhere member
  refine ⟨fun free => apart (.inl free), fun place named => ?_⟩
  by_cases own : place.slot = slot
  · exact apart (.inr (.inl ⟨place, own, named⟩))
  · rw [acts.names_other ledger inHand own] at named
    exact fresh.unnamed place named

/-- Frames in hand that the code does not use. -/
theorem frame (acts : Acts slot hand state hand' next) (frame : Nat) :
    Acts slot (frame :: hand) state (frame :: hand') next where
  quiet := acts.quiet
  held other held := by
    rcases held with free | named | member
    · exact (acts.held other (.inl free)).imp_right (Or.imp_right (List.mem_cons_of_mem _))
    · exact (acts.held other (.inr (.inl named))).imp_right
        (Or.imp_right (List.mem_cons_of_mem _))
    · rcases List.mem_cons.1 member with same | member
      · exact .inr (.inr (List.mem_cons.2 (.inl same)))
      · exact (acts.held other (.inr (.inr member))).imp_right
          (Or.imp_right (List.mem_cons_of_mem _))
  mem other apart := acts.mem other fun held =>
    apart (held.imp_right (Or.imp_right (List.mem_cons_of_mem _)))
  references other apart := acts.references other fun held =>
    apart (held.imp_right (Or.imp_right (List.mem_cons_of_mem _)))
  envs := acts.envs
  heldDisk := acts.heldDisk
  disk := acts.disk

end Acts

theorem Keeps.frame (keeps : Keeps slot hand state hand' next) (frame : Nat) :
    Keeps slot (frame :: hand) state (frame :: hand') next where
  held other held := by
    rcases held with free | named | member
    · exact (keeps.held other (.inl free)).imp_right (Or.imp_right (List.mem_cons_of_mem _))
    · exact (keeps.held other (.inr (.inl named))).imp_right
        (Or.imp_right (List.mem_cons_of_mem _))
    · rcases List.mem_cons.1 member with same | member
      · exact .inr (.inr (List.mem_cons.2 (.inl same)))
      · exact (keeps.held other (.inr (.inr member))).imp_right
          (Or.imp_right (List.mem_cons_of_mem _))
  heldDisk := keeps.heldDisk

/-! ### Address spaces -/

/-- What a page of an environment is: its page-table entry with the content of the frame
in it, and its disk frame with what is stored there. -/
structure Space where
  entry : Nat → Nat
  content : Nat → Page
  diskFrame : Nat → Nat
  stored : Nat → Page

def KernelState.space (state : KernelState) (slot : Nat) : Space where
  entry := state.leaf .user slot
  content page := if state.leaf .user slot page = 0 then Page.zero
    else (state.mem (frameOf (state.leaf .user slot page))).words
  diskFrame := state.leaf .disk slot
  stored page := if state.leaf .disk slot page = 0 then Page.zero
    else (state.diskPage (state.leaf .disk slot page)).words

namespace Space

variable (space : Space)

/-- A page is mapped to a frame with some content. -/
def map (page entry : Nat) (content : Page) : Space :=
  { space with
    entry := Function.update space.entry page entry
    content := Function.update space.content page content }

def unmap (page : Nat) : Space := space.map page 0 Page.zero

/-- The flags of an entry change. -/
def setEntry (page entry : Nat) : Space :=
  { space with entry := Function.update space.entry page entry }

def setContent (page : Nat) (content : Page) : Space :=
  { space with content := Function.update space.content page content }

/-- A page gets a disk frame, with what is on it. -/
def place (page diskFrame : Nat) (stored : Page) : Space :=
  { space with
    diskFrame := Function.update space.diskFrame page diskFrame
    stored := Function.update space.stored page stored }

def remove (page : Nat) : Space := space.place page 0 Page.zero

def store (page : Nat) (stored : Page) : Space :=
  { space with stored := Function.update space.stored page stored }

@[simp] theorem store_place (page diskFrame : Nat) (first second : Page) :
    (space.place page diskFrame first).store page second = space.place page diskFrame second := by
  simp only [store, place, Function.update_idem]

/-- Giving a page what it has. -/
theorem place_self (page : Nat) : space.place page (space.diskFrame page) (space.stored page) = space := by
  simp only [place, Function.update_eq_self]

@[simp] theorem setEntry_setEntry (page first second : Nat) :
    (space.setEntry page first).setEntry page second = space.setEntry page second := by
  simp only [setEntry, Function.update_idem]

theorem setEntry_setContent (page entry : Nat) (content : Page) :
    (space.setEntry page entry).setContent page content =
      (space.setContent page content).setEntry page entry := rfl

theorem setEntry_self (page : Nat) : space.setEntry page (space.entry page) = space := by
  simp only [setEntry, Function.update_eq_self]

@[simp] theorem map_map (page entry other : Nat) (content changed : Page) :
    (space.map page entry content).map page other changed = space.map page other changed := by
  simp only [map, Function.update_idem]

@[simp] theorem setContent_map (page entry : Nat) (content changed : Page) :
    (space.map page entry content).setContent page changed = space.map page entry changed := by
  simp only [map, setContent, Function.update_idem]

@[simp] theorem map_unmap (page entry : Nat) (content : Page) :
    (space.unmap page).map page entry content = space.map page entry content :=
  map_map ..

end Space

/-- The address space of another environment stays as it is. -/
theorem Acts.space_other (acts : Acts slot hand state hand' next) (ledger : Ledger layout state)
    (inHand : ∀ frame ∈ hand, state.Fresh frame) {other : Nat} (different : other ≠ slot) :
    next.space other = state.space other := by
  have leaves (side : Side) (page : Nat) := acts.leaf_other ledger inHand different side page
  have entries : next.leaf .user other = state.leaf .user other := funext (leaves .user)
  have places : next.leaf .disk other = state.leaf .disk other := funext (leaves .disk)
  simp only [KernelState.space, entries, places, Space.mk.injEq, true_and]
  constructor
  · funext page
    split
    · rfl
    · next mapped =>
        rw [acts.mem _ (not_held_of_names ledger inHand (KernelState.names_page mapped) different)]
  · funext page
    split
    · rfl
    · next placed =>
        have named : state.diskNames (other, page) = some (state.leaf .disk other page) := by
          simp [KernelState.diskNames, placed]
        rw [acts.disk _ (not_heldDisk_of_diskNames ledger named different)]

/-- The code keeps the invariant, acts for one environment, and changes its address
space as stated. -/
structure SpaceBecomes (layout : BootLayout) (ram : Nat → Page) (slot : Nat) (hand : List Nat)
    (state : KernelState) (hand' : List Nat) (next : KernelState) (space : Space) : Prop where
  inv : Inv layout ram next
  acts : Acts slot hand state hand' next
  space : next.space slot = space

theorem SpaceBecomes.entry {space : Space} (becomes : SpaceBecomes layout ram slot hand state hand' next space)
    (page : Nat) : next.leaf .user slot page = space.entry page :=
  congrFun (congrArg Space.entry becomes.space) page

theorem SpaceBecomes.diskFrame {space : Space} (becomes : SpaceBecomes layout ram slot hand state hand' next space)
    (page : Nat) : next.leaf .disk slot page = space.diskFrame page :=
  congrFun (congrArg Space.diskFrame becomes.space) page

theorem SpaceBecomes.frame {space : Space} (becomes : SpaceBecomes layout ram slot hand state hand' next space)
    (frame : Nat) : SpaceBecomes layout ram slot (frame :: hand) state (frame :: hand') next space :=
  ⟨becomes.inv, becomes.acts.frame frame, becomes.space⟩

/-! ### What stays in place -/

/-- All fields of the environment but its disk page directory are the same. -/
def EnvKept (slot : Nat) (state next : KernelState) : Prop :=
  next.envs slot = { state.envs slot with
    diskEnvPgdir := (next.envs slot).diskEnvPgdir
    diskEnvPgdirPA := (next.envs slot).diskEnvPgdirPA }

theorem EnvKept.of_eq (same : next.envs slot = state.envs slot) : EnvKept slot state next := by
  rw [EnvKept, same]

theorem EnvKept.trans (first : EnvKept slot state next) (second : EnvKept slot next last) :
    EnvKept slot state last := by
  rw [EnvKept] at *
  rw [second, first]

/-- The environment record and the existing tables stay; a disk page directory may be
added where there was none. -/
structure Stable (slot : Nat) (state next : KernelState) : Prop where
  kept : EnvKept slot state next
  placed : (state.envs slot).diskEnvPgdir ≠ none → next.envs slot = state.envs slot
  tables : ∀ side index, state.dirWord side slot index ≠ 0 →
    next.dirWord side slot index = state.dirWord side slot index

namespace Stable

theorem of_eq (envs : next.envs slot = state.envs slot)
    (tables : ∀ side index, state.dirWord side slot index ≠ 0 →
      next.dirWord side slot index = state.dirWord side slot index) : Stable slot state next :=
  ⟨.of_eq envs, fun _ => envs, tables⟩

theorem refl (slot : Nat) (state : KernelState) : Stable slot state state :=
  .of_eq rfl fun _ _ _ => rfl

theorem trans (first : Stable slot state next) (second : Stable slot next last) :
    Stable slot state last where
  kept := first.kept.trans second.kept
  placed some := by
    have same := first.placed some
    rw [second.placed (by rwa [same]), same]
  tables side index present := by
    have same := first.tables side index present
    rw [second.tables side index (by rwa [same]), same]

theorem root_user (stable : Stable slot state next) :
    next.root .user slot = state.root .user slot := by
  simp only [KernelState.root]
  rw [stable.kept]

theorem present (stable : Stable slot state next) {side : Side} {index : Nat}
    (present : state.dirWord side slot index ≠ 0) : next.dirWord side slot index ≠ 0 := by
  rwa [stable.tables side index present]

end Stable

/-- The disk free list stays as well. -/
structure Calm (slot : Nat) (state next : KernelState) : Prop extends Stable slot state next where
  diskFree : next.diskFreeFrameList = state.diskFreeFrameList

namespace Calm

theorem of_eq (envs : next.envs slot = state.envs slot)
    (diskFree : next.diskFreeFrameList = state.diskFreeFrameList)
    (tables : ∀ side index, state.dirWord side slot index ≠ 0 →
      next.dirWord side slot index = state.dirWord side slot index) : Calm slot state next :=
  ⟨.of_eq envs tables, diskFree⟩

theorem refl (slot : Nat) (state : KernelState) : Calm slot state state :=
  ⟨.refl slot state, rfl⟩

theorem trans (first : Calm slot state next) (second : Calm slot next last) :
    Calm slot state last :=
  ⟨first.toStable.trans second.toStable, second.diskFree.trans first.diskFree⟩

end Calm

end Fos.Kernel
