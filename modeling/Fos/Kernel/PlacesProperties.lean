import Fos.Kernel.Places

/-! What writing one frame changes in the trees, and when the invariant survives it. -/

set_option autoImplicit false

namespace Fos.Kernel

open Foundation

variable {layout : BootLayout} {ram : Nat → Page} {state next : KernelState}

/-! ### Managed frames -/

theorem BootLayout.Managed.pos {frame : Nat} (valid : layout.Valid)
    (managed : layout.Managed frame) : 3 ≤ frame ∧ frame < layout.numberOfFrames := by
  have frames := valid.frames
  have directory := valid.directory
  rcases managed with ⟨lower, upper⟩ | ⟨lower, upper⟩
  · refine ⟨lower, ?_⟩
    simp only [physIOMem, pageSize] at upper
    omega
  · exact ⟨by omega, upper⟩

theorem BootLayout.Managed.lt {frame : Nat} (valid : layout.Valid)
    (managed : layout.Managed frame) : frame < 65536 :=
  (managed.pos valid).2.trans_le valid.frames.2

theorem BootLayout.not_managed {frame : Nat} (low : 256 ≤ frame)
    (high : frame < layout.rangeEnd) : ¬ layout.Managed frame := by
  rintro (⟨-, upper⟩ | ⟨lower, -⟩)
  · simp only [physIOMem, pageSize] at upper
    omega
  · omega

/-! ### Roots -/

/-- The two directories of every slot are the same. -/
structure SameRoots (state next : KernelState) : Prop where
  user : ∀ slot, (next.envs slot).envPageDirectory = (state.envs slot).envPageDirectory
  cr3 : ∀ slot, (next.envs slot).envCr3 = (state.envs slot).envCr3
  disk : ∀ slot, (next.envs slot).diskEnvPgdir = (state.envs slot).diskEnvPgdir
  diskPA : ∀ slot, (next.envs slot).diskEnvPgdirPA = (state.envs slot).diskEnvPgdirPA

theorem SameRoots.of_envs (same : next.envs = state.envs) : SameRoots state next := by
  constructor <;> simp [same]

theorem SameRoots.root (same : SameRoots state next) (side : Side) (slot : Nat) :
    next.root side slot = state.root side slot := by
  cases side with
  | user => exact same.user slot
  | disk => simp only [KernelState.root, same.disk slot]

/-- What no operation inside the kernel changes: the machine and the scheduler. -/
structure Quiet (state next : KernelState) : Prop where
  size : next.numberOfFrames = state.numberOfFrames
  directory : next.ptrPageDirectory = state.ptrPageDirectory
  freeList : next.envFreeList = state.envFreeList
  newQueue : next.envNewQueue = state.envNewQueue
  readyQueue : next.envReadyQueue = state.envReadyQueue
  exitQueue : next.envExitQueue = state.envExitQueue
  curenv : next.curenv = state.curenv
  cr3 : next.cr3 = state.cr3

@[refl] theorem Quiet.refl (state : KernelState) : Quiet state state := by
  constructor <;> rfl

theorem Quiet.trans {last : KernelState} (first : Quiet state next) (second : Quiet next last) :
    Quiet state last where
  size := second.size.trans first.size
  directory := second.directory.trans first.directory
  freeList := second.freeList.trans first.freeList
  newQueue := second.newQueue.trans first.newQueue
  readyQueue := second.readyQueue.trans first.readyQueue
  exitQueue := second.exitQueue.trans first.exitQueue
  curenv := second.curenv.trans first.curenv
  cr3 := second.cr3.trans first.cr3

/-! ### Writing a frame that is no directory -/

theorem dirWord_congr {side : Side} {slot index : Nat}
    (root : next.root side slot = state.root side slot)
    (mem : state.root side slot ≠ 0 →
      next.mem (state.root side slot) index = state.mem (state.root side slot) index) :
    next.dirWord side slot index = state.dirWord side slot index := by
  unfold KernelState.dirWord
  rw [root]
  split
  · rfl
  · next inside => exact mem (not_or.1 inside).1

theorem leaf_congr {side : Side} {slot page : Nat}
    (dir : next.dirWord side slot (page / 1024) = state.dirWord side slot (page / 1024))
    (mem : state.dirWord side slot (page / 1024) ≠ 0 →
      next.mem (frameOf (state.dirWord side slot (page / 1024))) (page % 1024) =
        state.mem (frameOf (state.dirWord side slot (page / 1024))) (page % 1024)) :
    next.leaf side slot page = state.leaf side slot page := by
  unfold KernelState.leaf
  rw [dir]
  split
  · rfl
  · next present => exact mem present

theorem names_congr (roots : ∀ side slot, next.root side slot = state.root side slot)
    (dirs : ∀ side slot index, next.dirWord side slot index = state.dirWord side slot index)
    (leaves : ∀ slot page, next.leaf .user slot page = state.leaf .user slot page) :
    next.names = state.names := by
  funext place
  cases place with
  | root side slot => simp only [KernelState.names, roots]
  | table side slot index => simp only [KernelState.names, dirs]
  | page slot number => simp only [KernelState.names, leaves]

theorem diskNames_congr
    (leaves : ∀ slot page, next.leaf .disk slot page = state.leaf .disk slot page) :
    next.diskNames = state.diskNames := by
  funext place
  simp only [KernelState.diskNames, leaves]

/-- A frame no directory and no table lives in. -/
structure NotNode (state : KernelState) (frame : Nat) : Prop where
  root : ∀ side slot, state.root side slot ≠ 0 → state.root side slot ≠ frame
  table : ∀ side slot index, state.dirWord side slot index ≠ 0 →
    frameOf (state.dirWord side slot index) ≠ frame

theorem NotNode.of_fresh {frame : Nat} (fresh : state.Fresh frame) : NotNode state frame where
  root side slot live same :=
    fresh.unnamed (.root side slot) (same ▸ KernelState.names_root live)
  table side slot index present same :=
    fresh.unnamed (.table side slot index) (same ▸ KernelState.names_table present)

theorem NotNode.of_page (ledger : Ledger layout state) {slot page : Nat}
    (mapped : state.leaf .user slot page ≠ 0) :
    NotNode state (frameOf (state.leaf .user slot page)) where
  root side other live same := by
    have := ledger.exclusive.injective _ _ _ (KernelState.names_root live)
      (same ▸ KernelState.names_page mapped)
    cases this
  table side other index present same := by
    have := ledger.exclusive.injective _ _ _ (KernelState.names_table present)
      (same ▸ KernelState.names_page mapped)
    cases this

theorem root_ne_table (ledger : Ledger layout state) {side : Side} {slot index : Nat}
    (present : state.dirWord side slot index ≠ 0) (other : Side) (otherSlot : Nat)
    (live : state.root other otherSlot ≠ 0) :
    state.root other otherSlot ≠ frameOf (state.dirWord side slot index) := by
  intro same
  have := ledger.exclusive.injective _ _ _ (KernelState.names_root live)
    (same ▸ KernelState.names_table present)
  cases this

theorem table_inj (ledger : Ledger layout state) {side other : Side}
    {slot otherSlot index otherIndex : Nat} (present : state.dirWord side slot index ≠ 0)
    (otherPresent : state.dirWord other otherSlot otherIndex ≠ 0)
    (same : frameOf (state.dirWord side slot index) =
      frameOf (state.dirWord other otherSlot otherIndex)) :
    side = other ∧ slot = otherSlot ∧ index = otherIndex := by
  have := ledger.exclusive.injective _ _ _ (KernelState.names_table present)
    (same ▸ KernelState.names_table otherPresent)
  simpa using this

/-- Memory is the same except in one frame. -/
structure AgreesOff (frame : Nat) (state next : KernelState) : Prop where
  roots : SameRoots state next
  mem : ∀ other, other ≠ frame → next.mem other = state.mem other

namespace AgreesOff

variable {frame : Nat}

theorem dirWord (agrees : AgreesOff frame state next)
    (notRoot : ∀ side slot, state.root side slot ≠ 0 → state.root side slot ≠ frame)
    (side : Side) (slot index : Nat) :
    next.dirWord side slot index = state.dirWord side slot index :=
  dirWord_congr (agrees.roots.root side slot) fun live => by
    rw [agrees.mem _ (notRoot side slot live)]

theorem leaf (agrees : AgreesOff frame state next) (notNode : NotNode state frame)
    (side : Side) (slot page : Nat) :
    next.leaf side slot page = state.leaf side slot page :=
  leaf_congr (agrees.dirWord notNode.root side slot _) fun present => by
    rw [agrees.mem _ (notNode.table side slot _ present)]

theorem names (agrees : AgreesOff frame state next) (notNode : NotNode state frame) :
    next.names = state.names :=
  names_congr agrees.roots.root (agrees.dirWord notNode.root)
    (agrees.leaf notNode .user)

theorem diskNames (agrees : AgreesOff frame state next) (notNode : NotNode state frame) :
    next.diskNames = state.diskNames :=
  diskNames_congr (agrees.leaf notNode .disk)

theorem core (agrees : AgreesOff frame state next) (core : Core layout ram state)
    (quiet : Quiet state next) (managed : layout.Managed frame)
    (notRoot : ∀ side slot, state.root side slot ≠ 0 → state.root side slot ≠ frame) :
    Core layout ram next where
  size := quiet.size.trans core.size
  directory := quiet.directory.trans core.directory
  kernel other unmanaged := by
    rw [agrees.mem other fun same => unmanaged (same ▸ managed)]
    exact core.kernel other unmanaged
  words side slot index := by
    rw [agrees.dirWord notRoot]
    exact core.words side slot index
  upper side slot index := by
    rw [agrees.roots.root]
    intro live
    rw [agrees.mem _ (notRoot side slot live)]
    exact core.upper side slot index live
  physical slot := by
    rw [agrees.roots.cr3, agrees.roots.user]
    exact core.physical slot
  physicalDisk slot directory := by
    rw [agrees.roots.disk, agrees.roots.diskPA]
    exact core.physicalDisk slot directory

/-- Writing a table changes the entries of that table only. -/
theorem leaf_table (ledger : Ledger layout state) {side : Side} {slot index : Nat}
    (present : state.dirWord side slot index ≠ 0)
    (agrees : AgreesOff (frameOf (state.dirWord side slot index)) state next)
    (other : Side) (otherSlot page : Nat) :
    next.leaf other otherSlot page =
      if other = side ∧ otherSlot = slot ∧ page / 1024 = index then
        next.mem (frameOf (state.dirWord side slot index)) (page % 1024)
      else state.leaf other otherSlot page := by
  have dirs := agrees.dirWord (root_ne_table ledger present) other otherSlot (page / 1024)
  split
  · next same =>
      obtain ⟨rfl, rfl, rfl⟩ := same
      rw [KernelState.leaf_eq_mem (by rwa [dirs]), dirs]
  · next different =>
      refine leaf_congr dirs fun otherPresent => ?_
      rw [agrees.mem _ fun same => different (table_inj ledger otherPresent present same)]

end AgreesOff

/-! ### Writing a directory entry -/

/-- One directory entry below `USER_TOP` is replaced, and one other frame that is no
directory may be rewritten. -/
structure WritesDir (side : Side) (slot index word frame : Nat) (state next : KernelState) :
    Prop where
  roots : SameRoots state next
  live : state.root side slot ≠ 0
  low : index < userTables
  written : next.mem (state.root side slot) index = word
  rest : ∀ other, other ≠ index →
    next.mem (state.root side slot) other = state.mem (state.root side slot) other
  mem : ∀ other, other ≠ state.root side slot → other ≠ frame →
    next.mem other = state.mem other
  notNode : NotNode state frame

namespace WritesDir

variable {side : Side} {slot index word frame : Nat}

private theorem root_inj (ledger : Ledger layout state) {other : Side} {otherSlot : Nat}
    (live : state.root side slot ≠ 0)
    (same : state.root other otherSlot = state.root side slot) : other = side ∧ otherSlot = slot := by
  have otherLive : state.root other otherSlot ≠ 0 := same ▸ live
  have := ledger.exclusive.injective _ _ _ (KernelState.names_root otherLive)
    (same ▸ KernelState.names_root live)
  simpa using this

theorem dirWord (writes : WritesDir side slot index word frame state next)
    (ledger : Ledger layout state) (other : Side) (otherSlot otherIndex : Nat) :
    next.dirWord other otherSlot otherIndex =
      if other = side ∧ otherSlot = slot ∧ otherIndex = index then word
      else state.dirWord other otherSlot otherIndex := by
  split
  · next same =>
      obtain ⟨rfl, rfl, rfl⟩ := same
      rw [KernelState.dirWord_eq_mem (by rw [writes.roots.root]; exact writes.live) writes.low,
        writes.roots.root, writes.written]
  · next different =>
      refine dirWord_congr (writes.roots.root other otherSlot) fun live => ?_
      by_cases same : state.root other otherSlot = state.root side slot
      · obtain ⟨rfl, rfl⟩ := root_inj ledger writes.live same
        exact writes.rest _ fun equal => different ⟨rfl, rfl, equal⟩
      · rw [writes.mem _ same (writes.notNode.root other otherSlot live)]

/-- Tables other than the one written keep their entries. -/
theorem leaf_of_ne (writes : WritesDir side slot index word frame state next)
    (ledger : Ledger layout state) {other : Side} {otherSlot page : Nat}
    (different : ¬ (other = side ∧ otherSlot = slot ∧ page / 1024 = index)) :
    next.leaf other otherSlot page = state.leaf other otherSlot page := by
  refine leaf_congr ?_ fun present => ?_
  · rw [writes.dirWord ledger, if_neg different]
  · rw [writes.mem _ ?_ (writes.notNode.table other otherSlot _ present)]
    exact (root_ne_table ledger present side slot writes.live).symm

theorem leaf_of_eq (writes : WritesDir side slot index word frame state next)
    (ledger : Ledger layout state) {page : Nat} (same : page / 1024 = index) :
    next.leaf side slot page =
      if word = 0 then 0 else next.mem (frameOf word) (page % 1024) := by
  simp only [KernelState.leaf, writes.dirWord ledger, same, and_self, if_true]

theorem core (writes : WritesDir side slot index word frame state next)
    (core : Core layout ram state) (ledger : Ledger layout state) (quiet : Quiet state next)
    (kernel : ∀ other, ¬ layout.Managed other → next.mem other = state.mem other)
    (formed : word ≠ 0 →
      word = constructEntry (toPhysicalAddress (frameOf word)) side.permissions) :
    Core layout ram next where
  size := quiet.size.trans core.size
  directory := quiet.directory.trans core.directory
  kernel other unmanaged := by
    rw [kernel other unmanaged]
    exact core.kernel other unmanaged
  words other otherSlot otherIndex := by
    rw [writes.dirWord ledger]
    split
    · next same =>
        rw [same.1]
        exact formed
    · exact core.words other otherSlot otherIndex
  upper other otherSlot otherIndex := by
    rw [writes.roots.root]
    intro live high inside
    rw [← core.upper other otherSlot otherIndex live high inside]
    by_cases same : state.root other otherSlot = state.root side slot
    · rw [same]
      refine writes.rest _ fun equal => ?_
      have low := writes.low
      rw [equal] at high
      exact absurd low (not_lt.2 high)
    · rw [writes.mem _ same (writes.notNode.root other otherSlot live)]
  physical otherSlot := by
    rw [writes.roots.cr3, writes.roots.user]
    exact core.physical otherSlot
  physicalDisk otherSlot directory := by
    rw [writes.roots.disk, writes.roots.diskPA]
    exact core.physicalDisk otherSlot directory

/-- A table of zeros in a fresh frame is attached: only its own place is new. -/
theorem attach (writes : WritesDir side slot index word frame state next)
    (ledger : Ledger layout state) (absent : state.dirWord side slot index = 0)
    (present : word ≠ 0) (frameOf_word : frameOf word = frame)
    (zero : next.mem frame = Page.zero) :
    (∀ other otherSlot page, next.leaf other otherSlot page = state.leaf other otherSlot page) ∧
      next.names = Function.update state.names (.table side slot index) (some frame) := by
  have leaves : ∀ other otherSlot page,
      next.leaf other otherSlot page = state.leaf other otherSlot page := by
    intro other otherSlot page
    by_cases same : other = side ∧ otherSlot = slot ∧ page / 1024 = index
    · obtain ⟨rfl, rfl, rfl⟩ := same
      rw [writes.leaf_of_eq ledger rfl, if_neg present, frameOf_word, zero,
        KernelState.leaf_of_dirWord_eq_zero absent]
      rfl
    · exact writes.leaf_of_ne ledger same
  refine ⟨leaves, funext fun place => ?_⟩
  by_cases same : place = .table side slot index
  · subst same
    rw [Function.update_self]
    simp only [KernelState.names, writes.dirWord ledger, and_self, if_true, if_neg present,
      frameOf_word]
  · rw [Function.update_of_ne same]
    cases place with
    | root other otherSlot => simp only [KernelState.names, writes.roots.root]
    | table other otherSlot otherIndex =>
        have different : ¬ (other = side ∧ otherSlot = slot ∧ otherIndex = index) := by
          rintro ⟨rfl, rfl, rfl⟩
          exact same rfl
        simp only [KernelState.names, writes.dirWord ledger, if_neg different]
    | page otherSlot number => simp only [KernelState.names, leaves]

/-- A table is detached: its place and those of its pages name nothing any more. -/
theorem detach (writes : WritesDir side slot index 0 frame state next)
    (ledger : Ledger layout state) :
    (∀ other otherSlot page, next.leaf other otherSlot page =
      if other = side ∧ otherSlot = slot ∧ page / 1024 = index then 0
      else state.leaf other otherSlot page) ∧
    (∀ place item, next.names place = some item → state.names place = some item) ∧
    next.names (.table side slot index) = none := by
  have leaves : ∀ other otherSlot page, next.leaf other otherSlot page =
      if other = side ∧ otherSlot = slot ∧ page / 1024 = index then 0
      else state.leaf other otherSlot page := by
    intro other otherSlot page
    split
    · next same =>
        obtain ⟨rfl, rfl, rfl⟩ := same
        rw [writes.leaf_of_eq ledger rfl, if_pos rfl]
    · next different => exact writes.leaf_of_ne ledger different
  refine ⟨leaves, fun place item => ?_, ?_⟩
  · cases place with
    | root other otherSlot => simp only [KernelState.names, writes.roots.root, imp_self]
    | table other otherSlot otherIndex =>
        simp only [KernelState.names, writes.dirWord ledger]
        by_cases same : other = side ∧ otherSlot = slot ∧ otherIndex = index
        · simp [if_pos same]
        · simp only [if_neg same, imp_self]
    | page otherSlot number =>
        simp only [KernelState.names, leaves]
        by_cases same : Side.user = side ∧ otherSlot = slot ∧ number / 1024 = index
        · simp [if_pos same]
        · simp only [if_neg same, imp_self]
  · simp only [KernelState.names, writes.dirWord ledger, and_self, if_true]

end WritesDir

/-! ### Writing a table entry -/

/-- One entry of an existing table is replaced. -/
structure WritesLeaf (side : Side) (slot page word : Nat) (state next : KernelState) :
    Prop where
  roots : SameRoots state next
  present : state.dirWord side slot (page / 1024) ≠ 0
  written : next.mem (frameOf (state.dirWord side slot (page / 1024))) (page % 1024) = word
  rest : ∀ other, other ≠ page % 1024 →
    next.mem (frameOf (state.dirWord side slot (page / 1024))) other =
      state.mem (frameOf (state.dirWord side slot (page / 1024))) other
  mem : ∀ other, other ≠ frameOf (state.dirWord side slot (page / 1024)) →
    next.mem other = state.mem other

namespace WritesLeaf

variable {side : Side} {slot page word : Nat}

theorem agreesOff (writes : WritesLeaf side slot page word state next) :
    AgreesOff (frameOf (state.dirWord side slot (page / 1024))) state next :=
  ⟨writes.roots, writes.mem⟩

theorem dirWord (writes : WritesLeaf side slot page word state next)
    (ledger : Ledger layout state) (other : Side) (otherSlot index : Nat) :
    next.dirWord other otherSlot index = state.dirWord other otherSlot index :=
  writes.agreesOff.dirWord (root_ne_table ledger writes.present) other otherSlot index

theorem leaf (writes : WritesLeaf side slot page word state next)
    (ledger : Ledger layout state) (other : Side) (otherSlot otherPage : Nat) :
    next.leaf other otherSlot otherPage =
      if other = side ∧ otherSlot = slot ∧ otherPage = page then word
      else state.leaf other otherSlot otherPage := by
  rw [writes.agreesOff.leaf_table ledger writes.present]
  by_cases same : other = side ∧ otherSlot = slot ∧ otherPage = page
  · obtain ⟨rfl, rfl, rfl⟩ := same
    rw [if_pos ⟨rfl, rfl, rfl⟩, if_pos ⟨rfl, rfl, rfl⟩, writes.written]
  · rw [if_neg same]
    split
    · next inTable =>
        obtain ⟨rfl, rfl, table⟩ := inTable
        have otherEntry : otherPage % 1024 ≠ page % 1024 := by
          intro equal
          exact same ⟨rfl, rfl, by omega⟩
        rw [writes.rest _ otherEntry, KernelState.leaf_eq_mem (by rw [table]; exact writes.present),
          table]
    · rfl

theorem core (writes : WritesLeaf side slot page word state next)
    (core : Core layout ram state) (ledger : Ledger layout state) (quiet : Quiet state next) :
    Core layout ram next :=
  writes.agreesOff.core core quiet
    (ledger.managed _ _ (KernelState.names_table writes.present))
    (root_ne_table ledger writes.present)

theorem names_disk (writes : WritesLeaf .disk slot page word state next)
    (ledger : Ledger layout state) : next.names = state.names := by
  refine names_congr writes.roots.root (writes.dirWord ledger) fun otherSlot otherPage => ?_
  rw [writes.leaf ledger, if_neg (by simp)]

theorem names_user (writes : WritesLeaf .user slot page word state next)
    (ledger : Ledger layout state) :
    next.names = Function.update state.names (.page slot page)
      (if word = 0 then none else some (frameOf word)) := by
  funext place
  by_cases same : place = .page slot page
  · subst same
    rw [Function.update_self]
    simp only [KernelState.names, writes.leaf ledger, and_self, if_true]
  · rw [Function.update_of_ne same]
    cases place with
    | root other otherSlot => simp only [KernelState.names, writes.roots.root]
    | table other otherSlot index => simp only [KernelState.names, writes.dirWord ledger]
    | page otherSlot number =>
        have unchanged : next.leaf .user otherSlot number = state.leaf .user otherSlot number := by
          rw [writes.leaf ledger, if_neg]
          rintro ⟨-, rfl, rfl⟩
          exact same rfl
        simp only [KernelState.names, unchanged]

theorem diskNames_user (writes : WritesLeaf .user slot page word state next)
    (ledger : Ledger layout state) : next.diskNames = state.diskNames := by
  refine diskNames_congr fun otherSlot otherPage => ?_
  rw [writes.leaf ledger, if_neg (by simp)]

theorem diskNames_disk (writes : WritesLeaf .disk slot page word state next)
    (ledger : Ledger layout state) :
    next.diskNames = Function.update state.diskNames (slot, page)
      (if word = 0 then none else some word) := by
  funext place
  by_cases same : place = (slot, page)
  · subst same
    rw [Function.update_self]
    simp only [KernelState.diskNames, writes.leaf ledger, and_self, if_true]
  · rw [Function.update_of_ne same]
    have unchanged : next.leaf .disk place.1 place.2 = state.leaf .disk place.1 place.2 := by
      rw [writes.leaf ledger, if_neg]
      rintro ⟨-, first, second⟩
      exact same (Prod.ext first second)
    simp only [KernelState.diskNames, unchanged]

end WritesLeaf

end Fos.Kernel
