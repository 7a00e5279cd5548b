import Fos.Kernel.Running

/-! Taking an environment apart: what `pf_free_env` and `env_free` give back. -/

set_option autoImplicit false

namespace Fos.Kernel

open Foundation

variable {layout : BootLayout} {ram : Nat → Page} {slot : Nat}
  {start state next : KernelState}

/-- The rule for counted loops. -/
theorem wp_loopFrom {body : Nat → KernelM Unit} (invariant : Nat → KernelState → Prop)
    {fail : Stop → KernelState → Prop} {count : Nat}
    (step : ∀ index state, index < count → invariant index state →
      wp (body index) (fun _ next => invariant (index + 1) next) fail state)
    (first : invariant 0 state) :
    wp (loopFrom body 0 count) (fun _ next => invariant count next) fail state := by
  have loop (rounds : Nat) : ∀ index state, index + rounds = count → invariant index state →
      wp (loopFrom body index rounds) (fun _ next => invariant count next) fail state := by
    induction rounds with
    | zero =>
        intro index state total holds
        obtain rfl : index = count := total
        exact holds
    | succ rounds ih =>
        intro index state total holds
        rw [loopFrom, wp_bind]
        refine wp_mono (step index state (by omega) holds) (fun _ next holds => ?_) fun _ _ => id
        exact ih (index + 1) next (by omega) holds
  exact loop count 0 state (Nat.zero_add count) first

/-! ### Disk page tables -/

/-- The pages below a bound have no disk frame any more. -/
def Space.removeBelow (space : Space) (bound : Nat) : Space :=
  { space with
    diskFrame := fun page => if page < bound then 0 else space.diskFrame page
    stored := fun page => if page < bound then Page.zero else space.stored page }

namespace Space

variable (space : Space)

theorem removeBelow_diskFrame (bound page : Nat) : (space.removeBelow bound).diskFrame page =
    if page < bound then 0 else space.diskFrame page := rfl

theorem remove_removeBelow (bound : Nat) :
    (space.removeBelow bound).remove bound = space.removeBelow (bound + 1) := by
  simp only [remove, place, removeBelow, Space.mk.injEq, true_and]
  constructor <;>
  · funext page
    by_cases same : page = bound
    · simp [same]
    · have order : page < bound + 1 ↔ page < bound := by omega
      rw [Function.update_of_ne same]
      simp only [order]

theorem removeBelow_of_unplaced {low high : Nat} (order : low ≤ high)
    (unplaced : ∀ page, low ≤ page → page < high →
      space.diskFrame page = 0 ∧ space.stored page = Page.zero) :
    space.removeBelow low = space.removeBelow high := by
  simp only [removeBelow, Space.mk.injEq, true_and]
  constructor <;>
  · funext page
    by_cases below : page < low
    · rw [if_pos below, if_pos (below.trans_le order)]
    · rw [if_neg below]
      split
      · next under => simp only [unplaced page (not_lt.1 below) under]
      · rfl

end Space

/-- A table is taken out of its directory, and its frame is free. -/
@[simps!] def KernelState.releaseTable (state : KernelState) (side : Side) (slot index : Nat) :
    KernelState :=
  ((state.writeWord (state.root side slot) index 0).setReferences
    (frameOf (state.dirWord side slot index)) 0).setFreeFrameList
      (frameOf (state.dirWord side slot index) :: state.freeFrameList)

/-- Where the table is empty, nothing is lost. -/
theorem Inv.releaseTable (valid : layout.Valid) (inv : Inv layout ram state) {side : Side}
    {index : Nat} (present : state.dirWord side slot index ≠ 0)
    (empty : ∀ page, page / 1024 = index → state.leaf side slot page = 0) :
    SpaceBecomes layout ram slot [] state [] (state.releaseTable side slot index) (state.space slot) ∧
      Keeps slot [] state [] (state.releaseTable side slot index) ∧
      ∀ other, (state.releaseTable side slot index).dirWord side slot other =
        if other = index then 0 else state.dirWord side slot other := by
  obtain ⟨invTaken, _, fresh, managed, dirs, _⟩ := inv.detach valid side slot [] present
  obtain ⟨detached, keeps⟩ := inv.detach_empty valid side slot [] present empty
  obtain ⟨put, keepsPut⟩ := invTaken.put slot [] fresh managed 0
  refine ⟨⟨put.inv, detached.acts.trans put.acts, put.space.trans detached.space⟩,
    keeps.trans keepsPut, fun other => (dirs side slot other).trans ?_⟩
  simp only [true_and]

/-- The disk page tables up to an index are gone, and with `pages` entries of the next one
cleared. -/
structure Clearing (layout : BootLayout) (ram : Nat → Page) (slot tables pages : Nat)
    (start state : KernelState) : Prop where
  becomes : SpaceBecomes layout ram slot [] start [] state
    ((start.space slot).removeBelow (tables * 1024 + pages))
  keeps : Keeps slot [] start [] state
  env : state.envs slot = start.envs slot
  gone : ∀ index < tables, state.dirWord .disk slot index = 0

namespace Clearing

variable {tables pages : Nat}

theorem none (inv : Inv layout ram state) (slot : Nat) : Clearing layout ram slot 0 0 state state where
  becomes := .refl inv slot []
  keeps := .refl slot [] state
  env := rfl
  gone _ below := absurd below (Nat.not_lt_zero _)

theorem root (clearing : Clearing layout ram slot tables pages start state) (side : Side) :
    state.root side slot = start.root side slot := by
  cases side <;> simp only [KernelState.root, clearing.env]

/-- One entry of a table. -/
theorem entry (clearing : Clearing layout ram slot tables pages start state)
    (inTable : pages < 1024) {directory : Nat}
    (present : state.dirWord .disk slot tables = directory) (some : directory ≠ 0)
    {fail : Stop → KernelState → Prop} :
    wp (do
      let diskFrame := (← get).mem (frameOf directory) pages
      modify fun state => state.writeWord (frameOf directory) pages 0
      freeDiskFrame diskFrame)
      (fun _ next => Clearing layout ram slot tables (pages + 1) start next ∧
        next.dirWord .disk slot tables = directory) fail state := by
  subst present
  have table : (tables * 1024 + pages) / 1024 = tables := by omega
  have position : (tables * 1024 + pages) % 1024 = pages := by omega
  have present : state.dirWord .disk slot ((tables * 1024 + pages) / 1024) ≠ 0 := by rwa [table]
  have spec := @freeDiskFrame_spec _ _ _ _ clearing.becomes.inv _ present fail
  rw [KernelState.leaf_eq_mem present, table, position] at spec
  simp only [wp_bind, wp_get, wp_modify]
  refine wp_mono spec (fun _ next holds => ?_) fun _ _ => id
  obtain ⟨becomes, keeps, env, dirs, -⟩ := holds
  refine ⟨⟨⟨becomes.inv, clearing.becomes.acts.trans becomes.acts, ?_⟩, clearing.keeps.trans keeps,
    env.trans clearing.env, fun index low => ?_⟩, dirs .disk tables⟩
  · rw [becomes.space, clearing.becomes.space, Space.remove_removeBelow, Nat.add_assoc]
  · rw [dirs]
    exact clearing.gone index low

/-- The table that was cleared is taken out. -/
theorem detach (valid : layout.Valid) (clearing : Clearing layout ram slot tables 1024 start state)
    (present : state.dirWord .disk slot tables ≠ 0) :
    Clearing layout ram slot (tables + 1) 0 start (state.releaseTable .disk slot tables) := by
  have empty (page : Nat) (inTable : page / 1024 = tables) : state.leaf .disk slot page = 0 := by
    rw [clearing.becomes.diskFrame, Space.removeBelow_diskFrame, if_pos (by omega)]
  obtain ⟨becomes, keeps, dirs⟩ := clearing.becomes.inv.releaseTable valid present empty
  refine ⟨⟨becomes.inv, clearing.becomes.acts.trans becomes.acts, ?_⟩, clearing.keeps.trans keeps,
    clearing.env, fun index low => ?_⟩
  · have bound : (tables + 1) * 1024 + 0 = tables * 1024 + 1024 := by omega
    rw [becomes.space, clearing.becomes.space, bound]
  · rw [dirs]
    by_cases last : index = tables
    · exact if_pos last
    · rw [if_neg last]
      exact clearing.gone index (by omega)

/-- One round of `pf_free_env`. -/
theorem table (valid : layout.Valid) (clearing : Clearing layout ram slot tables 0 start state)
    (live : start.root .disk slot ≠ 0) (low : tables < userTables)
    {fail : Stop → KernelState → Prop} :
    wp (pfFreeTable (start.root .disk slot) tables)
      (fun _ next => Clearing layout ram slot (tables + 1) 0 start next) fail state := by
  rw [← clearing.root] at live ⊢
  have entry := KernelState.dirWord_eq_mem live low
  simp only [pfFreeTable, wp_bind, wp_get, ← entry]
  by_cases absent : state.dirWord .disk slot tables = 0
  · rw [absent, hasPerm_zero, if_neg Bool.false_ne_true, wp_pure]
    have unplaced (page : Nat) (lower : tables * 1024 + 0 ≤ page) (upper : page < (tables + 1) * 1024 + 0) :
        state.leaf .disk slot page = 0 := by
      refine KernelState.leaf_of_dirWord_eq_zero ?_
      rwa [show page / 1024 = tables by omega]
    have before (page : Nat) (lower : tables * 1024 + 0 ≤ page)
        (upper : page < (tables + 1) * 1024 + 0) : start.leaf .disk slot page = 0 := by
      have vacant := unplaced page lower upper
      rwa [clearing.becomes.diskFrame, Space.removeBelow_diskFrame, if_neg (not_lt.2 lower)] at vacant
    refine ⟨⟨clearing.becomes.inv, clearing.becomes.acts, ?_⟩, clearing.keeps, clearing.env, ?_⟩
    · rw [clearing.becomes.space]
      exact Space.removeBelow_of_unplaced _ (by omega) fun page lower upper =>
        ⟨before page lower upper, stored_eq_zero (before page lower upper)⟩
    · intro index below
      by_cases last : index = tables
      · rw [last, absent]
      · exact clearing.gone index (by omega)
  · rw [dirWord_present clearing.becomes.inv absent, if_pos rfl, wp_bind, wp_staticKernelVirtualAddress
      (by rw [frameOf_extractAddress]; exact frameOf_lt_of_dirWord valid clearing.becomes.inv absent)]
    rw [frameOf_extractAddress, wp_bind]
    refine wp_mono (wp_loopFrom (fun pages next => Clearing layout ram slot tables pages start next ∧
      next.dirWord .disk slot tables = state.dirWord .disk slot tables)
      (fun pages next inTable holds => holds.1.entry inTable holds.2 absent) ⟨clearing, rfl⟩)
      (fun _ next holds => ?_) fun _ _ => id
    obtain ⟨cleared, same⟩ := holds
    have root : state.root .disk slot = next.root .disk slot :=
      (clearing.root .disk).trans (cleared.root .disk).symm
    rw [← same] at absent ⊢
    have once : (next.writeWord (next.root .disk slot) tables 0).references
        (frameOf (next.dirWord .disk slot tables)) = 1 :=
      cleared.becomes.inv.references _ _ (KernelState.names_table absent)
    rw [root, wp_bind, wp_modify, wp_bind, wp_toFrameInfo
      (by rw [frameOf_extractAddress]; exact frameOf_lt_of_dirWord valid cleared.becomes.inv absent),
      frameOf_extractAddress, wp_decrementReferences once]
    exact cleared.detach valid absent

end Clearing

/-! ### Directories -/

/-- A slot forgets a directory. -/
structure DetachesRoot (side : Side) (slot : Nat) (state next : KernelState) : Prop where
  quiet : Quiet state next
  others : ∀ other, other ≠ slot → next.envs other = state.envs other
  roots : ∀ other otherSlot, next.root other otherSlot =
    if other = side ∧ otherSlot = slot then 0 else state.root other otherSlot
  physical : (next.envs slot).envCr3 = toPhysicalAddress (next.envs slot).envPageDirectory
  physicalDisk : ∀ directory, (next.envs slot).diskEnvPgdir = some directory →
    (next.envs slot).diskEnvPgdirPA = toPhysicalAddress directory ∧ directory ≠ 0
  mem : next.mem = state.mem
  free : next.freeFrameList = state.freeFrameList
  references : next.references = state.references
  diskFree : next.diskFreeFrameList = state.diskFreeFrameList
  disk : next.disk = state.disk

/-- Where the directory has no tables, its frame is in hand and nothing is lost. -/
theorem Inv.detachRoot {side : Side} (inv : Inv layout ram state) (hand : List Nat)
    (detaches : DetachesRoot side slot state next) (live : state.root side slot ≠ 0)
    (empty : ∀ index, state.dirWord side slot index = 0) :
    SpaceBecomes layout ram slot hand state (state.root side slot :: hand) next (state.space slot) ∧
      Keeps slot hand state (state.root side slot :: hand) next ∧
      next.Fresh (state.root side slot) ∧ layout.Managed (state.root side slot) ∧
      ∀ other otherSlot index,
        next.dirWord other otherSlot index = state.dirWord other otherSlot index := by
  have named := KernelState.names_root live
  have dirs (other : Side) (otherSlot index : Nat) :
      next.dirWord other otherSlot index = state.dirWord other otherSlot index := by
    by_cases same : other = side ∧ otherSlot = slot
    · obtain ⟨rfl, rfl⟩ := same
      rw [empty]
      exact if_pos (.inl (by rw [detaches.roots, if_pos ⟨rfl, rfl⟩]))
    · exact dirWord_congr (by rw [detaches.roots, if_neg same]) fun _ => by rw [detaches.mem]
  have leaves (other : Side) (otherSlot page : Nat) :
      next.leaf other otherSlot page = state.leaf other otherSlot page :=
    leaf_congr (dirs other otherSlot _) fun _ => by rw [detaches.mem]
  have names := names_of_root detaches.roots dirs leaves
  rw [if_pos rfl] at names
  have diskNames : next.diskNames = state.diskNames := diskNames_congr fun _ _ => leaves _ _ _
  have heldDiskIff := KernelState.heldDisk_congr diskNames detaches.diskFree slot
  have stored : next.diskPage = state.diskPage := by
    funext diskFrame index
    simp only [KernelState.diskPage, detaches.disk]
  have fewer (place : Place) (item : Nat) (nextNamed : next.names place = some item) :
      state.names place = some item := named_of_forgotten (names ▸ nextNamed)
  have core : Core layout ram next := core_of_root detaches.roots inv.toCore detaches.quiet detaches.others
    detaches.physical detaches.physicalDisk dirs (fun _ _ => by rw [detaches.mem]) (fun _ _ _ => by rw [detaches.mem])
    fun zero => absurd rfl zero
  have ledger : Ledger layout next := ledger_of_fewer inv.toLedger fewer (fun _ _ => by rw [diskNames]; exact id)
    detaches.free detaches.references detaches.diskFree
  refine ⟨⟨⟨core, ledger⟩, ⟨detaches.quiet, fun other => held_of_fewer fewer detaches.free rfl named,
      fun _ _ => by rw [detaches.mem], fun _ _ => by rw [detaches.references], detaches.others,
      fun diskFrame => (heldDiskIff diskFrame).1, fun _ _ => by rw [stored]⟩, ?_⟩,
    ⟨fun other => held_forgotten names detaches.free named, fun diskFrame => (heldDiskIff diskFrame).2⟩,
    ?_, inv.managed _ _ named, dirs⟩
  · have entries (other : Side) : next.leaf other slot = state.leaf other slot :=
      funext (leaves other slot)
    simp only [KernelState.space, entries, stored, detaches.mem]
  · rw [KernelState.Fresh, detaches.free]
    exact inv.exclusive.fresh_of_forgotten named fewer (by rw [names, Function.update_self]; simp)

/-- The environment has no pages in the page file any more, and what it used for them is
free. -/
theorem pfFreeEnv_spec (valid : layout.Valid) (inv : Inv layout ram state)
    (placed : (state.envs slot).diskEnvPgdir ≠ none) {fail : Stop → KernelState → Prop} :
    wp (pfFreeEnv slot) (fun _ next =>
      SpaceBecomes layout ram slot [] state [] next ((state.space slot).removeBelow userPages) ∧
        Keeps slot [] state [] next ∧
        next.envs slot = { state.envs slot with
          diskEnvPgdir := none
          diskEnvPgdirPA := 0 }) fail state := by
  have live := root_disk_ne_zero inv placed
  have directory := diskEnvPgdir_eq live
  have loop : wp (loopFrom (pfFreeTable (state.root .disk slot)) 0 userTables)
      (fun _ next => Clearing layout ram slot userTables 0 state next) fail state :=
    wp_loopFrom (fun tables next => Clearing layout ram slot tables 0 state next)
      (fun tables next low clearing => clearing.table valid live low) (.none inv slot)
  unfold pfFreeEnv
  rw [wp_bind, wp_get, directory, wp_bind]
  refine wp_mono loop (fun _ cleared clearing => ?_) fun _ _ => id
  have invCleared := clearing.becomes.inv
  have root := clearing.root .disk
  have liveCleared : cleared.root .disk slot ≠ 0 := root ▸ live
  have physical : (cleared.envs slot).diskEnvPgdirPA = toPhysicalAddress (cleared.root .disk slot) :=
    (invCleared.physicalDisk slot _ (diskEnvPgdir_eq liveCleared)).1
  have empty (index : Nat) : cleared.dirWord .disk slot index = 0 := by
    by_cases low : index < userTables
    · exact clearing.gone index low
    · exact if_pos (.inr (not_lt.1 low))
  have once := invCleared.references _ _ (KernelState.names_root liveCleared)
  have managed := invCleared.managed _ _ (KernelState.names_root liveCleared)
  have bound : frameOf (toPhysicalAddress (cleared.root .disk slot)) < cleared.numberOfFrames := by
    rw [frameOf_toPhysicalAddress, invCleared.size]
    exact (managed.pos valid).2
  have detaches : DetachesRoot .disk slot cleared (cleared.setEnv slot { cleared.envs slot with
      diskEnvPgdir := none
      diskEnvPgdirPA := 0 }) :=
    { quiet := by constructor <;> rfl
      others := fun other different => if_neg different
      roots := fun side other => by
        cases side <;> by_cases same : other = slot <;>
          simp [KernelState.root, KernelState.setEnv, same]
      physical := by simpa [KernelState.setEnv] using invCleared.physical slot
      physicalDisk := fun directory found => by simp [KernelState.setEnv] at found
      mem := rfl
      free := rfl
      references := rfl
      diskFree := rfl
      disk := rfl }
  obtain ⟨detached, keeps, fresh, -⟩ := invCleared.detachRoot [] detaches liveCleared empty
  obtain ⟨put, keepsPut⟩ := detached.inv.put slot [] fresh managed 0
  rw [wp_bind, wp_get, physical, wp_bind, wp_toFrameInfo bound, frameOf_toPhysicalAddress, wp_bind,
    wp_decrementReferences once, wp_modify]
  refine ⟨⟨put.inv, clearing.becomes.acts.trans (detached.acts.trans put.acts), ?_⟩,
    clearing.keeps.trans (keeps.trans keepsPut), ?_⟩
  · exact put.space.trans (detached.space.trans clearing.becomes.space)
  · rw [← clearing.env]
    exact if_pos rfl

end Fos.Kernel
