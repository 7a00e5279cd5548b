import Fos.Kernel.Actions

/-! The elementary changes of kernel state, each with what it does to the invariant, the
footprint and the address space. Kernel code is proved as a sequence of these. -/

set_option autoImplicit false

namespace Fos.Kernel

open Foundation

variable {layout : BootLayout} {ram : Nat → Page} {slot frame : Nat} {hand : List Nat}
  {state next : KernelState}

theorem SpaceBecomes.refl (inv : Inv layout ram state) (slot : Nat) (hand : List Nat) :
    SpaceBecomes layout ram slot hand state hand state (state.space slot) :=
  ⟨inv, .refl slot hand state, rfl⟩

/-! ### The free list -/

/-- Taking the first free frame into the hand. -/
theorem Inv.take {rest : List Nat} (inv : Inv layout ram state) (slot : Nat) (hand : List Nat)
    (free : state.freeFrameList = frame :: rest) (count : Nat) :
    SpaceBecomes layout ram slot hand state (frame :: hand)
        ((state.setFreeFrameList rest).setReferences frame count) (state.space slot) ∧
      Keeps slot hand state (frame :: hand)
        ((state.setFreeFrameList rest).setReferences frame count) ∧
      ((state.setFreeFrameList rest).setReferences frame count).Fresh frame ∧
      layout.Managed frame := by
  have exclusive := inv.exclusive
  rw [free] at exclusive
  obtain ⟨remaining, fresh⟩ := exclusive.take
  have managedFree := inv.managedFree
  rw [free, List.forall_mem_cons] at managedFree
  have heldIff (other : Nat) :
      ((state.setFreeFrameList rest).setReferences frame count).Held slot (frame :: hand) other ↔
        state.Held slot hand other := by
    have names : ((state.setFreeFrameList rest).setReferences frame count).names = state.names :=
      rfl
    simp only [KernelState.Held, names, KernelState.setReferences_freeFrameList,
      KernelState.setFreeFrameList_freeFrameList, free, List.mem_cons]
    constructor
    · rintro (inRest | named | same | inHand)
      · exact .inl (.inr inRest)
      · exact .inr (.inl named)
      · exact .inl (.inl same)
      · exact .inr (.inr inHand)
    · rintro ((same | inRest) | named | inHand)
      · exact .inr (.inr (.inl same))
      · exact .inl inRest
      · exact .inr (.inl named)
      · exact .inr (.inr (.inr inHand))
  refine ⟨⟨⟨?_, ?_⟩, ⟨by constructor <;> rfl, fun other => (heldIff other).1, fun _ _ => rfl,
    fun other apart => if_neg fun same => apart (.inl ?_), fun _ _ => rfl, fun _ => id,
    fun _ _ => rfl⟩, rfl⟩, ⟨fun other => (heldIff other).2, fun _ => id⟩, fresh, managedFree.1⟩
  · exact { inv.toCore with }
  · refine ⟨remaining, managedFree.2, inv.managed, fun place other named => ?_,
      inv.diskExclusive, inv.diskPositive⟩
    have different : other ≠ frame := fun same => fresh.unnamed place (same ▸ named)
    simp only [KernelState.setReferences, if_neg different]
    exact inv.references place other named
  · rw [free, same]
    exact List.mem_cons_self ..

/-- Giving a frame in hand back. -/
theorem Inv.put (inv : Inv layout ram state) (slot : Nat) (hand : List Nat) (fresh : state.Fresh frame)
    (managed : layout.Managed frame) (count : Nat) :
    SpaceBecomes layout ram slot (frame :: hand) state hand
        ((state.setReferences frame count).setFreeFrameList (frame :: state.freeFrameList))
        (state.space slot) ∧
      Keeps slot (frame :: hand) state hand
        ((state.setReferences frame count).setFreeFrameList (frame :: state.freeFrameList)) := by
  have heldIff (other : Nat) :
      ((state.setReferences frame count).setFreeFrameList
        (frame :: state.freeFrameList)).Held slot hand other ↔
        state.Held slot (frame :: hand) other := by
    have names : ((state.setReferences frame count).setFreeFrameList
        (frame :: state.freeFrameList)).names = state.names := rfl
    simp only [KernelState.Held, names, KernelState.setFreeFrameList_freeFrameList,
      List.mem_cons]
    constructor
    · rintro ((same | inFree) | named | inHand)
      · exact .inr (.inr (.inl same))
      · exact .inl inFree
      · exact .inr (.inl named)
      · exact .inr (.inr (.inr inHand))
    · rintro (inFree | named | same | inHand)
      · exact .inl (.inr inFree)
      · exact .inr (.inl named)
      · exact .inl (.inl same)
      · exact .inr (.inr inHand)
  refine ⟨⟨⟨?_, ?_⟩, ⟨by constructor <;> rfl, fun other => (heldIff other).1, fun _ _ => rfl,
    fun other apart => if_neg fun same => apart (.inr (.inr ?_)), fun _ _ => rfl, fun _ => id,
    fun _ _ => rfl⟩, rfl⟩, ⟨fun other => (heldIff other).2, fun _ => id⟩⟩
  · exact { inv.toCore with }
  · refine ⟨inv.exclusive.put fresh, List.forall_mem_cons.2 ⟨managed, inv.managedFree⟩,
      inv.managed, fun place other named => ?_, inv.diskExclusive, inv.diskPositive⟩
    have different : other ≠ frame := fun same => fresh.unnamed place (same ▸ named)
    simp only [KernelState.setFreeFrameList, KernelState.setReferences, if_neg different]
    exact inv.references place other named
  · rw [same]
    exact List.mem_cons_self ..

/-- A frame leaves the hand and is lost. -/
theorem SpaceBecomes.drop {hand' : List Nat} {space : Space}
    (becomes : SpaceBecomes layout ram slot hand state (frame :: hand') next space) :
    SpaceBecomes layout ram slot hand state hand' next space where
  inv := becomes.inv
  acts := { becomes.acts with
    held := fun other held => becomes.acts.held other
      (held.imp_right fun rest => rest.imp_right (List.mem_cons_of_mem _)) }
  space := becomes.space

/-- The reference count of a frame in hand is its user's business. -/
theorem Inv.setReferences (inv : Inv layout ram state) (slot : Nat)
    (fresh : state.Fresh frame) (inHand : frame ∈ hand) (count : Nat) :
    SpaceBecomes layout ram slot hand state hand (state.setReferences frame count)
        (state.space slot) ∧
      Keeps slot hand state hand (state.setReferences frame count) := by
  refine ⟨⟨⟨{ inv.toCore with }, ?_⟩, ⟨by constructor <;> rfl, fun _ => id, fun _ _ => rfl,
    fun other apart => if_neg (?_ : other ≠ frame), fun _ _ => rfl,
    fun _ => id, fun _ _ => rfl⟩, rfl⟩, fun _ => id, fun _ => id⟩
  · refine { inv.toLedger with references := fun place other named => ?_ }
    have different : other ≠ frame := fun same => fresh.unnamed place (same ▸ named)
    simp only [KernelState.setReferences, if_neg different]
    exact inv.references place other named
  · rintro rfl
    exact apart (.inr (.inr inHand))

/-- The ledger speaks of names, free lists and reference counts only. -/
theorem Ledger.congr (ledger : Ledger layout state) (names : next.names = state.names)
    (diskNames : next.diskNames = state.diskNames)
    (free : next.freeFrameList = state.freeFrameList)
    (references : next.references = state.references)
    (diskFree : next.diskFreeFrameList = state.diskFreeFrameList) : Ledger layout next where
  exclusive := by
    rw [free, names]
    exact ledger.exclusive
  managedFree := by
    rw [free]
    exact ledger.managedFree
  managed := by
    rw [names]
    exact ledger.managed
  references := by
    rw [names, references]
    exact ledger.references
  diskExclusive := by
    rw [diskFree, diskNames]
    exact ledger.diskExclusive
  diskPositive := by
    rw [diskFree]
    exact ledger.diskPositive

theorem KernelState.held_congr (names : next.names = state.names)
    (free : next.freeFrameList = state.freeFrameList) (slot : Nat) (hand : List Nat)
    (frame : Nat) : next.Held slot hand frame ↔ state.Held slot hand frame := by
  simp only [KernelState.Held, names, free]

theorem KernelState.heldDisk_congr (diskNames : next.diskNames = state.diskNames)
    (diskFree : next.diskFreeFrameList = state.diskFreeFrameList) (slot diskFrame : Nat) :
    next.HeldDisk slot diskFrame ↔ state.HeldDisk slot diskFrame := by
  simp only [KernelState.HeldDisk, diskNames, diskFree]

/-! ### Environment records -/

/-- A record with the same directories. -/
theorem Inv.setEnv (inv : Inv layout ram state) (hand : List Nat) (env : Env)
    (directory : env.envPageDirectory = (state.envs slot).envPageDirectory)
    (cr3 : env.envCr3 = (state.envs slot).envCr3)
    (disk : env.diskEnvPgdir = (state.envs slot).diskEnvPgdir)
    (diskPA : env.diskEnvPgdirPA = (state.envs slot).diskEnvPgdirPA) :
    SpaceBecomes layout ram slot hand state hand (state.setEnv slot env) (state.space slot) ∧
      Keeps slot hand state hand (state.setEnv slot env) ∧
      ∀ side other index, (state.setEnv slot env).dirWord side other index =
        state.dirWord side other index := by
  have roots : SameRoots state (state.setEnv slot env) := by
    constructor <;> intro other <;> simp only [KernelState.setEnv] <;> split <;>
      simp only [*]
  have dirs (side : Side) (other index : Nat) : (state.setEnv slot env).dirWord side other index =
      state.dirWord side other index := dirWord_congr (roots.root side other) fun _ => rfl
  have leaves (side : Side) (other page : Nat) : (state.setEnv slot env).leaf side other page =
      state.leaf side other page := leaf_congr (dirs side other _) fun _ => rfl
  have names := names_congr roots.root dirs (leaves .user)
  have diskNames := diskNames_congr (leaves .disk)
  have heldIff := KernelState.held_congr names rfl slot hand
  have heldDiskIff := KernelState.heldDisk_congr diskNames rfl slot
  refine ⟨⟨⟨?_, inv.toLedger.congr names diskNames rfl rfl rfl⟩,
    ⟨by constructor <;> rfl, fun other => (heldIff other).1, fun _ _ => rfl, fun _ _ => rfl,
      fun other different => if_neg different, fun diskFrame => (heldDiskIff diskFrame).1,
      fun _ _ => rfl⟩, ?_⟩,
    ⟨fun other => (heldIff other).2, fun diskFrame => (heldDiskIff diskFrame).2⟩, dirs⟩
  · exact {
      size := inv.size
      directory := inv.directory
      kernel := inv.kernel
      words := fun side other index => by
        rw [dirs]
        exact inv.words side other index
      upper := fun side other index => by
        rw [roots.root]
        exact inv.upper side other index
      physical := fun other => by
        rw [roots.cr3, roots.user]
        exact inv.physical other
      physicalDisk := fun other directory => by
        rw [roots.disk, roots.diskPA]
        exact inv.physicalDisk other directory }
  · have entries (side : Side) : (state.setEnv slot env).leaf side slot =
        state.leaf side slot := funext (leaves side slot)
    simp only [KernelState.space, entries]
    rfl

/-! ### Frame contents -/

private theorem agreesOff_writeFrame (state : KernelState) (frame : Nat) (page : Page) :
    AgreesOff frame state (state.writeFrame frame page) :=
  ⟨.of_envs rfl, fun other different => by simp only [KernelState.writeFrame, if_neg different]⟩

/-- Writing one word of a frame. -/
theorem writeWord_eq_writeFrame (state : KernelState) (frame index word : Nat) :
    state.writeWord frame index word =
      state.writeFrame frame (Function.update (state.mem frame) index word) := by
  simp only [KernelState.writeWord, KernelState.writeFrame, KernelState.mk.injEq, and_true]
  funext other position
  by_cases same : other = frame
  · subst same
    by_cases here : position = index <;> simp [here, Function.update_of_ne]
  · simp [same]

/-- Writing a frame in hand. -/
theorem Inv.writeFresh (inv : Inv layout ram state) (slot : Nat) (fresh : state.Fresh frame)
    (managed : layout.Managed frame) (inHand : frame ∈ hand) (page : Page) :
    SpaceBecomes layout ram slot hand state hand (state.writeFrame frame page) (state.space slot) ∧
      Keeps slot hand state hand (state.writeFrame frame page) := by
  have agrees := agreesOff_writeFrame state frame page
  have notNode := NotNode.of_fresh fresh
  have names := agrees.names notNode
  have diskNames := agrees.diskNames notNode
  have leaves := agrees.leaf notNode
  have heldIff := KernelState.held_congr names rfl slot hand
  have heldDiskIff := KernelState.heldDisk_congr diskNames rfl slot
  refine ⟨⟨⟨agrees.core inv.toCore (by constructor <;> rfl) managed notNode.root, ?_⟩,
    ⟨by constructor <;> rfl, fun other => (heldIff other).1, fun other apart => ?_, fun _ _ => rfl,
      fun _ _ => rfl, fun diskFrame => (heldDiskIff diskFrame).1, fun _ _ => rfl⟩, ?_⟩,
    fun other => (heldIff other).2, fun diskFrame => (heldDiskIff diskFrame).2⟩
  · exact inv.toLedger.congr names diskNames rfl rfl rfl
  · exact agrees.mem other fun same => apart (.inr (.inr (same ▸ inHand)))
  · have entries (side : Side) : (state.writeFrame frame page).leaf side slot =
        state.leaf side slot := funext (leaves side slot)
    simp only [KernelState.space, entries, Space.mk.injEq, true_and]
    refine ⟨funext fun number => ?_, rfl⟩
    split
    · rfl
    · next mapped =>
        rw [agrees.mem _ fun same =>
          fresh.unnamed (.page slot number) (same ▸ KernelState.names_page mapped)]

/-- A frame in hand stays in hand when it is written. -/
theorem fresh_writeFrame (fresh : state.Fresh frame) (page : Page) :
    (state.writeFrame frame page).Fresh frame where
  notFree := fresh.notFree
  unnamed place := by
    rw [(agreesOff_writeFrame state frame page).names (NotNode.of_fresh fresh)]
    exact fresh.unnamed place

/-! ### Naming -/

private theorem held_of_update {place : Place} {hand' : List Nat}
    (names : next.names = Function.update state.names place (some frame))
    (free : next.freeFrameList = state.freeFrameList) {other : Nat}
    (held : next.Held slot hand' other) : state.Held slot (frame :: hand') other := by
  rcases held with inFree | ⟨own, ownSlot, named⟩ | inHand
  · exact .inl (free ▸ inFree)
  · rw [names] at named
    by_cases same : own = place
    · rw [same, Function.update_self] at named
      obtain rfl := Option.some.inj named
      exact .inr (.inr (List.mem_cons_self ..))
    · rw [Function.update_of_ne same] at named
      exact .inr (.inl ⟨own, ownSlot, named⟩)
  · exact .inr (.inr (List.mem_cons_of_mem _ inHand))

private theorem update_of_held {place : Place} {hand' : List Nat}
    (names : next.names = Function.update state.names place (some frame))
    (free : next.freeFrameList = state.freeFrameList)
    (ownPlace : place.slot = slot) (vacant : state.names place = none) {other : Nat}
    (held : state.Held slot (frame :: hand') other) : next.Held slot hand' other := by
  rcases held with inFree | ⟨own, ownSlot, named⟩ | inHand
  · exact .inl (free ▸ inFree)
  · have different : own ≠ place := by
      rintro rfl
      rw [vacant] at named
      cases named
    exact .inr (.inl ⟨own, ownSlot, by rw [names, Function.update_of_ne different, named]⟩)
  · rcases List.mem_cons.1 inHand with rfl | inHand
    · exact .inr (.inl ⟨place, ownPlace, by rw [names, Function.update_self]⟩)
    · exact .inr (.inr inHand)

private theorem ledger_of_update {place : Place} (ledger : Ledger layout state)
    (names : next.names = Function.update state.names place (some frame))
    (diskNames : next.diskNames = state.diskNames)
    (free : next.freeFrameList = state.freeFrameList)
    (references : next.references = state.references)
    (diskFree : next.diskFreeFrameList = state.diskFreeFrameList) (fresh : state.Fresh frame)
    (managed : layout.Managed frame) (once : state.references frame = 1) :
    Ledger layout next where
  exclusive := by
    rw [free, names]
    exact ledger.exclusive.bind fresh place
  managedFree := by
    rw [free]
    exact ledger.managedFree
  managed other item named := by
    rw [names] at named
    by_cases same : other = place
    · rw [same, Function.update_self] at named
      obtain rfl := Option.some.inj named
      exact managed
    · rw [Function.update_of_ne same] at named
      exact ledger.managed other item named
  references other item named := by
    rw [references]
    rw [names] at named
    by_cases same : other = place
    · rw [same, Function.update_self] at named
      obtain rfl := Option.some.inj named
      exact once
    · rw [Function.update_of_ne same] at named
      exact ledger.references other item named
  diskExclusive := by
    rw [diskFree, diskNames]
    exact ledger.diskExclusive
  diskPositive := by
    rw [diskFree]
    exact ledger.diskPositive

/-! ### Forgetting -/

/-- What a place of the environment forgot is in hand. -/
theorem held_of_fewer {place : Place}
    (fewer : ∀ place item, next.names place = some item → state.names place = some item)
    (free : next.freeFrameList = state.freeFrameList)
    (own : place.slot = slot) (named : state.names place = some frame) {other : Nat}
    (held : next.Held slot (frame :: hand) other) : state.Held slot hand other := by
  rcases held with inFree | ⟨place, own, nextNamed⟩ | inHand
  · exact .inl (free ▸ inFree)
  · exact .inr (.inl ⟨place, own, fewer _ _ nextNamed⟩)
  · rcases List.mem_cons.1 inHand with rfl | inHand
    · exact .inr (.inl ⟨_, own, named⟩)
    · exact .inr (.inr inHand)

theorem held_forgotten {place : Place} (names : next.names = Function.update state.names place none)
    (free : next.freeFrameList = state.freeFrameList) (named : state.names place = some frame) {other : Nat}
    (held : state.Held slot hand other) : next.Held slot (frame :: hand) other := by
  rcases held with inFree | ⟨own, ownSlot, oldNamed⟩ | inHand
  · exact .inl (free ▸ inFree)
  · by_cases same : own = place
    · rw [same, named] at oldNamed
      exact .inr (.inr (List.mem_cons.2 (.inl (Option.some.inj oldNamed).symm)))
    · exact .inr (.inl ⟨own, ownSlot, by rw [names, Function.update_of_ne same, oldNamed]⟩)
  · exact .inr (.inr (List.mem_cons_of_mem _ inHand))

theorem ledger_of_fewer (ledger : Ledger layout state)
    (fewer : ∀ place item, next.names place = some item → state.names place = some item)
    (fewerDisk : ∀ place item, next.diskNames place = some item → state.diskNames place = some item)
    (free : next.freeFrameList = state.freeFrameList) (references : next.references = state.references)
    (diskFree : next.diskFreeFrameList = state.diskFreeFrameList) : Ledger layout next where
  exclusive := free ▸ ledger.exclusive.restrict fewer
  managedFree := free ▸ ledger.managedFree
  managed _ _ named := ledger.managed _ _ (fewer _ _ named)
  references _ _ named := references ▸ ledger.references _ _ (fewer _ _ named)
  diskExclusive := diskFree ▸ ledger.diskExclusive.restrict fewerDisk
  diskPositive := diskFree ▸ ledger.diskPositive

/-! ### Tables -/

/-- A fresh frame of zeros becomes a table. -/
theorem Inv.attach {index : Nat} (inv : Inv layout ram state) (side : Side) (slot : Nat)
    (hand : List Nat)
    (live : state.root side slot ≠ 0) (low : index < userTables)
    (absent : state.dirWord side slot index = 0) (fresh : state.Fresh frame)
    (managed : layout.Managed frame) (positive : frame ≠ 0)
    (once : state.references frame = 1) :
    let next := (state.writeWord (state.root side slot) index
      (constructEntry (toPhysicalAddress frame) side.permissions)).writeFrame frame Page.zero
    SpaceBecomes layout ram slot (frame :: hand) state hand next (state.space slot) ∧
      Keeps slot (frame :: hand) state hand next ∧
      ∀ other otherSlot otherIndex, next.dirWord other otherSlot otherIndex =
        if other = side ∧ otherSlot = slot ∧ otherIndex = index then
          constructEntry (toPhysicalAddress frame) side.permissions
        else state.dirWord other otherSlot otherIndex := by
  intro next
  have lowPermissions : side.permissions < pageSize := by cases side <;> decide
  have rootNamed := KernelState.names_root live
  have rootNe : state.root side slot ≠ frame := fun same =>
    fresh.unnamed _ (same ▸ rootNamed)
  have writes : WritesDir side slot index
      (constructEntry (toPhysicalAddress frame) side.permissions) frame state next := by
    refine ⟨.of_envs rfl, live, low, ?_, fun other different => ?_, fun other notRoot notFrame => ?_,
      .of_fresh fresh⟩
    · simp [next, KernelState.writeFrame, KernelState.writeWord, rootNe]
    · simp [next, KernelState.writeFrame, KernelState.writeWord, rootNe, different]
    · simp [next, KernelState.writeFrame, KernelState.writeWord, notRoot, notFrame]
  have frameOf_word : frameOf (constructEntry (toPhysicalAddress frame) side.permissions) =
      frame := frameOf_constructEntry frame lowPermissions
  have present : constructEntry (toPhysicalAddress frame) side.permissions ≠ 0 := by
    rw [constructEntry_eq frame lowPermissions]
    simp only [pageSize]
    omega
  have zero : next.mem frame = Page.zero := by
    simp [next, KernelState.writeFrame]
  obtain ⟨leaves, names⟩ := writes.attach inv.toLedger absent present frameOf_word zero
  have diskNames : next.diskNames = state.diskNames := diskNames_congr fun _ _ => leaves _ _ _
  have vacant : state.names (.table side slot index) = none := by
    simp [KernelState.names, absent]
  have ledger : Ledger layout next := ledger_of_update inv.toLedger names diskNames rfl rfl rfl
    fresh managed once
  have core : Core layout ram next := writes.core inv.toCore inv.toLedger
    (by constructor <;> rfl)
    (fun other unmanaged => writes.mem other
      (fun same => unmanaged (same ▸ inv.managed _ _ rootNamed))
      fun same => unmanaged (same ▸ managed))
    fun _ => by rw [frameOf_word]
  have heldDiskIff := KernelState.heldDisk_congr diskNames rfl slot
  refine ⟨⟨⟨core, ledger⟩, ⟨by constructor <;> rfl, fun other => held_of_update names rfl,
    fun other apart => ?_, fun _ _ => rfl, fun _ _ => rfl,
    fun diskFrame => (heldDiskIff diskFrame).1, fun _ _ => rfl⟩, ?_⟩,
    ⟨fun other => update_of_held names rfl rfl vacant,
      fun diskFrame => (heldDiskIff diskFrame).2⟩, writes.dirWord inv.toLedger⟩
  · refine writes.mem other (fun same => apart ?_) fun same => apart ?_
    · exact .inr (.inl ⟨_, rfl, same ▸ rootNamed⟩)
    · exact .inr (.inr (same ▸ List.mem_cons_self ..))
  · have entries (side : Side) : next.leaf side slot = state.leaf side slot :=
      funext (leaves side slot)
    simp only [KernelState.space, entries, Space.mk.injEq, true_and]
    refine ⟨funext fun number => ?_, rfl⟩
    split
    · rfl
    · next mapped =>
        have named := KernelState.names_page mapped
        rw [writes.mem]
        · intro same
          have := inv.exclusive.injective _ _ _ named (same ▸ rootNamed)
          cases this
        · exact fun same => fresh.unnamed _ (same ▸ named)

/-- A table is taken out of its directory: its frame is in hand. What its entries name
is lost. -/
theorem Inv.detach {index : Nat} (valid : layout.Valid) (inv : Inv layout ram state) (side : Side) (slot : Nat)
    (hand : List Nat) (present : state.dirWord side slot index ≠ 0) :
    let next := state.writeWord (state.root side slot) index 0
    Inv layout ram next ∧
      Acts slot hand state (frameOf (state.dirWord side slot index) :: hand) next ∧
      next.Fresh (frameOf (state.dirWord side slot index)) ∧
      layout.Managed (frameOf (state.dirWord side slot index)) ∧
      (∀ other otherSlot otherIndex, next.dirWord other otherSlot otherIndex =
        if other = side ∧ otherSlot = slot ∧ otherIndex = index then 0
        else state.dirWord other otherSlot otherIndex) ∧
      (∀ other otherSlot page, next.leaf other otherSlot page =
        if other = side ∧ otherSlot = slot ∧ page / 1024 = index then 0
        else state.leaf other otherSlot page) := by
  intro next
  obtain ⟨live, low⟩ := KernelState.root_ne_zero_of_dirWord present
  have rootNamed := KernelState.names_root live
  have named := KernelState.names_table present
  -- no second frame is written: frame 0 stands for it
  have notNode : NotNode state 0 := ⟨fun _ _ live => live, fun other otherSlot otherIndex some =>
    (Nat.lt_of_lt_of_le (by decide)
      ((inv.managed _ _ (KernelState.names_table some)).pos valid).1).ne'⟩
  have writes : WritesDir side slot index 0 0 state next := by
    refine ⟨.of_envs rfl, live, low, ?_, fun other different => ?_, fun other notRoot _ => ?_,
      notNode⟩
    · simp [next, KernelState.writeWord]
    · simp [next, KernelState.writeWord, different]
    · funext position
      simp [next, KernelState.writeWord, notRoot]
  have mem (other : Nat) (notRoot : other ≠ state.root side slot) :
      next.mem other = state.mem other := by
    funext position
    simp [next, KernelState.writeWord, notRoot]
  obtain ⟨leaves, fewer, forgotten⟩ := writes.detach inv.toLedger
  have fewerDisk (place : Nat × Nat) (item : Nat) (nextNamed : next.diskNames place = some item) :
      state.diskNames place = some item := by
    simp only [KernelState.diskNames, leaves] at nextNamed ⊢
    split at nextNamed
    · simp at nextNamed
    · exact nextNamed
  refine ⟨⟨?_, ledger_of_fewer inv.toLedger fewer fewerDisk rfl rfl rfl⟩,
    ⟨by constructor <;> rfl, fun other => held_of_fewer fewer rfl rfl named, fun other apart => ?_,
      fun _ _ => rfl, fun _ _ => rfl, fun diskFrame held => ?_, fun _ _ => rfl⟩,
    inv.exclusive.fresh_of_forgotten named fewer (by rw [forgotten]; simp),
    inv.managed _ _ named, writes.dirWord inv.toLedger, leaves⟩
  · exact writes.core inv.toCore inv.toLedger (by constructor <;> rfl)
      (fun other unmanaged => mem other fun same => unmanaged (same ▸ inv.managed _ _ rootNamed))
      (fun zero => absurd rfl zero)
  · exact mem other fun same => apart (.inr (.inl ⟨_, rfl, same ▸ rootNamed⟩))
  · exact held.imp_right fun named => named.imp fun page => fewerDisk (slot, page) diskFrame

/-- Where the table has no entries, nothing is lost. -/
theorem Inv.detach_empty {index : Nat} (valid : layout.Valid) (inv : Inv layout ram state)
    (side : Side) (slot : Nat) (hand : List Nat)
    (present : state.dirWord side slot index ≠ 0)
    (empty : ∀ page, page / 1024 = index → state.leaf side slot page = 0) :
    let next := state.writeWord (state.root side slot) index 0
    SpaceBecomes layout ram slot hand state (frameOf (state.dirWord side slot index) :: hand) next
        (state.space slot) ∧
      Keeps slot hand state (frameOf (state.dirWord side slot index) :: hand) next := by
  intro next
  obtain ⟨invNext, acts, fresh, managed, dirs, leaves⟩ := inv.detach valid side slot hand present
  have sameLeaves (other : Side) (otherSlot page : Nat) :
      next.leaf other otherSlot page = state.leaf other otherSlot page := by
    refine (leaves other otherSlot page).trans ?_
    split
    · next same =>
        obtain ⟨rfl, rfl, inTable⟩ := same
        exact (empty page inTable).symm
    · rfl
  have entries (other : Side) : next.leaf other slot = state.leaf other slot :=
    funext (sameLeaves other slot)
  have rootNamed := KernelState.names_root (KernelState.root_ne_zero_of_dirWord present).1
  refine ⟨⟨invNext, acts, ?_⟩, fun other held => ?_, fun diskFrame held => ?_⟩
  · simp only [KernelState.space, entries, Space.mk.injEq, true_and]
    refine ⟨funext fun page => ?_, rfl⟩
    split
    · rfl
    · next mapped =>
        have notRoot : frameOf (state.leaf .user slot page) ≠ state.root side slot := by
          intro same
          have := inv.exclusive.injective _ _ _ (KernelState.names_page mapped) (same ▸ rootNamed)
          cases this
        congr 1
        funext position
        simp [next, KernelState.writeWord, notRoot]
  · rcases held with inFree | ⟨place, own, named⟩ | inHand
    · exact .inl inFree
    · cases place with
      | root other otherSlot => exact .inr (.inl ⟨_, own, named⟩)
      | table other otherSlot otherIndex =>
          by_cases same : other = side ∧ otherSlot = slot ∧ otherIndex = index
          · obtain ⟨rfl, rfl, rfl⟩ := same
            rw [KernelState.names_table present] at named
            exact .inr (.inr (List.mem_cons.2 (.inl (Option.some.inj named).symm)))
          · refine .inr (.inl ⟨.table other otherSlot otherIndex, own, ?_⟩)
            simp only [KernelState.names] at named ⊢
            rw [dirs, if_neg same]
            exact named
      | page otherSlot number =>
          refine .inr (.inl ⟨.page otherSlot number, own, ?_⟩)
          simp only [KernelState.names] at named ⊢
          rw [sameLeaves]
          exact named
    · exact .inr (.inr (List.mem_cons_of_mem _ inHand))
  · apply held.imp_right
    apply Exists.imp
    intro page named
    simp only [KernelState.diskNames] at named ⊢
    rw [sameLeaves]
    exact named

/-! ### Directories -/

/-- A frame with an empty directory below `USER_TOP` becomes a directory of a slot. -/
structure AttachesRoot (layout : BootLayout) (side : Side) (slot frame : Nat)
    (state next : KernelState) : Prop where
  quiet : Quiet state next
  others : ∀ other, other ≠ slot → next.envs other = state.envs other
  roots : ∀ other otherSlot, next.root other otherSlot =
    if other = side ∧ otherSlot = slot then frame else state.root other otherSlot
  physical : (next.envs slot).envCr3 = toPhysicalAddress (next.envs slot).envPageDirectory
  physicalDisk : ∀ directory, (next.envs slot).diskEnvPgdir = some directory →
    (next.envs slot).diskEnvPgdirPA = toPhysicalAddress directory ∧ directory ≠ 0
  mem : ∀ other, other ≠ frame → next.mem other = state.mem other
  low : ∀ index < userTables, next.mem frame index = 0
  high : ∀ index, userTables ≤ index → index < 1024 →
    next.mem frame index = layout.upperWord side frame index
  free : next.freeFrameList = state.freeFrameList
  references : next.references = state.references
  diskFree : next.diskFreeFrameList = state.diskFreeFrameList
  disk : next.disk = state.disk

section Roots

variable {side : Side} (roots : ∀ other otherSlot, next.root other otherSlot =
  if other = side ∧ otherSlot = slot then frame else state.root other otherSlot)

include roots

/-- Only the root of one directory is another. -/
theorem names_of_root
    (dirs : ∀ other otherSlot index, next.dirWord other otherSlot index = state.dirWord other otherSlot index)
    (leaves : ∀ other otherSlot page, next.leaf other otherSlot page = state.leaf other otherSlot page) :
    next.names = Function.update state.names (.root side slot) (if frame = 0 then none else some frame) := by
  funext place
  by_cases same : place = .root side slot
  · rw [same, Function.update_self]
    simp only [KernelState.names, roots, and_self, if_true]
  · rw [Function.update_of_ne same]
    cases place with
    | root other otherSlot =>
        have different : ¬ (other = side ∧ otherSlot = slot) := by
          rintro ⟨rfl, rfl⟩
          exact same rfl
        simp only [KernelState.names, roots, if_neg different]
    | table other otherSlot index => simp only [KernelState.names, dirs]
    | page otherSlot number => simp only [KernelState.names, leaves]

theorem core_of_root (core : Core layout ram state) (quiet : Quiet state next)
    (others : ∀ other, other ≠ slot → next.envs other = state.envs other)
    (physical : (next.envs slot).envCr3 = toPhysicalAddress (next.envs slot).envPageDirectory)
    (physicalDisk : ∀ directory, (next.envs slot).diskEnvPgdir = some directory →
      (next.envs slot).diskEnvPgdirPA = toPhysicalAddress directory ∧ directory ≠ 0)
    (dirs : ∀ other otherSlot index, next.dirWord other otherSlot index = state.dirWord other otherSlot index)
    (kernel : ∀ other, ¬ layout.Managed other → next.mem other = state.mem other)
    (kept : ∀ other otherSlot, state.root other otherSlot ≠ 0 →
      next.mem (state.root other otherSlot) = state.mem (state.root other otherSlot))
    (high : frame ≠ 0 → ∀ index, userTables ≤ index → index < 1024 →
      next.mem frame index = layout.upperWord side frame index) : Core layout ram next where
  size := quiet.size.trans core.size
  directory := quiet.directory.trans core.directory
  kernel other unmanaged := (kernel other unmanaged).trans (core.kernel other unmanaged)
  words other otherSlot index := by
    rw [dirs]
    exact core.words other otherSlot index
  upper other otherSlot index := by
    rw [roots]
    split
    · next same =>
        rw [same.1]
        exact fun live => high live index
    · intro live
      rw [kept other otherSlot live]
      exact core.upper other otherSlot index live
  physical other := by
    by_cases same : other = slot
    · rw [same]
      exact physical
    · rw [others other same]
      exact core.physical other
  physicalDisk other directory := by
    by_cases same : other = slot
    · rw [same]
      exact physicalDisk directory
    · rw [others other same]
      exact core.physicalDisk other directory

end Roots

theorem Inv.attachRoot {side : Side} (inv : Inv layout ram state) (hand : List Nat)
    (attaches : AttachesRoot layout side slot frame state next)
    (vacant : state.root side slot = 0) (fresh : state.Fresh frame)
    (managed : layout.Managed frame) (positive : frame ≠ 0)
    (once : state.references frame = 1) :
    SpaceBecomes layout ram slot (frame :: hand) state hand next (state.space slot) ∧
      Keeps slot (frame :: hand) state hand next ∧
      ∀ other otherSlot index,
        next.dirWord other otherSlot index = state.dirWord other otherSlot index := by
  have notNode := NotNode.of_fresh fresh
  have dirs (other : Side) (otherSlot index : Nat) :
      next.dirWord other otherSlot index = state.dirWord other otherSlot index := by
    by_cases same : other = side ∧ otherSlot = slot
    · obtain ⟨rfl, rfl⟩ := same
      have absent : state.dirWord other otherSlot index = 0 := if_pos (.inl vacant)
      have root : next.root other otherSlot = frame := by
        rw [attaches.roots, if_pos ⟨rfl, rfl⟩]
      rw [absent, KernelState.dirWord, root]
      split
      · rfl
      · next inside => exact attaches.low index (not_le.1 (not_or.1 inside).2)
    · refine dirWord_congr (by rw [attaches.roots, if_neg same]) fun live => ?_
      rw [attaches.mem _ (notNode.root other otherSlot live)]
  have leaves (other : Side) (otherSlot page : Nat) :
      next.leaf other otherSlot page = state.leaf other otherSlot page :=
    leaf_congr (dirs other otherSlot _) fun present => by
      rw [attaches.mem _ (notNode.table other otherSlot _ present)]
  have names := names_of_root attaches.roots dirs leaves
  rw [if_neg positive] at names
  have diskNames : next.diskNames = state.diskNames := diskNames_congr fun _ _ => leaves _ _ _
  have vacantName : state.names (.root side slot) = none := if_pos vacant
  have stored : next.diskPage = state.diskPage := by
    funext diskFrame index
    simp only [KernelState.diskPage, attaches.disk]
  have heldDiskIff := KernelState.heldDisk_congr diskNames attaches.diskFree slot
  have ledger : Ledger layout next := ledger_of_update inv.toLedger names diskNames attaches.free
    attaches.references attaches.diskFree fresh managed once
  have core : Core layout ram next := core_of_root attaches.roots inv.toCore attaches.quiet attaches.others
    attaches.physical attaches.physicalDisk dirs
    (fun other unmanaged => attaches.mem other fun same => unmanaged (same ▸ managed))
    (fun other otherSlot live => attaches.mem _ (notNode.root other otherSlot live)) fun _ => attaches.high
  refine ⟨⟨⟨core, ledger⟩, ⟨attaches.quiet, fun other => held_of_update names attaches.free,
      fun other apart => attaches.mem other fun same => apart ?_,
      fun other _ => congrFun attaches.references other, attaches.others,
      fun diskFrame => (heldDiskIff diskFrame).1, fun diskFrame _ => ?_⟩, ?_⟩,
    ⟨fun other => update_of_held names attaches.free rfl vacantName,
      fun diskFrame => (heldDiskIff diskFrame).2⟩, dirs⟩
  · exact .inr (.inr (same ▸ List.mem_cons_self ..))
  · rw [stored]
  · have entries (other : Side) : next.leaf other slot = state.leaf other slot :=
      funext (leaves other slot)
    simp only [KernelState.space, entries, stored, Space.mk.injEq, true_and]
    refine ⟨funext fun page => ?_, trivial⟩
    split
    · rfl
    · next mapped =>
        rw [attaches.mem _ fun same => fresh.unnamed _ (same ▸ KernelState.names_page mapped)]

/-! ### Pages -/

theorem writesLeaf_writeWord {side : Side} {page : Nat}
    (present : state.dirWord side slot (page / 1024) ≠ 0) (word : Nat) :
    WritesLeaf side slot page word state
      (state.writeWord (frameOf (state.dirWord side slot (page / 1024))) (page % 1024) word) where
  roots := .of_envs rfl
  present := present
  written := by simp [KernelState.writeWord]
  rest other different := by simp [KernelState.writeWord, different]
  mem other different := by
    funext index
    simp [KernelState.writeWord, different]

theorem KernelState.writeWord_self (state : KernelState) (frame index : Nat) :
    state.writeWord frame index (state.mem frame index) = state := by
  have same : (state.writeWord frame index (state.mem frame index)).mem = state.mem := by
    funext other position
    simp only [KernelState.writeWord]
    split
    · next here => rw [here.1, here.2]
    · rfl
  cases state
  simp only [KernelState.writeWord] at same ⊢
  rw [same]

section Leaf

variable {page word : Nat}

theorem WritesLeaf.leaf_slot {side : Side} (writes : WritesLeaf side slot page word state next)
    (ledger : Ledger layout state) :
    next.leaf side slot = Function.update (state.leaf side slot) page word := by
  funext number
  rw [writes.leaf ledger]
  by_cases same : number = page
  · rw [same, Function.update_self, if_pos ⟨rfl, rfl, rfl⟩]
  · rw [Function.update_of_ne same, if_neg fun equal => same equal.2.2]

theorem WritesLeaf.leaf_side {side : Side}
    (writes : WritesLeaf side slot page word state next) (ledger : Ledger layout state)
    (other : Side) (different : other ≠ side) : next.leaf other slot = state.leaf other slot := by
  funext number
  rw [writes.leaf ledger, if_neg fun equal => different equal.1]

/-- The frames of pages are no tables, so writing a table leaves their content. -/
private theorem mem_page {side : Side} (writes : WritesLeaf side slot page word state next)
    (ledger : Ledger layout state) {other number : Nat}
    (mapped : state.leaf .user other number ≠ 0) :
    next.mem (frameOf (state.leaf .user other number)) =
      state.mem (frameOf (state.leaf .user other number)) := by
  refine writes.mem _ fun same => ?_
  have := ledger.exclusive.injective _ _ _ (KernelState.names_page mapped)
    (same ▸ KernelState.names_table writes.present)
  cases this

private theorem acts_mem_leaf {side : Side}
    (writes : WritesLeaf side slot page word state next) {other : Nat}
    (apart : ¬ state.Held slot hand other) : next.mem other = state.mem other :=
  writes.mem other fun same =>
    apart (.inr (.inl ⟨_, rfl, same ▸ KernelState.names_table writes.present⟩))

/-- A frame in hand is mapped. -/
theorem Inv.bindLeaf (inv : Inv layout ram state) (hand : List Nat)
    (present : state.dirWord .user slot (page / 1024) ≠ 0) (fresh : state.Fresh frame)
    (managed : layout.Managed frame) (once : state.references frame = 1)
    (nonzero : word ≠ 0) (frameOf_word : frameOf word = frame) :
    let next := state.writeWord (frameOf (state.dirWord .user slot (page / 1024)))
      (page % 1024) word
    SpaceBecomes layout ram slot (frame :: hand) state hand next
        ((state.space slot).map page word (state.mem frame).words) ∧
      (state.leaf .user slot page = 0 → Keeps slot (frame :: hand) state hand next) := by
  intro next
  have writes : WritesLeaf .user slot page word state next := writesLeaf_writeWord present word
  have names := writes.names_user inv.toLedger
  rw [if_neg nonzero, frameOf_word] at names
  have diskNames := writes.diskNames_user inv.toLedger
  have heldDiskIff := KernelState.heldDisk_congr diskNames rfl slot
  refine ⟨⟨⟨writes.core inv.toCore inv.toLedger (by constructor <;> rfl),
      ledger_of_update inv.toLedger names diskNames rfl rfl rfl fresh managed once⟩,
    ⟨by constructor <;> rfl, fun other => held_of_update names rfl,
      fun other => acts_mem_leaf writes, fun _ _ => rfl, fun _ _ => rfl,
      fun diskFrame => (heldDiskIff diskFrame).1, fun _ _ => rfl⟩, ?_⟩, ?_⟩
  · have entries := writes.leaf_slot inv.toLedger
    have places := writes.leaf_side inv.toLedger .disk (by decide)
    simp only [KernelState.space, Space.map, entries, places, Space.mk.injEq, true_and]
    refine ⟨funext fun number => ?_, rfl⟩
    by_cases same : number = page
    · rw [same, Function.update_self, Function.update_self, if_neg nonzero, frameOf_word,
        writes.mem]
      exact fun equal => fresh.unnamed _ (equal ▸ KernelState.names_table present)
    · rw [Function.update_of_ne same, Function.update_of_ne same]
      split
      · rfl
      · next mapped => rw [mem_page writes inv.toLedger mapped]
  · intro vacant
    exact ⟨fun other => update_of_held names rfl rfl (by simp [KernelState.names, vacant]),
      fun diskFrame => (heldDiskIff diskFrame).2⟩

/-- A page is unmapped: its frame is in hand. -/
theorem Inv.clearLeaf (inv : Inv layout ram state) (hand : List Nat)
    (mapped : state.leaf .user slot page ≠ 0) :
    let next := state.writeWord (frameOf (state.dirWord .user slot (page / 1024)))
      (page % 1024) 0
    SpaceBecomes layout ram slot hand state (frameOf (state.leaf .user slot page) :: hand) next
        ((state.space slot).unmap page) ∧
      Keeps slot hand state (frameOf (state.leaf .user slot page) :: hand) next ∧
      next.Fresh (frameOf (state.leaf .user slot page)) ∧
      layout.Managed (frameOf (state.leaf .user slot page)) := by
  intro next
  have present := KernelState.dirWord_ne_zero_of_leaf mapped
  have writes : WritesLeaf .user slot page 0 state next := writesLeaf_writeWord present 0
  have names := writes.names_user inv.toLedger
  rw [if_pos rfl] at names
  have diskNames := writes.diskNames_user inv.toLedger
  have named := KernelState.names_page mapped
  have fewer (place : Place) (item : Nat) (nextNamed : next.names place = some item) :
      state.names place = some item := named_of_forgotten (names ▸ nextNamed)
  have heldDiskIff := KernelState.heldDisk_congr diskNames rfl slot
  refine ⟨⟨⟨writes.core inv.toCore inv.toLedger (by constructor <;> rfl),
      ledger_of_fewer inv.toLedger fewer (fun _ _ => by rw [diskNames]; exact id) rfl rfl rfl⟩,
    ⟨by constructor <;> rfl, fun other => held_of_fewer fewer rfl rfl named,
      fun other => acts_mem_leaf writes, fun _ _ => rfl, fun _ _ => rfl,
      fun diskFrame => (heldDiskIff diskFrame).1, fun _ _ => rfl⟩, ?_⟩,
    ⟨fun other => held_forgotten names rfl named, fun diskFrame => (heldDiskIff diskFrame).2⟩,
    inv.exclusive.fresh_of_forgotten named fewer (by rw [names, Function.update_self]; simp),
    inv.managed _ _ named⟩
  have entries := writes.leaf_slot inv.toLedger
  have places := writes.leaf_side inv.toLedger .disk (by decide)
  simp only [KernelState.space, Space.unmap, Space.map, entries, places, Space.mk.injEq,
    true_and]
  refine ⟨funext fun number => ?_, rfl⟩
  by_cases same : number = page
  · rw [same, Function.update_self, Function.update_self, if_pos rfl]
  · rw [Function.update_of_ne same, Function.update_of_ne same]
    split
    · rfl
    · next otherMapped => rw [mem_page writes inv.toLedger otherMapped]

/-- The flags of an entry change. -/
theorem Inv.flagLeaf (inv : Inv layout ram state) (hand : List Nat)
    (mapped : state.leaf .user slot page ≠ 0)
    (nonzero : word ≠ 0) (sameFrame : frameOf word = frameOf (state.leaf .user slot page)) :
    let next := state.writeWord (frameOf (state.dirWord .user slot (page / 1024)))
      (page % 1024) word
    SpaceBecomes layout ram slot hand state hand next ((state.space slot).setEntry page word) ∧
      Keeps slot hand state hand next := by
  intro next
  have present := KernelState.dirWord_ne_zero_of_leaf mapped
  have writes : WritesLeaf .user slot page word state next := writesLeaf_writeWord present word
  have names : next.names = state.names := by
    rw [writes.names_user inv.toLedger, if_neg nonzero, sameFrame, ← KernelState.names_page mapped,
      Function.update_eq_self]
  have diskNames := writes.diskNames_user inv.toLedger
  have heldIff := KernelState.held_congr names rfl slot hand
  have heldDiskIff := KernelState.heldDisk_congr diskNames rfl slot
  refine ⟨⟨⟨writes.core inv.toCore inv.toLedger (by constructor <;> rfl), ?_⟩,
    ⟨by constructor <;> rfl, fun other => (heldIff other).1,
      fun other => acts_mem_leaf writes, fun _ _ => rfl, fun _ _ => rfl,
      fun diskFrame => (heldDiskIff diskFrame).1, fun _ _ => rfl⟩, ?_⟩,
    fun other => (heldIff other).2, fun diskFrame => (heldDiskIff diskFrame).2⟩
  · exact inv.toLedger.congr names diskNames rfl rfl rfl
  · have entries := writes.leaf_slot inv.toLedger
    have places := writes.leaf_side inv.toLedger .disk (by decide)
    simp only [KernelState.space, Space.setEntry, entries, places, Space.mk.injEq, true_and]
    refine ⟨funext fun number => ?_, rfl⟩
    by_cases same : number = page
    · rw [same, Function.update_self, if_neg nonzero, if_neg mapped, sameFrame,
        mem_page writes inv.toLedger mapped]
    · rw [Function.update_of_ne same]
      split
      · rfl
      · next otherMapped => rw [mem_page writes inv.toLedger otherMapped]

/-- The content of a mapped page changes. -/
theorem Inv.writePage (inv : Inv layout ram state) (hand : List Nat)
    (mapped : state.leaf .user slot page ≠ 0)
    (content : Page) :
    let next := state.writeFrame (frameOf (state.leaf .user slot page)) content
    SpaceBecomes layout ram slot hand state hand next
        ((state.space slot).setContent page content.words) ∧
      Keeps slot hand state hand next ∧
      ∀ side index, next.dirWord side slot index = state.dirWord side slot index := by
  intro next
  have agrees : AgreesOff (frameOf (state.leaf .user slot page)) state next :=
    agreesOff_writeFrame state _ content
  have notNode := NotNode.of_page inv.toLedger mapped
  have named := KernelState.names_page mapped
  have names := agrees.names notNode
  have diskNames := agrees.diskNames notNode
  have leaves := agrees.leaf notNode
  have heldIff := KernelState.held_congr names rfl slot hand
  have heldDiskIff := KernelState.heldDisk_congr diskNames rfl slot
  refine ⟨⟨⟨agrees.core inv.toCore (by constructor <;> rfl) (inv.managed _ _ named) notNode.root,
      ?_⟩,
    ⟨by constructor <;> rfl, fun other => (heldIff other).1, fun other apart => ?_,
      fun _ _ => rfl, fun _ _ => rfl, fun diskFrame => (heldDiskIff diskFrame).1,
      fun _ _ => rfl⟩, ?_⟩,
    ⟨fun other => (heldIff other).2, fun diskFrame => (heldDiskIff diskFrame).2⟩,
    fun side index => agrees.dirWord notNode.root side slot index⟩
  · exact inv.toLedger.congr names diskNames rfl rfl rfl
  · exact agrees.mem other fun same => apart (.inr (.inl ⟨_, rfl, same ▸ named⟩))
  · have entries (side : Side) : next.leaf side slot = state.leaf side slot :=
      funext (leaves side slot)
    simp only [KernelState.space, Space.setContent, entries, Space.mk.injEq, true_and]
    refine ⟨funext fun number => ?_, rfl⟩
    by_cases same : number = page
    · rw [same, Function.update_self, if_neg mapped]
      simp only [next, KernelState.writeFrame, if_true]
    · rw [Function.update_of_ne same]
      split
      · rfl
      · next otherMapped =>
          rw [agrees.mem _ fun equal => same ?_]
          have := inv.exclusive.injective _ _ _ (KernelState.names_page otherMapped)
            (equal ▸ named)
          simpa using this

/-! ### Disk frames -/

theorem diskPage_writeDiskPage (state : KernelState) (diskFrame : Nat) (content : Page) :
    ((state.writeDiskPage diskFrame content).diskPage diskFrame).words = content.words := by
  funext index
  simp only [Page.words]
  split
  · next inPage =>
      simp only [KernelState.diskPage, KernelState.writeDiskPage, sectorPerPage]
      rw [if_pos (by omega)]
      congr 1
      omega
  · rfl

theorem diskPage_writeDiskPage_of_ne (state : KernelState) {diskFrame other : Nat}
    (different : other ≠ diskFrame) (content : Page) :
    ((state.writeDiskPage diskFrame content).diskPage other).words =
      (state.diskPage other).words := by
  funext index
  simp only [Page.words]
  split
  · next inPage =>
      simp only [KernelState.diskPage, KernelState.writeDiskPage, sectorPerPage]
      rw [if_neg (by omega)]
  · rfl

/-- A page gets the first free disk frame. -/
theorem Inv.place {diskFrame : Nat} {rest : List Nat} (inv : Inv layout ram state)
    (hand : List Nat)
    (present : state.dirWord .disk slot (page / 1024) ≠ 0)
    (free : state.diskFreeFrameList = diskFrame :: rest) :
    let next := (state.setDiskFreeFrameList rest).writeWord
      (frameOf (state.dirWord .disk slot (page / 1024))) (page % 1024) diskFrame
    SpaceBecomes layout ram slot hand state hand next
        ((state.space slot).place page diskFrame (state.diskPage diskFrame).words) ∧
      (state.leaf .disk slot page = 0 → Keeps slot hand state hand next) := by
  intro next
  have writes : WritesLeaf .disk slot page diskFrame state next :=
    { writesLeaf_writeWord present diskFrame with roots := .of_envs rfl }
  have names := writes.names_disk inv.toLedger
  have diskNames := writes.diskNames_disk inv.toLedger
  have diskExclusive := inv.diskExclusive
  rw [free] at diskExclusive
  obtain ⟨remaining, fresh⟩ := diskExclusive.take
  have diskPositive := inv.diskPositive
  rw [free, List.forall_mem_cons] at diskPositive
  rw [if_neg diskPositive.1] at diskNames
  have heldIff := KernelState.held_congr names rfl slot hand
  have own (other : Nat) : next.diskNames (slot, other) =
      if other = page then some diskFrame else state.diskNames (slot, other) := by
    rw [diskNames]
    by_cases same : other = page
    · rw [same, Function.update_self, if_pos rfl]
    · rw [Function.update_of_ne (by simp [same]), if_neg same]
  refine ⟨⟨⟨writes.core inv.toCore inv.toLedger (by constructor <;> rfl), ?_⟩,
    ⟨by constructor <;> rfl, fun other => (heldIff other).1,
      fun other => acts_mem_leaf writes, fun _ _ => rfl, fun _ _ => rfl, fun other held => ?_,
      fun _ _ => rfl⟩, ?_⟩,
    fun vacant => ⟨fun other => (heldIff other).2, fun other held => ?_⟩⟩
  · refine ⟨?_, inv.managedFree, ?_, ?_, ?_, diskPositive.2⟩
    · rw [names]
      exact inv.exclusive
    · rw [names]
      exact inv.managed
    · rw [names]
      exact inv.references
    · rw [diskNames]
      exact remaining.bind fresh (slot, page)
  · rcases held with inFree | ⟨number, named⟩
    · exact .inl (by rw [free]; exact List.mem_cons_of_mem _ inFree)
    · rw [own] at named
      split at named
      · obtain rfl := Option.some.inj named
        exact .inl (by rw [free]; exact List.mem_cons_self ..)
      · exact .inr ⟨number, named⟩
  · have entries := writes.leaf_side inv.toLedger .user (by decide)
    have places := writes.leaf_slot inv.toLedger
    have contents : (fun number => if state.leaf .user slot number = 0 then Page.zero
        else (next.mem (frameOf (state.leaf .user slot number))).words) =
        (state.space slot).content := by
      funext number
      simp only [KernelState.space]
      split
      · rfl
      · next mapped => rw [mem_page writes inv.toLedger mapped]
    simp only [KernelState.space, Space.place, entries, places, contents, Space.mk.injEq,
      true_and]
    funext number
    by_cases same : number = page
    · rw [same, Function.update_self, Function.update_self, if_neg diskPositive.1]
      rfl
    · rw [Function.update_of_ne same, Function.update_of_ne same]
      rfl
  · rcases held with inFree | ⟨number, named⟩
    · rw [free] at inFree
      rcases List.mem_cons.1 inFree with rfl | inRest
      · exact .inr ⟨page, by rw [own, if_pos rfl]⟩
      · exact .inl inRest
    · have different : number ≠ page := by
        rintro rfl
        simp [KernelState.diskNames, vacant] at named
      exact .inr ⟨number, by rw [own, if_neg different, named]⟩

/-- A page loses its disk frame. -/
theorem Inv.removePlace (inv : Inv layout ram state) (hand : List Nat)
    (placed : state.leaf .disk slot page ≠ 0) :
    let next := (state.writeWord (frameOf (state.dirWord .disk slot (page / 1024)))
      (page % 1024) 0).setDiskFreeFrameList
        (state.leaf .disk slot page :: state.diskFreeFrameList)
    SpaceBecomes layout ram slot hand state hand next ((state.space slot).remove page) ∧
      Keeps slot hand state hand next := by
  intro next
  have present := KernelState.dirWord_ne_zero_of_leaf placed
  have writes : WritesLeaf .disk slot page 0 state next :=
    { writesLeaf_writeWord present 0 with roots := .of_envs rfl }
  have names := writes.names_disk inv.toLedger
  have diskNames := writes.diskNames_disk inv.toLedger
  rw [if_pos rfl] at diskNames
  have heldIff := KernelState.held_congr names rfl slot hand
  have named : state.diskNames (slot, page) = some (state.leaf .disk slot page) := by
    simp [KernelState.diskNames, placed]
  have fewer (place : Nat × Nat) (item : Nat) (nextNamed : next.diskNames place = some item) :
      state.diskNames place = some item := named_of_forgotten (diskNames ▸ nextNamed)
  have fresh : Foundation.Fresh state.diskFreeFrameList next.diskNames
      (state.leaf .disk slot page) :=
    inv.diskExclusive.fresh_of_forgotten named fewer
      (by rw [diskNames, Function.update_self]; simp)
  refine ⟨⟨⟨writes.core inv.toCore inv.toLedger (by constructor <;> rfl), ?_⟩,
    ⟨by constructor <;> rfl, fun other => (heldIff other).1,
      fun other => acts_mem_leaf writes, fun _ _ => rfl, fun _ _ => rfl, fun other held => ?_,
      fun _ _ => rfl⟩, ?_⟩,
    ⟨fun other => (heldIff other).2, fun other held => ?_⟩⟩
  · refine ⟨?_, inv.managedFree, ?_, ?_, (inv.diskExclusive.restrict fewer).put fresh,
      List.forall_mem_cons.2 ⟨placed, inv.diskPositive⟩⟩
    · rw [names]
      exact inv.exclusive
    · rw [names]
      exact inv.managed
    · rw [names]
      exact inv.references
  · rcases held with inFree | ⟨number, nextNamed⟩
    · rcases List.mem_cons.1 inFree with rfl | inRest
      · exact .inr ⟨page, named⟩
      · exact .inl inRest
    · exact .inr ⟨number, fewer _ _ nextNamed⟩
  · have entries := writes.leaf_side inv.toLedger .user (by decide)
    have places := writes.leaf_slot inv.toLedger
    have contents : (fun number => if state.leaf .user slot number = 0 then Page.zero
        else (next.mem (frameOf (state.leaf .user slot number))).words) =
        (state.space slot).content := by
      funext number
      simp only [KernelState.space]
      split
      · rfl
      · next mapped => rw [mem_page writes inv.toLedger mapped]
    simp only [KernelState.space, Space.remove, Space.place, entries, places, contents,
      Space.mk.injEq, true_and]
    funext number
    by_cases same : number = page
    · rw [same, Function.update_self, Function.update_self, if_pos rfl]
    · rw [Function.update_of_ne same, Function.update_of_ne same]
      rfl
  · rcases held with inFree | ⟨number, oldNamed⟩
    · exact .inl (List.mem_cons_of_mem _ inFree)
    · by_cases same : number = page
      · rw [same, named] at oldNamed
        obtain rfl := Option.some.inj oldNamed
        exact .inl (List.mem_cons_self ..)
      · exact .inr ⟨number, by rw [diskNames, Function.update_of_ne (by simp [same]), oldNamed]⟩

/-- The disk frame of a page is rewritten. -/
theorem Inv.storePage (inv : Inv layout ram state) (hand : List Nat)
    (placed : state.leaf .disk slot page ≠ 0)
    (content : Page) :
    let next := state.writeDiskPage (state.leaf .disk slot page) content
    SpaceBecomes layout ram slot hand state hand next
        ((state.space slot).store page content.words) ∧
      Keeps slot hand state hand next := by
  intro next
  have named : state.diskNames (slot, page) = some (state.leaf .disk slot page) := by
    simp [KernelState.diskNames, placed]
  refine ⟨⟨⟨{ inv.toCore with }, inv.toLedger.congr rfl rfl rfl rfl rfl⟩,
    ⟨by constructor <;> rfl, fun _ => id, fun _ _ => rfl, fun _ _ => rfl, fun _ _ => rfl,
      fun _ => id, fun other apart => ?_⟩, ?_⟩, fun _ => id, fun _ => id⟩
  · refine diskPage_writeDiskPage_of_ne state (fun same => apart ?_) content
    exact .inr ⟨page, same ▸ named⟩
  · have entries : next.leaf = state.leaf := rfl
    have contents : next.mem = state.mem := rfl
    simp only [KernelState.space, Space.store, entries, contents, Space.mk.injEq, true_and]
    funext number
    by_cases same : number = page
    · rw [same, Function.update_self, if_neg placed]
      exact diskPage_writeDiskPage state _ content
    · rw [Function.update_of_ne same]
      split
      · rfl
      · next otherPlaced =>
          refine diskPage_writeDiskPage_of_ne state (fun equal => same ?_) content
          have otherNamed : state.diskNames (slot, number) =
              some (state.leaf .disk slot number) := by
            simp [KernelState.diskNames, otherPlaced]
          have := inv.diskExclusive.injective _ _ _ otherNamed (equal ▸ named)
          simpa using this

end Leaf

end Fos.Kernel
