import Fos.Kernel.Moves

/-! What each operation of `kern/memory_manager.c` does, for addresses below `USER_TOP` of a
live environment. -/

set_option autoImplicit false

namespace Fos.Kernel

open Foundation

variable {layout : BootLayout} {ram : Nat → Page} {slot frame address : Nat} {hand : List Nat}
  {state next : KernelState}

/-! ### Addresses below USER_TOP -/

theorem userTables_eq : userTables = 955 := rfl

theorem userPages_eq : userPages = 977920 := rfl

theorem pageOf_lt (low : address < userTop) : pageOf address < userPages := by
  rw [userPages_eq]
  simp only [pageOf, pageSize, userTop, uenvs] at low ⊢
  omega

theorem pdx_user (low : address < userTop) : pdx address = pageOf address / 1024 :=
  pdx_of_lt (low.trans (by decide))

theorem index_lt (low : address < userTop) : pageOf address / 1024 < userTables := by
  have := pageOf_lt low
  rw [userPages_eq] at this
  rw [userTables_eq]
  omega

/-! ### Tables -/

theorem frameOf_lt_of_dirWord (valid : layout.Valid) (inv : Inv layout ram state) {side : Side}
    {index : Nat} (present : state.dirWord side slot index ≠ 0) :
    frameOf (state.dirWord side slot index) < state.numberOfFrames := by
  rw [inv.size]
  exact ((inv.managed _ _ (KernelState.names_table present)).pos valid).2

theorem frameOf_lt_of_leaf (valid : layout.Valid) (inv : Inv layout ram state) {page : Nat}
    (mapped : state.leaf .user slot page ≠ 0) :
    frameOf (state.leaf .user slot page) < state.numberOfFrames := by
  rw [inv.size]
  exact ((inv.managed _ _ (KernelState.names_page mapped)).pos valid).2

/-- Entries are words. -/
theorem leaf_lt (valid : layout.Valid) (inv : Inv layout ram state) {page : Nat}
    (mapped : state.leaf .user slot page ≠ 0) : state.leaf .user slot page < wordSize :=
  lt_wordSize_of_frameOf_lt ((inv.managed _ _ (KernelState.names_page mapped)).lt valid)

theorem dirWord_testBit (inv : Inv layout ram state) {side : Side} {index bit : Nat}
    (present : state.dirWord side slot index ≠ 0) (low : bit < 12) :
    (state.dirWord side slot index).testBit bit = side.permissions.testBit bit := by
  rw [inv.words side slot index present, testBit_constructEntry _ low]

theorem dirWord_present (inv : Inv layout ram state) {side : Side} {index : Nat}
    (present : state.dirWord side slot index ≠ 0) :
    hasPerm (state.dirWord side slot index) permPresent = true := by
  rw [hasPerm_present, dirWord_testBit inv present (by decide)]
  cases side <;> rfl

theorem hasPerm_zero : hasPerm 0 permPresent = false := rfl

/-- The directory entry of an address below `USER_TOP`. -/
theorem mem_root {side : Side} (live : state.root side slot ≠ 0) (low : address < userTop) :
    state.mem (state.root side slot) (pdx address) =
      state.dirWord side slot (pageOf address / 1024) := by
  rw [pdx_user low, KernelState.dirWord_eq_mem live (index_lt low)]

/-- The table entry of an address whose table is there. -/
theorem mem_table {side : Side}
    (present : state.dirWord side slot (pageOf address / 1024) ≠ 0) :
    state.mem (frameOf (state.dirWord side slot (pageOf address / 1024))) (ptx address) =
      state.leaf side slot (pageOf address) := by
  rw [KernelState.leaf_eq_mem present, ptx_eq]

theorem wp_staticKernelVirtualAddress {post : Nat → KernelState → Prop}
    {fail : Stop → KernelState → Prop} {physical : Nat}
    (bound : frameOf physical < state.numberOfFrames) :
    wp (staticKernelVirtualAddress physical) post fail state ↔ post (frameOf physical) state := by
  simp only [staticKernelVirtualAddress, wp_bind, wp_get, if_neg (not_le.2 bound), wp_pure]

theorem wp_toFrameInfo {post : Nat → KernelState → Prop} {fail : Stop → KernelState → Prop}
    {physical : Nat} (bound : frameOf physical < state.numberOfFrames) :
    wp (toFrameInfo physical) post fail state ↔ post (frameOf physical) state := by
  simp only [toFrameInfo, wp_bind, wp_get, if_neg (not_le.2 bound), wp_pure]

/-- The table of a page, if there is one. -/
def KernelState.tableAt (state : KernelState) (side : Side) (slot page : Nat) : Option Nat :=
  if state.dirWord side slot (page / 1024) = 0 then none
  else some (frameOf (state.dirWord side slot (page / 1024)))

/-- The frame of a page, if its entry is nonzero. -/
def KernelState.frameAt (state : KernelState) (slot page : Nat) : Option Nat :=
  if state.leaf .user slot page = 0 then none else some (frameOf (state.leaf .user slot page))

theorem zero_frame_lt (valid : layout.Valid) (inv : Inv layout ram state) : 0 < state.numberOfFrames := by
  rw [inv.size]
  have frames := valid.frames
  have directory := valid.directory
  omega

theorem wp_getPageTable (valid : layout.Valid) (inv : Inv layout ram state) (live : state.root .user slot ≠ 0)
    (low : address < userTop) {post : Option Nat → KernelState → Prop}
    {fail : Stop → KernelState → Prop} :
    wp (getPageTable (state.root .user slot) address) post fail state ↔
      post (state.tableAt .user slot (pageOf address)) state := by
  have word := mem_root live low
  simp only [getPageTable, wp_bind, wp_get, word, KernelState.tableAt]
  by_cases absent : state.dirWord .user slot (pageOf address / 1024) = 0
  · have zero : frameOf (extractAddress 0) < state.numberOfFrames := zero_frame_lt valid inv
    rw [absent, wp_staticKernelVirtualAddress zero]
    simp only [hasPerm_zero, Bool.false_eq_true, if_false, ne_eq, not_true_eq_false, if_true,
      wp_pure]
  · rw [wp_staticKernelVirtualAddress
      (by rw [frameOf_extractAddress]; exact frameOf_lt_of_dirWord valid inv absent)]
    simp only [dirWord_present inv absent, if_true, if_neg absent, wp_pure,
      frameOf_extractAddress]

theorem wp_getFrameInfo (valid : layout.Valid) (inv : Inv layout ram state) (live : state.root .user slot ≠ 0)
    (low : address < userTop) {post : Option Nat × Option Nat → KernelState → Prop}
    {fail : Stop → KernelState → Prop} :
    wp (getFrameInfo (state.root .user slot) address) post fail state ↔
      post (state.frameAt slot (pageOf address), state.tableAt .user slot (pageOf address)) state := by
  simp only [getFrameInfo, wp_bind, wp_getPageTable valid inv live low]
  by_cases absent : state.dirWord .user slot (pageOf address / 1024) = 0
  · simp only [KernelState.tableAt, KernelState.frameAt, if_pos absent,
      if_pos (KernelState.leaf_of_dirWord_eq_zero absent), wp_pure]
  · have entry := mem_table absent
    simp only [KernelState.tableAt, KernelState.frameAt, if_neg absent, wp_bind, wp_get, entry]
    by_cases unmapped : state.leaf .user slot (pageOf address) = 0
    · simp only [unmapped, ne_eq, not_true_eq_false, if_false, if_true, wp_pure]
    · have bound := frameOf_lt_of_leaf valid inv unmapped
      simp only [ne_eq, unmapped, not_false_eq_true, if_true, if_false, wp_bind,
        wp_toFrameInfo (by rw [frameOf_extractAddress]; exact bound), wp_pure,
        frameOf_extractAddress]

/-! ### Unmapping -/

theorem KernelState.setReferences_twice (state : KernelState) (frame first second : Nat) :
    (state.setReferences frame first).setReferences frame second =
      state.setReferences frame second := by
  simp only [KernelState.setReferences, KernelState.mk.injEq, true_and, and_true]
  funext other
  split <;> rfl

theorem Space.unmap_of_entry_eq_zero {page : Nat}
    (unmapped : state.leaf .user slot page = 0) :
    (state.space slot).unmap page = state.space slot := by
  have entries : Function.update (state.leaf .user slot) page 0 = state.leaf .user slot := by
    rw [← unmapped, Function.update_eq_self]
  have content : (state.space slot).content page = Page.zero := by
    simp only [KernelState.space, if_pos unmapped]
  have contents : Function.update (state.space slot).content page Page.zero =
      (state.space slot).content := by
    rw [← content, Function.update_eq_self]
  simp only [Space.unmap, Space.map, contents]
  simp only [KernelState.space, entries]

/-- The last reference to a frame is dropped. -/
theorem wp_decrementReferences (once : state.references frame = 1)
    {post : Unit → KernelState → Prop} {fail : Stop → KernelState → Prop} :
    wp (decrementReferences frame) post fail state ↔
      post () ((state.setReferences frame 0).setFreeFrameList (frame :: state.freeFrameList)) := by
  have count : (1 + 0xFFFF) % 0x10000 = 0 := rfl
  simp only [decrementReferences, freeFrame, wp_bind, wp_get, wp_modify, once, count, if_true,
    KernelState.setReferences_twice, KernelState.setReferences_freeFrameList]

/-- The frames that unmapping a page gives back. -/
def KernelState.freed (state : KernelState) (slot page : Nat) : List Nat :=
  (state.frameAt slot page).toList

/-- The page is unmapped, and its frame is free again. -/
theorem unmapFrame_spec (valid : layout.Valid) (inv : Inv layout ram state)
    (live : state.root .user slot ≠ 0) (low : address < userTop)
    {fail : Stop → KernelState → Prop} :
    wp (unmapFrame (state.root .user slot) address) (fun _ next =>
      SpaceBecomes layout ram slot [] state [] next ((state.space slot).unmap (pageOf address)) ∧
        Keeps slot [] state [] next ∧ Calm slot state next ∧
        next.freeFrameList = state.freed slot (pageOf address) ++ state.freeFrameList)
      fail state := by
  simp only [unmapFrame, wp_bind, wp_getFrameInfo valid inv live low]
  by_cases unmapped : state.leaf .user slot (pageOf address) = 0
  · simp only [KernelState.frameAt, if_pos unmapped, wp_pure, KernelState.freed,
      Space.unmap_of_entry_eq_zero unmapped]
    exact ⟨.refl inv slot [], .refl slot [] state, .refl slot state, rfl⟩
  · have present := KernelState.dirWord_ne_zero_of_leaf unmapped
    have once := inv.references _ _ (KernelState.names_page unmapped)
    obtain ⟨cleared, keepsCleared, fresh, managed⟩ := inv.clearLeaf [] unmapped
    obtain ⟨put, keepsPut⟩ := cleared.inv.put slot [] fresh managed 0
    simp only [KernelState.frameAt, KernelState.tableAt, if_neg unmapped, if_neg present,
      wp_bind, wp_decrementReferences once, wp_modify, KernelState.freed, ptx_eq]
    refine ⟨?_, keepsCleared.trans keepsPut, .of_eq rfl rfl fun side index _ => ?_, rfl⟩
    · exact ⟨put.inv, cleared.acts.trans put.acts, put.space.trans cleared.space⟩
    · exact (writesLeaf_writeWord present 0).dirWord inv.toLedger side slot index

/-! ### Mapping -/

/-- A frame in hand, or no memory. -/
theorem allocateFrame_spec (inv : Inv layout ram state) (slot : Nat) :
    wp allocateFrame (fun frame next =>
      SpaceBecomes layout ram slot [] state [frame] next (state.space slot) ∧
        Keeps slot [] state [frame] next ∧ Calm slot state next ∧ next.Fresh frame ∧
        layout.Managed frame ∧ next.references frame = 0 ∧
        (∀ other, next.mem other = state.mem other) ∧
        state.freeFrameList = frame :: next.freeFrameList)
      (onPanic fun next => next = state ∧ state.freeFrameList = []) state := by
  simp only [allocateFrame, wp_bind, wp_get]
  cases free : state.freeFrameList with
  | nil =>
      simp only [wp_panic]
      exact ⟨trivial, trivial⟩
  | cons frame rest =>
      obtain ⟨taken, keepsTaken, fresh, managed⟩ := inv.take slot [] free 0
      simp only [wp_bind, wp_modify, wp_pure]
      exact ⟨taken, keepsTaken, .of_eq rfl rfl fun _ _ _ => rfl, fresh, managed,
        by simp [KernelState.setReferences], fun _ => rfl, rfl⟩

/-- A new table, or no memory for one. -/
theorem createTable_spec (valid : layout.Valid) (inv : Inv layout ram state) {side : Side}
    (live : state.root side slot ≠ 0) (low : address < userTop)
    (absent : state.dirWord side slot (pageOf address / 1024) = 0) :
    wp (createTable (state.root side slot) address side.permissions) (fun table next =>
      SpaceBecomes layout ram slot [] state [] next (state.space slot) ∧
        Keeps slot [] state [] next ∧ Calm slot state next ∧
        next.tableAt side slot (pageOf address) = some table ∧
        state.freeFrameList = table :: next.freeFrameList)
      (onPanic fun next => next = state ∧ state.freeFrameList = []) state := by
  have lowPermissions : side.permissions < pageSize := by cases side <;> decide
  have somePermissions : side.permissions ≠ 0 := by cases side <;> decide
  simp only [createTable, allocateFrame, wp_bind, wp_get]
  cases free : state.freeFrameList with
  | nil =>
      simp only [wp_panic]
      exact ⟨trivial, trivial⟩
  | cons frame rest =>
      obtain ⟨taken, keepsTaken, fresh, managed⟩ := inv.take slot [] free 1
      have bounds := managed.pos valid
      have bound : frameOf (toPhysicalAddress frame) < state.numberOfFrames := by
        rw [frameOf_toPhysicalAddress, inv.size]
        exact bounds.2
      obtain ⟨attached, keepsAttached, dirs⟩ := taken.inv.attach side slot [] live
        (index_lt low) absent fresh managed (by omega) (by simp [KernelState.setReferences])
      simp only [wp_bind, wp_modify, wp_pure, pdx_user low]
      rw [wp_staticKernelVirtualAddress (by exact bound)]
      simp only [frameOf_toPhysicalAddress, KernelState.setReferences_twice]
      refine ⟨?_, keepsTaken.trans keepsAttached,
        .of_eq rfl rfl fun other index present => ?_, ?_, rfl⟩
      · exact ⟨attached.inv, taken.acts.trans attached.acts, attached.space.trans taken.space⟩
      · refine (dirs other slot index).trans (if_neg ?_)
        rintro ⟨rfl, -, rfl⟩
        exact present absent
      · have word := (dirs side slot (pageOf address / 1024)).trans (if_pos ⟨rfl, rfl, rfl⟩)
        refine (if_neg fun zero => ?_).trans (congrArg some ((congrArg frameOf word).trans
          (frameOf_constructEntry frame lowPermissions)))
        exact constructEntry_ne_zero frame lowPermissions somePermissions (word.symm.trans zero)

/-- The entry `map_frame` writes. -/
def pageEntry (frame permissions : Nat) : Nat :=
  constructEntry (toPhysicalAddress frame) (permissions ||| permPresent)

theorem present_lt {permissions : Nat} (low : permissions < pageSize) :
    permissions ||| permPresent < pageSize :=
  Nat.or_lt_two_pow (n := 12) low (by decide)

theorem pageEntry_ne_zero (frame : Nat) {permissions : Nat} (low : permissions < pageSize) :
    pageEntry frame permissions ≠ 0 :=
  constructEntry_ne_zero frame (present_lt low) fun zero => by
    simp [Nat.or_eq_zero_iff] at zero

theorem frameOf_pageEntry (frame : Nat) {permissions : Nat} (low : permissions < pageSize) :
    frameOf (pageEntry frame permissions) = frame :=
  frameOf_constructEntry frame (present_lt low)

theorem testBit_pageEntry (frame permissions : Nat) {bit : Nat} (low : bit < 12) :
    (pageEntry frame permissions).testBit bit = (permissions.testBit bit || decide (bit = 0)) := by
  rw [pageEntry, testBit_constructEntry _ low, Nat.testBit_or]
  congr 1
  rw [show permPresent = 2 ^ 0 from rfl, Nat.testBit_two_pow]
  simp [eq_comm]

theorem tableAt_eq_some {side : Side} {table page : Nat}
    (found : state.tableAt side slot page = some table) :
    state.dirWord side slot (page / 1024) ≠ 0 ∧
      frameOf (state.dirWord side slot (page / 1024)) = table := by
  unfold KernelState.tableAt at found
  split at found
  · cases found
  · next present => exact ⟨present, Option.some.inj found⟩

/-- A frame in hand takes the place of a page. -/
theorem bindFrame_spec (inv : Inv layout ram state) {page table permissions : Nat}
    (found : state.tableAt .user slot (pageOf address) = some table)
    (same : pageOf address = page) (fresh : state.Fresh frame) (managed : layout.Managed frame)
    (unreferenced : state.references frame = 0) (lowPermissions : permissions < pageSize)
    {fail : Stop → KernelState → Prop} :
    wp (bindFrame table frame address permissions) (fun _ next =>
      SpaceBecomes layout ram slot [frame] state [] next ((state.space slot).map page
          (pageEntry frame permissions) (state.mem frame).words) ∧
        (state.leaf .user slot page = 0 → Keeps slot [frame] state [] next) ∧
        Calm slot state next ∧ next.freeFrameList = state.freeFrameList)
      fail state := by
  subst same
  obtain ⟨present, rfl⟩ := tableAt_eq_some found
  obtain ⟨counted, keepsCounted⟩ := inv.setReferences slot fresh (List.mem_singleton_self frame) 1
  obtain ⟨mapped, keepsMapped⟩ := counted.inv.bindLeaf [] present fresh managed
    (by simp [KernelState.setReferences]) (pageEntry_ne_zero frame lowPermissions)
    (frameOf_pageEntry frame lowPermissions)
  simp only [bindFrame, incrementReferences, wp_bind, wp_modify, unreferenced, ptx_eq]
  refine ⟨?_, fun vacant => keepsCounted.trans (keepsMapped vacant),
    .of_eq rfl rfl fun side index _ => ?_, rfl⟩
  · exact ⟨mapped.inv, counted.acts.trans mapped.acts, mapped.space.trans
      (congrArg (fun space : Space => space.map _ _ _) counted.space)⟩
  · exact (writesLeaf_writeWord present _).dirWord inv.toLedger side slot index

/-- A frame in hand is mapped over whatever was there. A page that was present is unmapped
first; the frame of one that was not is lost. -/
theorem mapInTable_spec (valid : layout.Valid) (inv : Inv layout ram state)
    (low : address < userTop) {table permissions : Nat}
    (found : state.tableAt .user slot (pageOf address) = some table)
    (fresh : state.Fresh frame) (managed : layout.Managed frame)
    (unreferenced : state.references frame = 0) (lowPermissions : permissions < pageSize)
    {fail : Stop → KernelState → Prop} :
    wp (mapInTable (state.root .user slot) table frame address permissions) (fun _ next =>
      SpaceBecomes layout ram slot [frame] state [] next ((state.space slot).map (pageOf address)
          (pageEntry frame permissions) (state.mem frame).words) ∧
        (state.leaf .user slot (pageOf address) = 0 ∨
          hasPerm (state.leaf .user slot (pageOf address)) permPresent = true →
          Keeps slot [frame] state [] next) ∧
        Calm slot state next ∧ state.freeFrameList.length ≤ next.freeFrameList.length)
      fail state := by
  obtain ⟨present, tableFrame⟩ := tableAt_eq_some found
  have live := (KernelState.root_ne_zero_of_dirWord present).1
  have entry := mem_table present
  rw [tableFrame] at entry
  simp only [mapInTable, wp_bind, wp_get, entry]
  rw [if_neg]
  swap
  · rintro ⟨isPresent, same⟩
    have mapped : state.leaf .user slot (pageOf address) ≠ 0 := by
      intro zero
      rw [zero] at isPresent
      exact absurd isPresent (by decide)
    have sameFrame := congrArg frameOf same
    rw [frameOf_extractAddress, frameOf_toPhysicalAddress] at sameFrame
    exact fresh.unnamed _ (sameFrame ▸ KernelState.names_page mapped)
  by_cases isPresent : hasPerm (state.leaf .user slot (pageOf address)) permPresent = true
  · simp only [isPresent, if_true, wp_bind]
    refine wp_mono (unmapFrame_spec valid inv live low) (fun _ next unmapped => ?_)
      fun _ _ never => never
    obtain ⟨becomes, keeps, stable, free⟩ := unmapped
    have apart := not_held_of_fresh fresh slot
    have foundNext : next.tableAt .user slot (pageOf address) = some table := by
      rw [KernelState.tableAt, stable.tables _ _ present]
      exact found
    refine wp_mono (bindFrame_spec becomes.inv foundNext rfl
      (becomes.acts.fresh inv.toLedger (by simp) fresh (by simp)) managed
      ((becomes.acts.references frame apart).trans unreferenced) lowPermissions)
      (fun _ last mapped => ?_) fun _ _ never => never
    obtain ⟨becomesMap, keepsMap, stableMap, freeMap⟩ := mapped
    refine ⟨⟨becomesMap.inv, (becomes.frame frame).acts.trans becomesMap.acts, ?_⟩, fun _ => ?_,
      stable.trans stableMap, ?_⟩
    · rw [becomesMap.space, becomes.space, Space.map_unmap, becomes.acts.mem frame apart]
    · refine (keeps.frame frame).trans (keepsMap ?_)
      rw [becomes.entry]
      exact Function.update_self ..
    · rw [freeMap, free, List.length_append]
      omega
  · rw [if_neg isPresent]
    refine wp_mono (bindFrame_spec inv found rfl fresh managed unreferenced lowPermissions)
      (fun _ last mapped => ?_) fun _ _ never => never
    obtain ⟨becomesMap, keepsMap, stableMap, freeMap⟩ := mapped
    exact ⟨becomesMap, fun either => keepsMap (either.resolve_right isPresent), stableMap,
      (congrArg List.length freeMap).ge⟩

/-- A frame in hand is mapped at an address, in a new page table if there is none. -/
theorem mapFrame_spec (valid : layout.Valid) (inv : Inv layout ram state)
    (live : state.root .user slot ≠ 0) (low : address < userTop) {permissions : Nat}
    (fresh : state.Fresh frame) (managed : layout.Managed frame)
    (unreferenced : state.references frame = 0) (lowPermissions : permissions < pageSize) :
    wp (mapFrame (state.root .user slot) frame address permissions) (fun _ next =>
      SpaceBecomes layout ram slot [frame] state [] next ((state.space slot).map (pageOf address)
          (pageEntry frame permissions) (state.mem frame).words) ∧
        (state.leaf .user slot (pageOf address) = 0 ∨
          hasPerm (state.leaf .user slot (pageOf address)) permPresent = true →
          Keeps slot [frame] state [] next) ∧
        Calm slot state next ∧
        (state.dirWord .user slot (pageOf address / 1024) ≠ 0 →
          state.freeFrameList.length ≤ next.freeFrameList.length))
      (onPanic fun next => next = state ∧ state.freeFrameList = [] ∧
        state.dirWord .user slot (pageOf address / 1024) = 0) state := by
  simp only [mapFrame, wp_bind, wp_getPageTable valid inv live low]
  by_cases absent : state.dirWord .user slot (pageOf address / 1024) = 0
  · have missing : state.tableAt .user slot (pageOf address) = none := if_pos absent
    simp only [missing, wp_bind, staticCpt]
    refine wp_mono (createTable_spec valid inv live low absent) (fun table next created => ?_)
      fun stop next => onPanic.mono fun _ stopped => ⟨stopped.1, stopped.2, absent⟩
    obtain ⟨becomes, keeps, stable, found, free⟩ := created
    have apart := not_held_of_fresh fresh slot
    have vacant : next.leaf .user slot (pageOf address) = 0 := by
      rw [becomes.entry]
      exact KernelState.leaf_of_dirWord_eq_zero absent
    rw [← stable.root_user]
    refine wp_mono (mapInTable_spec valid becomes.inv low found
      (becomes.acts.fresh inv.toLedger (by simp) fresh (by simp)) managed
      ((becomes.acts.references frame apart).trans unreferenced) lowPermissions)
      (fun _ last mapped => ?_) fun _ _ never => never
    obtain ⟨becomesMap, keepsMap, stableMap, -⟩ := mapped
    refine ⟨⟨becomesMap.inv, (becomes.frame frame).acts.trans becomesMap.acts, ?_⟩,
      fun _ => (keeps.frame frame).trans (keepsMap (.inl vacant)), stable.trans stableMap,
      fun present => absurd absent present⟩
    rw [becomesMap.space, becomes.space, becomes.acts.mem frame apart]
  · have found : state.tableAt .user slot (pageOf address) =
        some (frameOf (state.dirWord .user slot (pageOf address / 1024))) := if_neg absent
    simp only [found]
    refine wp_mono (mapInTable_spec valid inv low found fresh managed unreferenced lowPermissions)
      (fun _ last mapped => ?_) fun _ _ never => never
    obtain ⟨becomesMap, keepsMap, stableMap, free⟩ := mapped
    exact ⟨becomesMap, keepsMap, stableMap, fun _ => free⟩

/-- While a program is loaded, frames are mapped over whatever was there. -/
theorem loadtimeMapFrame_spec (valid : layout.Valid) (inv : Inv layout ram state)
    (live : state.root .user slot ≠ 0) (low : address < userTop) {permissions : Nat}
    (fresh : state.Fresh frame) (managed : layout.Managed frame)
    (unreferenced : state.references frame = 0) (lowPermissions : permissions < pageSize) :
    wp (loadtimeMapFrame (state.root .user slot) frame address permissions) (fun _ next =>
      SpaceBecomes layout ram slot [frame] state [] next ((state.space slot).map (pageOf address)
          (pageEntry frame permissions) (state.mem frame).words) ∧
        (state.leaf .user slot (pageOf address) = 0 → Keeps slot [frame] state [] next) ∧
        Calm slot state next ∧ state.freeFrameList.length ≤ next.freeFrameList.length +
          if state.dirWord .user slot (pageOf address / 1024) = 0 then 1 else 0)
      (onPanic fun next => next = state ∧ state.freeFrameList = [] ∧
        state.dirWord .user slot (pageOf address / 1024) = 0) state := by
  have word := mem_root live low
  simp only [loadtimeMapFrame, wp_bind, wp_get, word]
  by_cases absent : state.dirWord .user slot (pageOf address / 1024) = 0
  · have zero : frameOf (extractAddress 0) < state.numberOfFrames := zero_frame_lt valid inv
    rw [absent, wp_staticKernelVirtualAddress zero]
    simp only [if_true, wp_bind, staticCpt]
    refine wp_mono (createTable_spec valid inv live low absent) (fun table next created => ?_)
      fun stop next => onPanic.mono fun _ stopped => ⟨stopped.1, stopped.2, trivial⟩
    obtain ⟨becomes, keeps, stable, found, free⟩ := created
    have apart := not_held_of_fresh fresh slot
    have vacant : next.leaf .user slot (pageOf address) = 0 := by
      rw [becomes.entry]
      exact KernelState.leaf_of_dirWord_eq_zero absent
    refine wp_mono (bindFrame_spec becomes.inv found rfl
      (becomes.acts.fresh inv.toLedger (by simp) fresh (by simp)) managed
      ((becomes.acts.references frame apart).trans unreferenced) lowPermissions)
      (fun _ last mapped => ?_) fun _ _ never => never
    obtain ⟨becomesMap, keepsMap, stableMap, freeMap⟩ := mapped
    refine ⟨⟨becomesMap.inv, (becomes.frame frame).acts.trans becomesMap.acts, ?_⟩,
      fun _ => (keeps.frame frame).trans (keepsMap vacant), stable.trans stableMap, ?_⟩
    · rw [becomesMap.space, becomes.space, becomes.acts.mem frame apart]
    · rw [freeMap, free, List.length_cons]
  · have found : state.tableAt .user slot (pageOf address) =
        some (frameOf (state.dirWord .user slot (pageOf address / 1024))) := if_neg absent
    rw [wp_staticKernelVirtualAddress
      (by rw [frameOf_extractAddress]; exact frameOf_lt_of_dirWord valid inv absent)]
    simp only [if_neg absent, frameOf_extractAddress]
    refine wp_mono (bindFrame_spec inv found rfl fresh managed unreferenced lowPermissions)
      (fun _ last mapped => ?_) fun _ _ never => never
    obtain ⟨becomesMap, keepsMap, stableMap, freeMap⟩ := mapped
    exact ⟨becomesMap, keepsMap, stableMap, (congrArg List.length freeMap).ge⟩

/-! ### Entry flags -/

theorem root_eq (state : KernelState) (slot : Nat) :
    (state.envs slot).envPageDirectory = state.root .user slot := rfl

theorem wp_pageTableForFlags (valid : layout.Valid) (inv : Inv layout ram state)
    (low : address < userTop)
    (present : state.dirWord .user slot (pageOf address / 1024) ≠ 0) {onDisk missing : String}
    {post : Nat → KernelState → Prop} {fail : Stop → KernelState → Prop} :
    wp (pageTableForFlags (state.root .user slot) address onDisk missing) post fail state ↔
      post (frameOf (state.dirWord .user slot (pageOf address / 1024))) state := by
  have live := (KernelState.root_ne_zero_of_dirWord present).1
  have word := mem_root live low
  simp only [pageTableForFlags, wp_bind, wp_get, word, dirWord_present inv present, if_true]
  rw [wp_staticKernelVirtualAddress
    (by rw [frameOf_extractAddress]; exact frameOf_lt_of_dirWord valid inv present)]
  rw [frameOf_extractAddress]

/-- The flags of a mapped page change. -/
theorem ptSetPagePermissions_spec (valid : layout.Valid) (inv : Inv layout ram state)
    (low : address < userTop) (mapped : state.leaf .user slot (pageOf address) ≠ 0)
    {set clear : Nat} (setLow : set < pageSize) (clearLow : clear < pageSize)
    (nonzero : changePerm (state.leaf .user slot (pageOf address)) set clear ≠ 0)
    {fail : Stop → KernelState → Prop} :
    wp (ptSetPagePermissions slot address set clear) (fun _ next =>
      SpaceBecomes layout ram slot [] state [] next ((state.space slot).setEntry (pageOf address)
          (changePerm (state.leaf .user slot (pageOf address)) set clear)) ∧
        Keeps slot [] state [] next ∧ Calm slot state next ∧
        next.freeFrameList = state.freeFrameList)
      fail state := by
  have present := KernelState.dirWord_ne_zero_of_leaf mapped
  have entry := mem_table present
  have sameFrame := frameOf_changePerm (leaf_lt valid inv mapped) setLow clearLow
  obtain ⟨flagged, keeps⟩ := inv.flagLeaf [] mapped nonzero sameFrame
  simp only [ptSetPagePermissions, wp_bind, wp_get, root_eq,
    wp_pageTableForFlags valid inv low present, wp_modify, entry]
  rw [ptx_eq]
  exact ⟨flagged, keeps, .of_eq rfl rfl fun side index _ =>
    (writesLeaf_writeWord present _).dirWord inv.toLedger side slot index, rfl⟩

/-- Clearing the entry of an unmapped page changes nothing. -/
theorem wp_ptClearPageTableEntry (valid : layout.Valid) (inv : Inv layout ram state)
    (low : address < userTop)
    (present : state.dirWord .user slot (pageOf address / 1024) ≠ 0)
    (unmapped : state.leaf .user slot (pageOf address) = 0)
    {post : Unit → KernelState → Prop} {fail : Stop → KernelState → Prop} :
    wp (ptClearPageTableEntry slot address) post fail state ↔ post () state := by
  have entry := (mem_table present).trans unmapped
  simp only [ptClearPageTableEntry, wp_bind, wp_get, root_eq,
    wp_pageTableForFlags valid inv low present, wp_modify]
  conv_lhs => rw [← entry, KernelState.writeWord_self]

theorem wp_ptGetPagePermissions (valid : layout.Valid) (inv : Inv layout ram state)
    (low : address < userTop)
    (present : state.dirWord .user slot (pageOf address / 1024) ≠ 0)
    {post : Nat → KernelState → Prop} {fail : Stop → KernelState → Prop} :
    wp (ptGetPagePermissions slot address) post fail state ↔
      post (state.leaf .user slot (pageOf address) &&& 0xFFF) state := by
  have live := (KernelState.root_ne_zero_of_dirWord present).1
  have word := mem_root live low
  simp only [ptGetPagePermissions, wp_bind, wp_get, root_eq, word, dirWord_present inv present,
    if_true]
  rw [wp_staticKernelVirtualAddress
    (by rw [frameOf_extractAddress]; exact frameOf_lt_of_dirWord valid inv present),
    frameOf_extractAddress, wp_pure, KernelState.leaf_eq_mem present, ptx_eq]

/-! ### The memory management unit -/

/-- Translation below `USER_TOP` goes by the table entry of the page. -/
theorem translate_eq (inv : Inv layout ram state) (live : state.root .user slot ≠ 0)
    (low : address < userTop) :
    state.translate (state.root .user slot) address =
      if hasPerm (state.leaf .user slot (pageOf address)) permPresent then
        some (frameOf (state.leaf .user slot (pageOf address)))
      else none := by
  have word := mem_root live low
  simp only [KernelState.translate, word]
  by_cases absent : state.dirWord .user slot (pageOf address / 1024) = 0
  · simp only [absent, hasPerm_zero, KernelState.leaf_of_dirWord_eq_zero absent,
      Bool.false_eq_true, if_false]
  · simp only [dirWord_present inv absent, if_true, KernelState.leaf_eq_mem absent, ptx_eq]

/-- Writing a present page through the active directory sets its modified bit. -/
theorem modifyMappedPage_spec (inv : Inv layout ram state)
    (active : state.cr3 = toPhysicalAddress (state.root .user slot)) (low : address < userTop)
    (isPresent : hasPerm (state.leaf .user slot (pageOf address)) permPresent = true)
    (change : Page → Page) {fail : Stop → KernelState → Prop} :
    wp (modifyMappedPage address change) (fun _ next =>
      SpaceBecomes layout ram slot [] state [] next
          (((state.space slot).setEntry (pageOf address)
            (state.leaf .user slot (pageOf address) ||| permModified)).setContent (pageOf address)
            (change (state.mem (frameOf (state.leaf .user slot (pageOf address))))).words) ∧
        Keeps slot [] state [] next ∧ Calm slot state next ∧
        next.freeFrameList = state.freeFrameList)
      fail state := by
  have mapped : state.leaf .user slot (pageOf address) ≠ 0 := by
    intro zero
    rw [zero] at isPresent
    exact absurd isPresent (by decide)
  have present := KernelState.dirWord_ne_zero_of_leaf mapped
  have live := (KernelState.root_ne_zero_of_dirWord present).1
  have word := mem_root live low
  have entry : state.mem (frameOf (state.dirWord .user slot (pageOf address / 1024)))
      (pageOf address % 1024) = state.leaf .user slot (pageOf address) := by
    rw [KernelState.leaf_eq_mem present]
  have sameFrame : frameOf (state.leaf .user slot (pageOf address) ||| permModified) =
      frameOf (state.leaf .user slot (pageOf address)) := frameOf_or (by decide)
  have nonzero : state.leaf .user slot (pageOf address) ||| permModified ≠ 0 := fun zero => by
    simp [Nat.or_eq_zero_iff] at zero
  obtain ⟨flagged, keepsFlagged⟩ := inv.flagLeaf [] mapped nonzero sameFrame
  have writes := writesLeaf_writeWord present (state.leaf .user slot (pageOf address) ||| permModified)
  have mappedNext : (state.writeWord (frameOf (state.dirWord .user slot (pageOf address / 1024)))
      (pageOf address % 1024) (state.leaf .user slot (pageOf address) ||| permModified)).leaf
        .user slot (pageOf address) =
      state.leaf .user slot (pageOf address) ||| permModified := by
    rw [flagged.entry]
    exact Function.update_self ..
  have memFrame : (state.writeWord (frameOf (state.dirWord .user slot (pageOf address / 1024)))
      (pageOf address % 1024) (state.leaf .user slot (pageOf address) ||| permModified)).mem
        (frameOf (state.leaf .user slot (pageOf address))) =
      state.mem (frameOf (state.leaf .user slot (pageOf address))) := by
    refine writes.mem _ fun same => ?_
    have := inv.exclusive.injective _ _ _ (KernelState.names_page mapped)
      (same ▸ KernelState.names_table present)
    cases this
  have stillMapped : (state.writeWord (frameOf (state.dirWord .user slot (pageOf address / 1024)))
      (pageOf address % 1024) (state.leaf .user slot (pageOf address) ||| permModified)).leaf
        .user slot (pageOf address) ≠ 0 := mappedNext.symm ▸ nonzero
  have written := flagged.inv.writePage [] stillMapped
    (change (state.mem (frameOf (state.leaf .user slot (pageOf address)))))
  rw [mappedNext, sameFrame] at written
  obtain ⟨becomes, keeps, dirs⟩ := written
  simp only [modifyMappedPage, wp_bind, wp_get, active, frameOf_toPhysicalAddress,
    translate_eq inv live low, isPresent, if_true, wp_modify, word, ptx_eq, entry, memFrame]
  refine ⟨⟨becomes.inv, flagged.acts.trans becomes.acts, ?_⟩, keepsFlagged.trans keeps,
    .of_eq rfl rfl fun side index _ => ?_, rfl⟩
  · rw [becomes.space, flagged.space]
  · exact (dirs side index).trans (writes.dirWord inv.toLedger side slot index)

end Fos.Kernel
