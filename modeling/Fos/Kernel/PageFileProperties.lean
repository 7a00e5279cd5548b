import Fos.Kernel.FramesProperties

/-! What the operations of `kern/file_manager.c` do to the pages of an environment. -/

set_option autoImplicit false

namespace Fos.Kernel

open Foundation

variable {layout : BootLayout} {ram : Nat → Page} {slot frame address : Nat}
  {state next : KernelState}

/-! ### The disk page directory -/

theorem root_disk {directory : Nat} (placed : (state.envs slot).diskEnvPgdir = some directory) :
    state.root .disk slot = directory := by
  simp only [KernelState.root, placed, Option.getD_some]

theorem diskEnvPgdir_eq (live : state.root .disk slot ≠ 0) :
    (state.envs slot).diskEnvPgdir = some (state.root .disk slot) := by
  cases placed : (state.envs slot).diskEnvPgdir with
  | none => simp [KernelState.root, placed] at live
  | some directory => rw [root_disk placed]

theorem root_disk_ne_zero (inv : Inv layout ram state)
    (placed : (state.envs slot).diskEnvPgdir ≠ none) : state.root .disk slot ≠ 0 := by
  obtain ⟨directory, found⟩ := Option.ne_none_iff_exists'.1 placed
  rw [root_disk found]
  exact (inv.physicalDisk slot directory found).2

/-- The disk page directory is there afterwards; only a missing one takes a frame. -/
theorem getDiskPageDirectory_spec (valid : layout.Valid) (inv : Inv layout ram state) :
    wp (getDiskPageDirectory slot) (fun directory next =>
      SpaceBecomes layout ram slot [] state [] next (state.space slot) ∧ Keeps slot [] state [] next ∧
        Calm slot state next ∧ directory = next.root .disk slot ∧ directory ≠ 0 ∧
        (∀ side index, next.dirWord side slot index = state.dirWord side slot index) ∧
        ((state.envs slot).diskEnvPgdir ≠ none → next = state) ∧
        state.freeFrameList.length ≤ next.freeFrameList.length + 1)
      (onPanic fun next => next = state ∧ (state.envs slot).diskEnvPgdir = none ∧
        state.freeFrameList = []) state := by
  simp only [getDiskPageDirectory, wp_bind, wp_get]
  cases placed : (state.envs slot).diskEnvPgdir with
  | some directory =>
      simp only [wp_pure]
      exact ⟨.refl inv slot [], .refl slot [] state, .refl slot state, (root_disk placed).symm,
        (inv.physicalDisk slot directory placed).2, fun _ _ => trivial, fun _ => trivial, Nat.le_succ _⟩
  | none =>
      simp only [allocateFrame, wp_bind, wp_get]
      cases free : state.freeFrameList with
      | nil =>
          simp only [wp_panic]
          exact ⟨trivial, trivial, trivial⟩
      | cons frame rest =>
          obtain ⟨taken, keepsTaken, fresh, managed⟩ := inv.take slot [] free 1
          have bounds := managed.pos valid
          have positive : frame ≠ 0 := by omega
          have bound : frameOf (toPhysicalAddress frame) < state.numberOfFrames := by
            rw [frameOf_toPhysicalAddress, inv.size]
            exact bounds.2
          simp only [wp_bind, wp_modify, wp_pure]
          rw [wp_staticKernelVirtualAddress (by exact bound)]
          simp only [frameOf_toPhysicalAddress, KernelState.setReferences_twice]
          have vacant : state.root .disk slot = 0 := by simp [KernelState.root, placed]
          have attaches : AttachesRoot layout .disk slot frame
              ((state.setFreeFrameList rest).setReferences frame 1)
              ((((state.setFreeFrameList rest).setReferences frame 1).setEnv slot
                { state.envs slot with
                  diskEnvPgdir := some frame
                  diskEnvPgdirPA := toPhysicalAddress frame }).writeFrame frame Page.zero) :=
            { quiet := by constructor <;> rfl
              others := fun other different => if_neg different
              roots := fun side other => by
                cases side <;> by_cases same : other = slot <;>
                  simp [KernelState.root, KernelState.writeFrame, KernelState.setEnv, same]
              physical := by simpa [KernelState.setEnv] using inv.physical slot
              physicalDisk := fun directory found => by
                simp only [KernelState.writeFrame, KernelState.setEnv, if_true,
                  Option.some.injEq] at found ⊢
                exact ⟨congrArg _ found, found ▸ positive⟩
              mem := fun other different => if_neg different
              low := fun index _ => by simp [KernelState.writeFrame, Page.zero]
              high := fun index _ _ => by
                simp [KernelState.writeFrame, Page.zero, BootLayout.upperWord]
              free := rfl
              references := rfl
              diskFree := rfl
              disk := rfl }
          obtain ⟨attached, keepsAttached, dirs⟩ := taken.inv.attachRoot [] attaches vacant fresh
            managed positive (by simp [KernelState.setReferences])
          refine ⟨⟨attached.inv, taken.acts.trans attached.acts,
            attached.space.trans taken.space⟩, keepsTaken.trans keepsAttached, ⟨⟨?_, ?_, ?_⟩, rfl⟩, ?_,
            positive, fun side index => dirs side slot index, fun some => absurd rfl some, le_refl _⟩
          · simp [EnvKept, KernelState.setEnv]
          · exact fun some => absurd placed some
          · exact fun side index _ => dirs side slot index
          · exact ((attaches.roots .disk slot).trans (if_pos ⟨rfl, rfl⟩)).symm

/-! ### Disk page tables -/

theorem wp_getDiskPageTable (valid : layout.Valid) (inv : Inv layout ram state)
    (live : state.root .disk slot ≠ 0) (low : address < userTop)
    {post : Option Nat → KernelState → Prop} {fail : Stop → KernelState → Prop} :
    wp (getDiskPageTable (state.root .disk slot) address false) post fail state ↔
      post (state.tableAt .disk slot (pageOf address)) state := by
  simp only [getDiskPageTable, wp_bind, wp_get, mem_root live low, KernelState.tableAt]
  by_cases absent : state.dirWord .disk slot (pageOf address / 1024) = 0
  · have zero : frameOf (extractAddress 0) < state.numberOfFrames := zero_frame_lt valid inv
    rw [absent, wp_staticKernelVirtualAddress zero]
    simp only [Bool.false_eq_true, if_true, if_false, wp_pure]
  · rw [wp_staticKernelVirtualAddress
      (by rw [frameOf_extractAddress]; exact frameOf_lt_of_dirWord valid inv absent)]
    simp only [if_neg absent, wp_pure, frameOf_extractAddress]

/-- Where a disk page table may be made, it is there afterwards. -/
theorem getDiskPageTable_spec (valid : layout.Valid) (inv : Inv layout ram state)
    (live : state.root .disk slot ≠ 0) (low : address < userTop) :
    wp (getDiskPageTable (state.root .disk slot) address true) (fun table next =>
      SpaceBecomes layout ram slot [] state [] next (state.space slot) ∧ Keeps slot [] state [] next ∧
        Calm slot state next ∧
        (∃ found, table = some found ∧ next.tableAt .disk slot (pageOf address) = some found) ∧
        state.freeFrameList.length ≤ next.freeFrameList.length +
          if state.dirWord .disk slot (pageOf address / 1024) = 0 then 1 else 0)
      (onPanic fun next => next = state ∧ state.freeFrameList = [] ∧
        state.dirWord .disk slot (pageOf address / 1024) = 0) state := by
  simp only [getDiskPageTable, wp_bind, wp_get, mem_root live low]
  by_cases absent : state.dirWord .disk slot (pageOf address / 1024) = 0
  · have zero : frameOf (extractAddress 0) < state.numberOfFrames := zero_frame_lt valid inv
    rw [absent, wp_staticKernelVirtualAddress zero]
    simp only [if_true, wp_bind, wp_pure]
    refine wp_mono (createTable_spec valid inv live low absent) (fun table next created => ?_)
      fun stop next => onPanic.mono fun _ stopped => ⟨stopped.1, stopped.2, trivial⟩
    obtain ⟨becomes, keeps, stable, found, free⟩ := created
    exact ⟨becomes, keeps, stable, ⟨table, rfl, found⟩, by rw [free, List.length_cons]⟩
  · rw [wp_staticKernelVirtualAddress
      (by rw [frameOf_extractAddress]; exact frameOf_lt_of_dirWord valid inv absent)]
    simp only [if_neg absent, wp_pure, frameOf_extractAddress]
    exact ⟨.refl inv slot [], .refl slot [] state, .refl slot state,
      ⟨_, rfl, if_neg absent⟩, le_refl _⟩

/-! ### Giving a page a disk frame -/

theorem stored_eq_zero {page : Nat} (unplaced : state.leaf .disk slot page = 0) :
    (state.space slot).stored page = Page.zero := if_pos unplaced

/-- What `addDiskFrame` does: a page that has a disk frame keeps it. -/
structure Placed (layout : BootLayout) (ram : Nat → Page) (slot page diskFrame : Nat)
    (state next : KernelState) : Prop where
  becomes : ∃ stored, SpaceBecomes layout ram slot [] state [] next
    ((state.space slot).place page diskFrame stored) ∧
    (state.leaf .disk slot page ≠ 0 →
      diskFrame = state.leaf .disk slot page ∧ stored = (state.space slot).stored page)
  keeps : Keeps slot [] state [] next
  stable : Stable slot state next
  positive : diskFrame ≠ 0
  room : state.leaf .disk slot page ≠ 0 ∨ state.diskFreeFrameList ≠ []

/-- No disk frame or no memory for a disk page table: nothing is lost. -/
structure Unplaced (layout : BootLayout) (ram : Nat → Page) (slot : Nat)
    (state next : KernelState) : Prop where
  becomes : SpaceBecomes layout ram slot [] state [] next (state.space slot)
  keeps : Keeps slot [] state [] next
  stable : Stable slot state next

theorem addDiskFrame_spec (valid : layout.Valid) (inv : Inv layout ram state)
    (low : address < userTop) :
    wp (addDiskFrame slot address) (fun result next => match result with
        | none => Unplaced layout ram slot state next ∧ state.diskFreeFrameList = [] ∧
            state.leaf .disk slot (pageOf address) = 0 ∧ (next.envs slot).diskEnvPgdir ≠ none
        | some diskFrame => Placed layout ram slot (pageOf address) diskFrame state next)
      (onPanic fun next => Unplaced layout ram slot state next ∧
        ((state.envs slot).diskEnvPgdir ≠ none → state.freeFrameList = [] ∧
          state.dirWord .disk slot (pageOf address / 1024) = 0)) state := by
  have inKernel : ¬ kernelBase ≤ address := not_le.2 (low.trans (by decide))
  simp only [addDiskFrame, if_neg inKernel, wp_bind]
  refine wp_mono (getDiskPageDirectory_spec valid inv) (fun directory first created => ?_)
    fun stop next => onPanic.mono fun _ stopped => ?_
  swap
  · obtain ⟨rfl, absent, -⟩ := stopped
    exact ⟨⟨.refl inv slot [], .refl slot [] _, .refl slot _⟩, fun some => absurd absent some⟩
  obtain ⟨becomesFirst, keepsFirst, calmFirst, rfl, live, dirsFirst, unchanged, -⟩ := created
  refine wp_mono (getDiskPageTable_spec valid becomesFirst.inv live low)
    (fun table second created => ?_) fun stop next => onPanic.mono fun _ stopped => ?_
  swap
  · obtain ⟨rfl, noMemory, absent⟩ := stopped
    refine ⟨⟨becomesFirst, keepsFirst, calmFirst.toStable⟩, fun some => ?_⟩
    rw [← unchanged some]
    exact ⟨noMemory, absent⟩
  obtain ⟨becomesSecond, keepsSecond, calmSecond, ⟨table, rfl, found⟩, -⟩ := created
  obtain ⟨present, tableFrame⟩ := tableAt_eq_some found
  have becomes : SpaceBecomes layout ram slot [] state [] second (state.space slot) :=
    ⟨becomesSecond.inv, becomesFirst.acts.trans becomesSecond.acts, becomesSecond.space.trans becomesFirst.space⟩
  have keeps := keepsFirst.trans keepsSecond
  have calm := calmFirst.trans calmSecond
  have entry := mem_table present
  rw [tableFrame, becomes.diskFrame] at entry
  simp only [wp_bind, wp_get, entry]
  by_cases unplaced : state.leaf .disk slot (pageOf address) = 0
  · have zero : (state.space slot).diskFrame (pageOf address) = 0 := unplaced
    simp only [zero, if_true, allocateDiskFrame, wp_bind, wp_get]
    cases free : second.diskFreeFrameList with
    | nil =>
        simp only [wp_pure]
        refine ⟨⟨becomes, keeps, calm.toStable⟩, calm.diskFree ▸ free, unplaced, fun missing => ?_⟩
        have rootSecond := (KernelState.root_ne_zero_of_dirWord present).1
        rw [KernelState.root, missing] at rootSecond
        exact rootSecond rfl
    | cons diskFrame rest =>
        obtain ⟨placed, keepsPlaced⟩ := becomes.inv.place [] present free
        rw [tableFrame, becomes.space] at placed
        rw [tableFrame] at keepsPlaced
        have vacant : second.leaf .disk slot (pageOf address) = 0 := by rw [becomes.diskFrame, zero]
        have positive := becomes.inv.diskPositive
        rw [free, List.forall_mem_cons] at positive
        simp only [wp_bind, wp_modify, wp_pure, ptx_eq]
        refine ⟨⟨_, ⟨placed.inv, becomes.acts.trans placed.acts, placed.space⟩,
          fun some => absurd unplaced some⟩, keeps.trans (keepsPlaced vacant),
          calm.toStable.trans (.of_eq rfl fun side index _ => ?_), positive.1,
          .inr (calm.diskFree ▸ free ▸ List.cons_ne_nil _ _)⟩
        have writes := writesLeaf_writeWord present diskFrame
        rw [tableFrame] at writes
        exact writes.dirWord becomes.inv.toLedger side slot index
  · have some : (state.space slot).diskFrame (pageOf address) ≠ 0 := unplaced
    simp only [if_neg some, wp_pure]
    refine ⟨⟨(state.space slot).stored (pageOf address), ?_, fun _ => ⟨rfl, rfl⟩⟩, keeps,
      calm.toStable, some, .inl unplaced⟩
    rwa [Space.place_self]

/-- The page is in the page file with the given content, unless there is no space. -/
theorem pfAddEnvPage_spec (valid : layout.Valid) (inv : Inv layout ram state)
    (low : address < userTop) (dataSrc : Page) :
    wp (pfAddEnvPage slot address dataSrc) (fun result next =>
      (result = eNoPageFileSpace ∧ Unplaced layout ram slot state next ∧
        state.diskFreeFrameList = [] ∧ state.leaf .disk slot (pageOf address) = 0 ∧
        (next.envs slot).diskEnvPgdir ≠ none) ∨
      (result = 0 ∧ ∃ diskFrame,
        SpaceBecomes layout ram slot [] state [] next
          ((state.space slot).place (pageOf address) diskFrame dataSrc.words) ∧
        Keeps slot [] state [] next ∧ Stable slot state next ∧ diskFrame ≠ 0 ∧
        (state.leaf .disk slot (pageOf address) ≠ 0 ∨ state.diskFreeFrameList ≠ [])))
      (onPanic fun next => Unplaced layout ram slot state next ∧
        ((state.envs slot).diskEnvPgdir ≠ none → state.freeFrameList = [] ∧
          state.dirWord .disk slot (pageOf address / 1024) = 0)) state := by
  simp only [pfAddEnvPage, wp_bind]
  refine wp_mono (addDiskFrame_spec valid inv low) (fun result next added => ?_)
    fun _ _ stopped => stopped
  cases result with
  | none =>
      simp only [wp_pure]
      exact .inl ⟨trivial, added.1, added.2⟩
  | some diskFrame =>
      obtain ⟨⟨stored, becomes, -⟩, keeps, stable, positive, room⟩ := added
      have here : next.leaf .disk slot (pageOf address) = diskFrame := by
        rw [becomes.diskFrame]
        exact Function.update_self ..
      obtain ⟨written, keepsWritten⟩ := becomes.inv.storePage [] (here ▸ positive) dataSrc
      rw [here, becomes.space, Space.store_place] at written
      rw [here] at keepsWritten
      simp only [wp_bind, wp_modify, wp_pure]
      exact .inr ⟨trivial, diskFrame, ⟨written.inv, becomes.acts.trans written.acts, written.space⟩,
        keeps.trans keepsWritten, stable.trans (.of_eq rfl fun _ _ _ => rfl), positive, room⟩

/-- Without initialization a page keeps what is stored for it. -/
theorem pfAddEmptyEnvPage_spec (valid : layout.Valid) (inv : Inv layout ram state)
    (low : address < userTop) :
    wp (pfAddEmptyEnvPage slot address false) (fun result next =>
      (result = eNoPageFileSpace ∧ Unplaced layout ram slot state next ∧
        state.diskFreeFrameList = [] ∧ state.leaf .disk slot (pageOf address) = 0 ∧
        (next.envs slot).diskEnvPgdir ≠ none) ∨
      (result = 0 ∧ ∃ diskFrame, Placed layout ram slot (pageOf address) diskFrame state next))
      (onPanic fun next => Unplaced layout ram slot state next ∧
        ((state.envs slot).diskEnvPgdir ≠ none → state.freeFrameList = [] ∧
          state.dirWord .disk slot (pageOf address / 1024) = 0)) state := by
  simp only [pfAddEmptyEnvPage, Bool.false_eq_true, if_false, wp_bind]
  refine wp_mono (addDiskFrame_spec valid inv low) (fun result next added => ?_)
    fun _ _ stopped => stopped
  cases result with
  | none => exact .inl ⟨rfl, added.1, added.2⟩
  | some diskFrame => exact .inr ⟨rfl, diskFrame, added⟩

theorem wp_pfAddEmptyEnvPage_true {post : Int → KernelState → Prop}
    {fail : Stop → KernelState → Prop} :
    wp (pfAddEmptyEnvPage slot address true) post fail state ↔
      wp (pfAddEnvPage slot address (state.mem 1)) post fail state := Iff.rfl

/-! ### Reading and writing pages of the page file -/

/-- The content of any frame is stored, if the page has a disk frame. -/
theorem pfUpdateEnvPage_frame (valid : layout.Valid) (inv : Inv layout ram state) (low : address < userTop)
    {frame : Nat} (bound : frame < state.numberOfFrames) :
    wp (pfUpdateEnvPage slot address (some frame)) (fun result next =>
      (state.leaf .disk slot (pageOf address) = 0 ∧ result = ePageNotExistInPF ∧
        SpaceBecomes layout ram slot [] state [] next (state.space slot) ∧
        ((state.envs slot).diskEnvPgdir ≠ none → next = state)) ∨
      (state.leaf .disk slot (pageOf address) ≠ 0 ∧ result = 0 ∧
        SpaceBecomes layout ram slot [] state [] next
          ((state.space slot).store (pageOf address) (state.mem frame).words) ∧
        Keeps slot [] state [] next ∧ Calm slot state next ∧
        next.freeFrameList = state.freeFrameList))
      (onPanic fun next => next = state ∧ (state.envs slot).diskEnvPgdir = none) state := by
  have inKernel : ¬ kernelBase ≤ address := not_le.2 (low.trans (by decide))
  simp only [pfUpdateEnvPage, if_neg inKernel, wp_bind]
  refine wp_mono (getDiskPageDirectory_spec valid inv) (fun directory first created => ?_)
    fun stop next => onPanic.mono fun _ stopped => ⟨stopped.1, stopped.2.1⟩
  obtain ⟨becomes, -, -, rfl, live, -, unchanged, -⟩ := created
  simp only [wp_getDiskPageTable valid becomes.inv live low]
  have leaf : first.leaf .disk slot (pageOf address) = state.leaf .disk slot (pageOf address) :=
    becomes.diskFrame _
  by_cases absent : first.dirWord .disk slot (pageOf address / 1024) = 0
  · simp only [KernelState.tableAt, if_pos absent, wp_pure]
    exact .inl ⟨leaf ▸ KernelState.leaf_of_dirWord_eq_zero absent, trivial, becomes, unchanged⟩
  · simp only [KernelState.tableAt, if_neg absent, wp_bind, wp_get, mem_table absent, leaf]
    by_cases unplaced : state.leaf .disk slot (pageOf address) = 0
    · simp only [if_pos unplaced, wp_pure]
      exact .inl ⟨unplaced, trivial, becomes, unchanged⟩
    · have liveBefore := (KernelState.root_ne_zero_of_dirWord (KernelState.dirWord_ne_zero_of_leaf unplaced)).1
      obtain rfl := unchanged (diskEnvPgdir_eq liveBefore ▸ Option.some_ne_none _)
      obtain ⟨stored, keeps⟩ := inv.storePage [] unplaced (first.mem frame)
      have inMemory : frameOf (toPhysicalAddress frame) < first.numberOfFrames := by
        rwa [frameOf_toPhysicalAddress]
      simp only [if_neg unplaced, wp_bind, wp_staticKernelVirtualAddress inMemory,
        frameOf_toPhysicalAddress, wp_modify, wp_pure]
      exact .inr ⟨unplaced, trivial, stored, keeps, .of_eq rfl rfl fun _ _ _ => rfl, rfl⟩

/-- The content of a mapped page is stored, if the page has a disk frame. -/
theorem pfUpdateEnvPage_spec (valid : layout.Valid) (inv : Inv layout ram state)
    (placed : (state.envs slot).diskEnvPgdir ≠ none) (low : address < userTop)
    (mapped : state.leaf .user slot (pageOf address) ≠ 0) :
    wp (pfUpdateEnvPage slot address (state.frameAt slot (pageOf address))) (fun _ next =>
      SpaceBecomes layout ram slot [] state [] next
          (if state.leaf .disk slot (pageOf address) = 0 then state.space slot
           else (state.space slot).store (pageOf address)
            ((state.space slot).content (pageOf address))) ∧
        Keeps slot [] state [] next ∧ Calm slot state next ∧
        next.freeFrameList = state.freeFrameList) (onPanic fun _ => False) state := by
  have found : state.frameAt slot (pageOf address) =
      some (frameOf (state.leaf .user slot (pageOf address))) := if_neg mapped
  have content : (state.space slot).content (pageOf address) =
      (state.mem (frameOf (state.leaf .user slot (pageOf address)))).words := if_neg mapped
  rw [found]
  refine wp_mono (pfUpdateEnvPage_frame valid inv low (frameOf_lt_of_leaf valid inv mapped))
    (fun result next outcome => ?_) fun stop next => onPanic.mono fun _ stopped => placed stopped.2
  rcases outcome with ⟨unplaced, -, -, unchanged⟩ | ⟨some, -, stored⟩
  · obtain rfl := unchanged placed
    rw [if_pos unplaced]
    exact ⟨.refl inv slot [], .refl slot [] next, .refl slot next, rfl⟩
  · rwa [if_neg some, content]

/-- A present page of the running environment gets the content stored for it, and its
modified bit is cleared. -/
theorem pfReadEnvPage_flags (valid : layout.Valid) (inv : Inv layout ram state)
    (low : address < userTop) (running : state.curenv = some slot)
    (active : state.cr3 = toPhysicalAddress (state.root .user slot))
    (isPresent : hasPerm (state.leaf .user slot (pageOf address)) permPresent = true)
    {fail : Stop → KernelState → Prop} :
    wp (pfReadEnvPage slot address) (fun result next =>
      (state.leaf .disk slot (pageOf address) = 0 ∧ result = ePageNotExistInPF ∧ next = state) ∨
      (state.leaf .disk slot (pageOf address) ≠ 0 ∧ result = 0 ∧
        SpaceBecomes layout ram slot [] state [] next (((state.space slot).setContent (pageOf address)
          ((state.space slot).stored (pageOf address))).setEntry (pageOf address)
            (changePerm (state.leaf .user slot (pageOf address) ||| permModified) 0 permModified)) ∧
        Keeps slot [] state [] next ∧ Calm slot state next ∧
        next.freeFrameList = state.freeFrameList)) fail state := by
  have lowDown : roundDown address < userTop := (Nat.sub_le ..).trans_lt low
  simp only [pfReadEnvPage, wp_bind, wp_get]
  cases directory : (state.envs slot).diskEnvPgdir with
  | none =>
      have unplaced : state.leaf .disk slot (pageOf address) = 0 :=
        KernelState.leaf_of_dirWord_eq_zero (if_pos (.inl (by simp [KernelState.root, directory])))
      simp only [wp_pure]
      exact .inl ⟨unplaced, trivial, trivial⟩
  | some found =>
      obtain rfl := root_disk directory
      have live := root_disk_ne_zero inv (directory ▸ Option.some_ne_none _)
      simp only [wp_bind, wp_getDiskPageTable valid inv live lowDown, pageOf_roundDown]
      by_cases absent : state.dirWord .disk slot (pageOf address / 1024) = 0
      · simp only [KernelState.tableAt, if_pos absent, wp_pure]
        exact .inl ⟨KernelState.leaf_of_dirWord_eq_zero absent, trivial, trivial⟩
      · have word : ptx (roundDown address) = ptx address := by rw [ptx_eq, ptx_eq, pageOf_roundDown]
        simp only [KernelState.tableAt, if_neg absent, wp_bind, wp_get, word, mem_table absent]
        by_cases unplaced : state.leaf .disk slot (pageOf address) = 0
        · simp only [if_pos unplaced, wp_pure]
          exact .inl ⟨unplaced, trivial, trivial⟩
        · simp only [if_neg unplaced, wp_bind, wp_get]
          refine wp_mono (modifyMappedPage_spec inv active lowDown (by rwa [pageOf_roundDown]) _)
            (fun _ written holds => ?_) fun _ _ never => never
          obtain ⟨becomes, keeps, calm, free⟩ := holds
          rw [pageOf_roundDown] at becomes
          have entry : written.leaf .user slot (pageOf address) =
              state.leaf .user slot (pageOf address) ||| permModified := by
            rw [becomes.entry]
            exact Function.update_self ..
          have stillMapped : written.leaf .user slot (pageOf address) ≠ 0 := fun zero => by
            simp [entry, Nat.or_eq_zero_iff] at zero
          have cleared : (changePerm (written.leaf .user slot (pageOf address)) 0 permModified).testBit 0 = true := by
            rw [hasPerm_present] at isPresent
            rw [entry, testBit_changePerm _ _ _ _ (by decide), Nat.testBit_or, isPresent]
            decide
          have some : changePerm (written.leaf .user slot (pageOf address)) 0 permModified ≠ 0 := by
            intro zero
            simp [zero] at cleared
          simp only [becomes.acts.quiet.curenv.trans running, wp_bind, wp_pure]
          refine wp_mono (ptSetPagePermissions_spec valid becomes.inv lowDown (by rwa [pageOf_roundDown]) (by decide)
            (by decide) (by rwa [pageOf_roundDown])) (fun _ next flagged => ?_)
            fun _ _ never => never
          obtain ⟨becomesClear, keepsClear, calmClear, freeClear⟩ := flagged
          refine .inr ⟨unplaced, trivial, ⟨becomesClear.inv, becomes.acts.trans becomesClear.acts, ?_⟩,
            keeps.trans keepsClear, calm.trans calmClear, freeClear.trans free⟩
          have stored : (state.space slot).stored (pageOf address) =
              (state.diskPage (state.leaf .disk slot (pageOf address))).words := if_neg unplaced
          rw [becomesClear.space, becomes.space, pageOf_roundDown, entry, Space.setEntry_setContent,
            Space.setEntry_setEntry, stored]

/-- A present clean page of the running environment gets the content stored for it. -/
theorem pfReadEnvPage_spec (valid : layout.Valid) (inv : Inv layout ram state)
    (low : address < userTop) (running : state.curenv = some slot)
    (active : state.cr3 = toPhysicalAddress (state.root .user slot))
    (isPresent : hasPerm (state.leaf .user slot (pageOf address)) permPresent = true)
    (clean : (state.leaf .user slot (pageOf address)).testBit 6 = false)
    {fail : Stop → KernelState → Prop} :
    wp (pfReadEnvPage slot address) (fun result next =>
      (state.leaf .disk slot (pageOf address) = 0 ∧ result = ePageNotExistInPF ∧ next = state) ∨
      (state.leaf .disk slot (pageOf address) ≠ 0 ∧ result = 0 ∧
        SpaceBecomes layout ram slot [] state [] next ((state.space slot).setContent (pageOf address)
          ((state.space slot).stored (pageOf address))) ∧
        Keeps slot [] state [] next ∧ Calm slot state next ∧
        next.freeFrameList = state.freeFrameList)) fail state := by
  have mapped : state.leaf .user slot (pageOf address) ≠ 0 := by
    intro zero
    rw [zero] at isPresent
    exact absurd isPresent (by decide)
  refine wp_mono (pfReadEnvPage_flags valid inv low running active isPresent)
    (fun result next outcome => ?_) fun _ _ => id
  rcases outcome with none | ⟨some, zero, becomes, rest⟩
  · exact .inl none
  · refine .inr ⟨some, zero, ⟨becomes.inv, becomes.acts, becomes.space.trans ?_⟩, rest⟩
    rw [changePerm_modified (leaf_lt valid inv mapped) clean]
    exact Space.setEntry_self ((state.space slot).setContent _ _) (pageOf address)

/-! ### Removing pages -/

theorem Space.remove_of_unplaced {page : Nat} (unplaced : state.leaf .disk slot page = 0) :
    (state.space slot).remove page = state.space slot := by
  have diskFrame : (state.space slot).diskFrame page = 0 := unplaced
  rw [Space.remove, ← stored_eq_zero unplaced, ← diskFrame, Space.place_self]

/-- The end of every removal: the entry is cleared, and its disk frame is free. -/
theorem freeDiskFrame_spec (inv : Inv layout ram state) {page : Nat}
    (present : state.dirWord .disk slot (page / 1024) ≠ 0) {fail : Stop → KernelState → Prop} :
    wp (freeDiskFrame (state.leaf .disk slot page)) (fun _ next =>
      SpaceBecomes layout ram slot [] state [] next ((state.space slot).remove page) ∧
        Keeps slot [] state [] next ∧ next.envs slot = state.envs slot ∧
        (∀ side index, next.dirWord side slot index = state.dirWord side slot index) ∧
        next.freeFrameList = state.freeFrameList) fail
      (state.writeWord (frameOf (state.dirWord .disk slot (page / 1024))) (page % 1024) 0) := by
  have dirs := (writesLeaf_writeWord present 0).dirWord inv.toLedger
  unfold freeDiskFrame
  by_cases unplaced : state.leaf .disk slot page = 0
  · have same := KernelState.writeWord_self state
      (frameOf (state.dirWord .disk slot (page / 1024))) (page % 1024)
    rw [← KernelState.leaf_eq_mem present, unplaced] at same
    rw [if_pos unplaced, wp_pure, same, Space.remove_of_unplaced unplaced]
    exact ⟨.refl inv slot [], .refl slot [] state, rfl, fun _ _ => rfl, rfl⟩
  · obtain ⟨removed, keeps⟩ := inv.removePlace [] unplaced
    rw [if_neg unplaced, wp_modify]
    exact ⟨removed, keeps, rfl, fun side index => dirs side slot index, rfl⟩

/-- The page has no disk frame any more; pages from `USER_TOP` on never have one. -/
theorem pfRemoveEnvPage_spec (valid : layout.Valid) (inv : Inv layout ram state)
    (word : address < wordSize) {fail : Stop → KernelState → Prop} :
    wp (pfRemoveEnvPage slot address) (fun _ next =>
      SpaceBecomes layout ram slot [] state [] next ((state.space slot).remove (pageOf address)) ∧
        Keeps slot [] state [] next ∧ Stable slot state next ∧
        next.freeFrameList = state.freeFrameList) fail state := by
  have unchanged (unplaced : state.leaf .disk slot (pageOf address) = 0) :
      SpaceBecomes layout ram slot [] state [] state ((state.space slot).remove (pageOf address)) ∧
      Keeps slot [] state [] state ∧ Stable slot state state ∧ True := by
    rw [Space.remove_of_unplaced unplaced]
    exact ⟨.refl inv slot [], .refl slot [] state, .refl slot state, trivial⟩
  simp only [pfRemoveEnvPage, wp_bind, wp_get]
  cases placed : (state.envs slot).diskEnvPgdir with
  | none =>
      simp only [wp_pure]
      refine unchanged (KernelState.leaf_of_dirWord_eq_zero (if_pos (.inl ?_)))
      simp [KernelState.root, placed]
  | some directory =>
      have live := root_disk_ne_zero inv (placed ▸ Option.some_ne_none directory)
      obtain rfl := root_disk placed
      by_cases low : address < userTop
      · simp only [wp_bind, wp_getDiskPageTable valid inv live low, KernelState.tableAt]
        by_cases absent : state.dirWord .disk slot (pageOf address / 1024) = 0
        · simp only [if_pos absent, wp_pure]
          exact unchanged (KernelState.leaf_of_dirWord_eq_zero absent)
        · simp only [if_neg absent, wp_bind, wp_get, wp_modify, ptx_eq]
          rw [← KernelState.leaf_eq_mem absent]
          refine wp_mono (freeDiskFrame_spec inv absent) (fun _ next freed => ?_) fun _ _ => id
          obtain ⟨becomes, keeps, env, dirs, free⟩ := freed
          exact ⟨becomes, keeps, .of_eq env fun side index _ => dirs side index, free⟩
      · -- the directory has no entries from USER_TOP on
        have high : userTables ≤ pageOf address / 1024 := by
          rw [userTables_eq]
          simp only [pageOf, pageSize, userTop, uenvs] at low ⊢
          omega
        have inDirectory : pageOf address / 1024 < 1024 := by
          simp only [pageOf, pageSize, wordSize] at word ⊢
          omega
        have entry : state.mem (state.root .disk slot) (pdx address) = 0 := by
          rw [pdx_of_lt word]
          exact inv.upper .disk slot _ live high inDirectory
        have zero : frameOf (extractAddress 0) < state.numberOfFrames := zero_frame_lt valid inv
        simp only [getDiskPageTable, wp_bind, wp_get, entry]
        rw [wp_staticKernelVirtualAddress zero]
        simp only [Bool.false_eq_true, if_true, if_false, wp_pure]
        exact unchanged (KernelState.leaf_of_dirWord_eq_zero (if_pos (.inr high)))

end Fos.Kernel
