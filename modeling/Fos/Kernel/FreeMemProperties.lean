import Fos.Kernel.Bringing
import Mathlib.Data.List.Perm.Subperm

/-! `freeMem`: the pages of the range leave the lists, memory and the page file, and page
tables that become empty are given back. -/

set_option autoImplicit false

namespace Fos.Kernel

open Foundation

variable {layout : BootLayout} {ram : Nat → Page} {slot address element : Nat}
  {strict tidy : Prop} {start state next : KernelState} {env : Env} {space : Space}

/-! ### The kernel window -/

/-- The directory word the window has for a frame. -/
theorem BootLayout.directoryWord_window {index : Nat} (inWindow : index < windowTables) :
    ∀ layout : BootLayout, layout.directoryWord (pdx kernelBase + index) =
      constructEntry (toPhysicalAddress (layout.windowTable index))
        (permPresent ||| permWriteable) := by
  intro layout
  have base : pdx kernelBase = 960 := by decide
  have first : ¬ 960 + index = pdx vpt := by
    rw [show pdx vpt = 959 by decide]
    omega
  have second : ¬ 960 + index = pdx uvpt := by
    rw [show pdx uvpt = 957 by decide]
    omega
  have third : ¬ 960 + index = pdx (kernelStackTop - kernelStackSize) := by
    rw [show pdx (kernelStackTop - kernelStackSize) = 958 by decide]
    omega
  have fourth : ¬ 960 + index = pdx uenvs := by
    rw [show pdx uenvs = 955 by decide]
    omega
  have last : 960 ≤ 960 + index ∧ 960 + index < 1024 := by
    simp only [windowTables] at inWindow
    omega
  rw [base, BootLayout.directoryWord, if_neg first, if_neg second, if_neg third, if_neg fourth, base,
    if_pos last, Nat.add_sub_cancel_left]

/-- The word the window's page table has for a frame. -/
theorem BootLayout.bootMem_window (valid : layout.Valid) {table index : Nat}
    (inWindow : table < windowTables) :
    layout.bootMem ram (layout.windowTable table) index =
      constructEntry (toPhysicalAddress (table * 1024 + index)) (permWriteable ||| permPresent) := by
  obtain ⟨notDirectory, notStack, notEnvs⟩ := valid.distinct.2.2.2 table inWindow
  have found : (List.range windowTables).find? (fun i => layout.windowTable i = layout.windowTable table)
      = some table := by
    cases search : (List.range windowTables).find?
        (fun i => layout.windowTable i = layout.windowTable table) with
    | none =>
        have := List.find?_eq_none.1 search table (List.mem_range.2 inWindow)
        simp at this
    | some other =>
        have same : layout.windowTable other = layout.windowTable table := by
          simpa using List.find?_some search
        have low := List.mem_range.1 (List.mem_of_find?_eq_some search)
        exact congrArg some (valid.windowDistinct other low table inWindow same)
  rw [BootLayout.bootMem, BootLayout.bootWord, if_neg notDirectory, if_neg fun both => notStack both.1,
    if_neg fun both => notEnvs both.1]
  simp only [found, Option.getD_some]

/-- A frame is found at its kernel address in every directory. -/
theorem wp_getFrameInfo_window (valid : layout.Valid) (inv : Inv layout ram state)
    (live : state.root .user slot ≠ 0) {frame : Nat} (managed : layout.Managed frame)
    {post : Option Nat × Option Nat → KernelState → Prop} {fail : Stop → KernelState → Prop} :
    wp (getFrameInfo (state.root .user slot) (kernelBase + toPhysicalAddress frame)) post fail state ↔
      post (some frame, some (layout.windowTable (frame / 1024))) state := by
  have bounds := managed.pos valid
  have frames := valid.frames
  have inWindow : frame / 1024 < windowTables := by
    simp only [windowTables]
    omega
  have page : pageOf (kernelBase + toPhysicalAddress frame) = 960 * 1024 + frame := by
    rw [toPhysicalAddress_eq]
    simp only [pageOf, kernelBase, pageSize]
    omega
  have base : pdx kernelBase = 960 := by decide
  have directoryIndex : pdx (kernelBase + toPhysicalAddress frame) = pdx kernelBase + frame / 1024 := by
    rw [pdx_eq, page, base]
    simp only [windowTables] at inWindow
    omega
  have tableIndex : ptx (kernelBase + toPhysicalAddress frame) = frame % 1024 := by
    rw [ptx_eq, page]
    omega
  have upper : state.mem (state.root .user slot) (pdx kernelBase + frame / 1024) =
      constructEntry (toPhysicalAddress (layout.windowTable (frame / 1024)))
        (permPresent ||| permWriteable) := by
    rw [inv.upper .user slot _ live (by rw [base, userTables_eq]; omega)
      (by rw [base]; simp only [windowTables] at inWindow; omega)]
    have notVpt : ¬ 960 + frame / 1024 = pdx vpt := by
      rw [show pdx vpt = 959 by decide]
      omega
    have notUvpt : ¬ 960 + frame / 1024 = pdx uvpt := by
      rw [show pdx uvpt = 957 by decide]
      omega
    rw [← BootLayout.directoryWord_window inWindow, base]
    simp only [BootLayout.upperWord, if_neg notVpt, if_neg notUvpt]
  have window := valid.window (frame / 1024) inWindow
  have entry : state.mem (layout.windowTable (frame / 1024)) (frame % 1024) =
      constructEntry (toPhysicalAddress frame) (permWriteable ||| permPresent) := by
    rw [inv.kernel _ (BootLayout.not_managed window.1 window.2),
      BootLayout.bootMem_window valid inWindow]
    congr 2
    omega
  have nonzero : constructEntry (toPhysicalAddress frame) (permWriteable ||| permPresent) ≠ 0 :=
    constructEntry_ne_zero _ (by decide) (by decide)
  have tableFrame : frameOf (extractAddress (constructEntry
      (toPhysicalAddress (layout.windowTable (frame / 1024))) (permPresent ||| permWriteable))) =
      layout.windowTable (frame / 1024) := by
    rw [frameOf_extractAddress, frameOf_constructEntry _ (by decide)]
  have isPresent : hasPerm (constructEntry (toPhysicalAddress (layout.windowTable (frame / 1024)))
      (permPresent ||| permWriteable)) permPresent = true := by
    rw [hasPerm_present, testBit_constructEntry _ (by decide)]
    decide
  have frameBound : frameOf (extractAddress (constructEntry (toPhysicalAddress frame)
      (permWriteable ||| permPresent))) < state.numberOfFrames := by
    rw [frameOf_extractAddress, frameOf_constructEntry _ (by decide), inv.size]
    exact bounds.2
  simp only [getFrameInfo, getPageTable, wp_bind, wp_get, directoryIndex, upper]
  rw [wp_staticKernelVirtualAddress (by rw [tableFrame, inv.size]; omega)]
  simp only [isPresent, if_true, wp_pure, tableFrame, wp_bind, wp_get, tableIndex, entry, ne_eq,
    nonzero, not_false_eq_true]
  rw [wp_toFrameInfo frameBound, frameOf_extractAddress, frameOf_constructEntry _ (by decide)]

/-! ### Steps that keep the page tables -/

/-- What is free stays free, with its contents. -/
structure FreeKept (state next : KernelState) : Prop where
  member : ∀ frame ∈ state.freeFrameList, frame ∈ next.freeFrameList
  mem : ∀ frame ∈ state.freeFrameList, next.mem frame = state.mem frame

/-- The environment keeps its page tables, and what is free is kept. -/
structure TablesKept (slot : Nat) (state next : KernelState) : Prop extends FreeKept state next where
  words : ∀ index, next.dirWord .user slot index = state.dirWord .user slot index

namespace FreeKept

theorem refl (state : KernelState) : FreeKept state state := ⟨fun _ => id, fun _ _ => rfl⟩

theorem trans {last : KernelState} (first : FreeKept state next) (second : FreeKept next last) : FreeKept state last where
  member frame free := second.member frame (first.member frame free)
  mem frame free := (second.mem frame (first.member frame free)).trans (first.mem frame free)

end FreeKept

namespace TablesKept

theorem refl (slot : Nat) (state : KernelState) : TablesKept slot state state where
  toFreeKept := .refl state
  words _ := rfl

theorem trans {last : KernelState} (first : TablesKept slot state next) (second : TablesKept slot next last) :
    TablesKept slot state last where
  toFreeKept := first.toFreeKept.trans second.toFreeKept
  words index := (second.words index).trans (first.words index)

/-- A write in a page table. -/
theorem writesLeaf {written : KernelState} {page word : Nat} (ledger : Ledger layout state)
    (writes : WritesLeaf .user slot page word state written) (mem : next.mem = written.mem) (envs : next.envs = written.envs)
    (grows : state.freeFrameList <:+ next.freeFrameList) : TablesKept slot state next where
  member _ free := grows.subset free
  mem frame free := by
    have notTable : frame ≠ frameOf (state.dirWord .user slot (page / 1024)) := fun same =>
      ledger.exclusive.apart _ _ (KernelState.names_table writes.present) (same ▸ free)
    rw [mem]
    exact writes.mem frame notTable
  words index := by
    rw [← writes.dirWord ledger .user slot index]
    exact dirWord_congr (by simp only [KernelState.root, envs]) fun _ => by rw [mem]

end TablesKept

theorem unmapFrame_tables (valid : layout.Valid) (inv : Inv layout ram state) (live : state.root .user slot ≠ 0)
    (low : address < userTop) {fail : Stop → KernelState → Prop} :
    wp (unmapFrame (state.root .user slot) address) (fun _ next => TablesKept slot state next) fail state := by
  simp only [unmapFrame, wp_bind, wp_getFrameInfo valid inv live low]
  cases Nat.decEq (state.leaf .user slot (pageOf address)) 0 with
  | isTrue unmapped =>
      simp only [KernelState.frameAt, if_pos unmapped, wp_pure]
      exact .refl slot state
  | isFalse mapped =>
      have present := KernelState.dirWord_ne_zero_of_leaf mapped
      have once := inv.references _ _ (KernelState.names_page mapped)
      simp only [KernelState.frameAt, KernelState.tableAt, if_neg mapped, if_neg present, wp_bind,
        wp_decrementReferences once, wp_modify, ptx_eq]
      exact .writesLeaf inv.toLedger (writesLeaf_writeWord present 0) rfl rfl (List.suffix_cons ..)

theorem ptSetPagePermissions_tables (valid : layout.Valid) (inv : Inv layout ram state) (low : address < userTop)
    (mapped : state.leaf .user slot (pageOf address) ≠ 0) (set clear : Nat) {fail : Stop → KernelState → Prop} :
    wp (ptSetPagePermissions slot address set clear) (fun _ next => TablesKept slot state next) fail state := by
  have present := KernelState.dirWord_ne_zero_of_leaf mapped
  simp only [ptSetPagePermissions, wp_bind, wp_get, root_eq, wp_pageTableForFlags valid inv low present, wp_modify]
  rw [ptx_eq]
  exact .writesLeaf inv.toLedger (writesLeaf_writeWord present _) rfl rfl List.suffix_rfl

/-- The rule for list operations, which keep the page tables. -/
theorem Stepped.wp_relist (before : Stepped layout ram slot start state env space) {change : Env → Env}
    (elements : Nat → WorkingSetElement) (unused active second : List Nat)
    (changes : change env = env.withLists elements unused active second)
    {post : Unit → KernelState → Prop} {fail : Stop → KernelState → Prop}
    (continues : ∀ next, Stepped layout ram slot start next (env.withLists elements unused active second) space →
      TablesKept slot state next → post () next) : wp (modifyEnv slot change) post fail state := by
  rw [wp_modifyEnv, before.env, changes]
  apply continues _ (before.withLists elements unused active second)
  obtain ⟨-, -, dirs⟩ := before.running.inv.setEnv [] ((state.envs slot).withLists elements unused active second) rfl rfl
    rfl rfl
  rw [before.env] at dirs
  exact { toFreeKept := ⟨fun _ => id, fun _ _ => rfl⟩, words := fun index => dirs .user slot index }

/-! ### Page tables -/

theorem countZeroEntries_eq {page : Page} (full : countZeroEntries page = 1024) :
    ∀ index < 1024, page index = 0 := by
  have all := List.countP_eq_length.1 (full.trans List.length_range.symm)
  intro index low
  exact beq_iff_eq.1 (all index (List.mem_range.2 low))

theorem exists_nonzero_entry {page : Page} (partly : countZeroEntries page ≠ 1024) : ∃ index < 1024, page index ≠ 0 := by
  apply Decidable.of_not_not
  intro none
  have all : ∀ index ∈ List.range 1024, (page index == 0) = true := by
    intro index member
    apply beq_iff_eq.2
    exact Decidable.of_not_not fun nonzero => none ⟨index, List.mem_range.1 member, nonzero⟩
  exact partly ((List.countP_eq_length.2 all).trans List.length_range)

/-- What becomes of a page table when a page of it has left: it stays as long as it has an entry, and is given back
without one. -/
inductive TableLeft (slot index : Nat) (state next : KernelState) : Prop where
  | kept (words : ∀ other, next.dirWord .user slot other = state.dirWord .user slot other)
      (mapped : ∃ page, page / 1024 = index ∧ next.leaf .user slot page ≠ 0) : TableLeft slot index state next
  | freed (others : ∀ other, other ≠ index → next.dirWord .user slot other = state.dirWord .user slot other)
      (cleared : next.dirWord .user slot index = 0)
      (free : frameOf (state.dirWord .user slot index) ∈ next.freeFrameList)
      (zero : ∀ place < 1024, next.mem (frameOf (state.dirWord .user slot index)) place = 0) : TableLeft slot index state next

/-- A page table that has no entry left goes back to the free list. -/
theorem freeMemTable_spec (valid : layout.Valid) (running : Running layout ram slot state)
    (low : address < userTop) (present : state.dirWord .user slot (pageOf address / 1024) ≠ 0)
    {fail : Stop → KernelState → Prop} :
    wp (freeMemTable slot address) (fun _ next =>
      SpaceBecomes layout ram slot [] state [] next (state.space slot) ∧ Keeps slot [] state [] next ∧
        next.envs slot = state.envs slot ∧ state.freeFrameList <:+ next.freeFrameList ∧
        TableLeft slot (pageOf address / 1024) state next ∧ FreeKept state next)
      fail state := by
  have inv := running.inv
  have live := running.live
  have managed := inv.managed _ _ (KernelState.names_table present)
  rw [freeMemTable, wp_bind, wp_get, wp_bind, root_eq, wp_getPageTable valid inv live low]
  simp only [KernelState.tableAt, if_neg present, wp_bind, wp_get]
  rw [wp_getFrameInfo_window valid inv live managed]
  generalize counted : countZeroEntries
    (state.mem (frameOf (state.dirWord .user slot (pageOf address / 1024)))) = counter
  by_cases full : counter = 1024
  · simp only [if_pos full]
    have empty (page : Nat) (inTable : page / 1024 = pageOf address / 1024) :
        state.leaf .user slot page = 0 := by
      have there : state.dirWord .user slot (page / 1024) ≠ 0 := inTable.symm ▸ present
      rw [KernelState.leaf_eq_mem there, inTable]
      exact countZeroEntries_eq (counted.trans full) _ (Nat.mod_lt _ (by decide))
    obtain ⟨detached, keepsDetached⟩ := inv.detach_empty valid .user slot [] present empty
    obtain ⟨-, -, fresh, -, dirs, -⟩ := inv.detach valid .user slot [] present
    obtain ⟨put, keepsPut⟩ := detached.inv.put slot [] fresh managed 0
    rw [detached.space] at put
    simp only [freeFrame, pdClearPageDirEntry, wp_bind, wp_modify, pdx_user low]
    have notRoot {frame : Nat} (other : frame ≠ state.root .user slot) :
        (state.writeWord (state.root .user slot) (pageOf address / 1024) 0).mem frame = state.mem frame := by
      funext place
      rw [KernelState.writeWord_mem, if_neg fun here => other here.1]
    refine ⟨⟨put.inv, detached.acts.trans put.acts, put.space⟩, keepsDetached.trans keepsPut, rfl, List.suffix_cons _ _,
      .freed ?_ ?_ (List.mem_cons_self ..) ?_, fun frame free => List.mem_cons_of_mem _ free, ?_⟩
    · exact fun other different => (dirs .user slot other).trans (if_neg fun here => different here.2.2)
    · exact (dirs .user slot _).trans (if_pos ⟨rfl, rfl, rfl⟩)
    · intro place low
      have zero := countZeroEntries_eq (counted.trans full) place low
      exact (congrFun (notRoot (root_ne_table inv.toLedger present .user slot live).symm) place).trans zero
    · exact fun frame free => notRoot fun same =>
        inv.exclusive.apart _ _ (KernelState.names_root live) (same ▸ free)
  · simp only [if_neg full, wp_pure]
    obtain ⟨place, inTable, nonzero⟩ := exists_nonzero_entry (counted ▸ full)
    have number : (pageOf address / 1024 * 1024 + place) / 1024 = pageOf address / 1024 := by omega
    have entry : (pageOf address / 1024 * 1024 + place) % 1024 = place := by omega
    refine ⟨.refl inv slot [], .refl slot [] state, trivial, List.suffix_rfl, .kept (fun _ => rfl) ⟨_, number, ?_⟩, .refl state⟩
    rw [KernelState.leaf_eq_mem (number.symm ▸ present), number, entry]
    exact nonzero

/-! ### One element -/

theorem Stepped.wp_ptSetPagePermissions (valid : layout.Valid)
    (before : Stepped layout ram slot start state env space) {set clear : Nat}
    (low : address < userTop) (mapped : space.entry (pageOf address) ≠ 0)
    (some : changePerm (space.entry (pageOf address)) set clear ≠ 0)
    (setLow : set < pageSize) (clearLow : clear < pageSize)
    {post : Unit → KernelState → Prop} {fail : Stop → KernelState → Prop}
    (continues : ∀ next, Stepped layout ram slot start next env
      (space.setEntry (pageOf address) (changePerm (space.entry (pageOf address)) set clear)) →
      TablesKept slot state next → post () next) :
    wp (ptSetPagePermissions slot address set clear) post fail state := by
  have leaf := congrFun before.leaf (pageOf address)
  rw [← leaf] at mapped some
  refine wp_mono (wp_and (ptSetPagePermissions_spec valid before.running.inv low mapped setLow clearLow some)
    (ptSetPagePermissions_tables valid before.running.inv low mapped set clear)) (fun _ next changed => ?_)
    fun _ _ never => never
  obtain ⟨⟨becomes, keeps, calm, free⟩, kept⟩ := changed
  rw [leaf, before.becomes.space] at becomes
  exact continues next (before.step becomes keeps calm.toStable (free ▸ List.suffix_rfl)) kept

/-- The page of an element leaves memory. -/
theorem freeMemElement_spec (valid : layout.Valid) (running : Running layout ram slot state)
    (low : address < userTop) (mapped : state.leaf .user slot (pageOf address) ≠ 0)
    {fail : Stop → KernelState → Prop} :
    wp (freeMemElement slot address element) (fun _ next =>
      Stepped layout ram slot state next ((state.envs slot).withLists
          ((state.envs slot).setEmpty element) (element :: (state.envs slot).pageWorkingSetList)
          (state.envs slot).activeList (state.envs slot).secondList)
          ((state.space slot).unmap (pageOf address)) ∧
        (∀ frame, state.frameAt slot (pageOf address) = some frame → frame ∈ next.freeFrameList) ∧
        TablesKept slot state next)
      fail state := by
  have present := KernelState.dirWord_ne_zero_of_leaf mapped
  simp only [freeMemElement, wp_bind, wp_get, root_eq]
  refine wp_mono (wp_and (unmapFrame_spec valid running.inv running.live low)
    (unmapFrame_tables valid running.inv running.live low)) (fun _ unmapped outcome => ?_) fun _ _ never => never
  obtain ⟨⟨becomes, keeps, calm, free⟩, kept⟩ := outcome
  have stepUnmap := (Stepped.refl running).step becomes keeps calm.toStable
    (free ▸ List.suffix_append _ _)
  have same := calm.placed running.placed
  refine (Stepped.refl stepUnmap.running).wp_relist ((state.envs slot).setEmpty element)
    (state.envs slot).pageWorkingSetList (state.envs slot).activeList (state.envs slot).secondList
    (by rw [same]; rfl) fun emptied stepEmpty keptEmpty => ?_
  refine (wp_ptClearPageTableEntry valid stepEmpty.running.inv low
    (stepEmpty.tables _ _ (stepUnmap.tables _ _ present)) ?_).2 ?_
  · rw [stepEmpty.leaf, becomes.space]
    simp [Space.unmap, Space.map]
  refine stepEmpty.wp_relist ((state.envs slot).setEmpty element)
    (element :: (state.envs slot).pageWorkingSetList) (state.envs slot).activeList
    (state.envs slot).secondList rfl fun next stepNext keptNext => ?_
  have step := stepUnmap.trans stepNext
  rw [becomes.space, same] at step
  refine ⟨step, fun frame found => stepNext.grows.subset ?_, (kept.trans keptEmpty).trans keptNext⟩
  rw [free, KernelState.freed, found]
  exact List.mem_cons_self ..

/-! ### One page -/

/-- A page table has been given back, empty, when a listed page of it left. -/
structure GivenBack (slot : Nat) (addresses : List Nat) (index : Nat) (state next : KernelState) : Prop where
  cleared : next.dirWord .user slot index = 0
  listed : ∃ address ∈ addresses, address ∈ (state.envs slot).recency ∧ pageOf address / 1024 = index
  free : frameOf (state.dirWord .user slot index) ∈ next.freeFrameList
  zero : ∀ place < 1024, next.mem (frameOf (state.dirWord .user slot index)) place = 0

/-- Pages left memory and the lists, those of them that were in a list. -/
structure Released (layout : BootLayout) (ram : Nat → Page) (strict tidy : Prop) (slot : Nat)
    (addresses : List Nat) (state next : KernelState) : Prop where
  acts : Acts slot [] state [] next
  keeps : Keeps slot [] state [] next
  running : Running layout ram slot next
  healthy : Healthy strict tidy slot next
  lists : ∃ elements unused active second,
    next.envs slot = (state.envs slot).withLists elements unused active second
  recency : (next.envs slot).recency = (state.envs slot).recency.filter (· ∉ addresses)
  frames : ∀ page, next.frameAt slot page =
    if page * pageSize ∈ addresses ∧ page * pageSize ∈ (state.envs slot).recency then none
    else state.frameAt slot page
  disk : next.leaf .disk slot = state.leaf .disk slot
  moves : (∀ address ∈ addresses, address ∈ (state.envs slot).recency →
    state.leaf .disk slot (pageOf address) = 0) → Space.Moves (state.space slot) (next.space slot)
  grows : state.freeFrameList <:+ next.freeFrameList
  freed : ∀ address ∈ addresses, address ∈ (state.envs slot).recency →
    ∀ frame, state.frameAt slot (pageOf address) = some frame → frame ∈ next.freeFrameList
  tables : ∀ index, next.dirWord .user slot index = state.dirWord .user slot index ∨
    GivenBack slot addresses index state next
  emptied : ∀ address ∈ addresses, address ∈ (state.envs slot).recency →
    next.dirWord .user slot (pageOf address / 1024) ≠ 0 →
    ∃ page, page / 1024 = pageOf address / 1024 ∧ next.leaf .user slot page ≠ 0
  freeKept : FreeKept state next

/-- A page that is in no list stays as it is. -/
theorem Released.unlisted (running : Running layout ram slot state)
    (healthy : Healthy strict tidy slot state) (unlisted : address ∉ (state.envs slot).recency) :
    Released layout ram strict tidy slot [address] state state where
  acts := .refl slot [] state
  keeps := .refl slot [] state
  running := running
  healthy := healthy
  lists := ⟨_, _, _, _, rfl⟩
  recency := by
    refine (List.filter_eq_self.2 fun other member => ?_).symm
    have different : other ≠ address := fun same => unlisted (same ▸ member)
    simp [different]
  frames page := by
    refine (if_neg ?_).symm
    rintro ⟨same, member⟩
    exact unlisted (List.mem_singleton.1 same ▸ member)
  disk := rfl
  moves _ := .refl
  grows := List.suffix_rfl
  freed other same member := absurd (List.mem_singleton.1 same ▸ member) unlisted
  tables _ := .inl rfl
  emptied other same member := absurd (List.mem_singleton.1 same ▸ member) unlisted
  freeKept := .refl state

/-- The page of a range is in no list afterwards. -/
theorem Released.gone (released : Released layout ram strict tidy slot [address] state next) :
    address ∉ (next.envs slot).recency := by
  rw [released.recency]
  simp

theorem Released.trans {first second : List Nat} {last : KernelState}
    (before : Released layout ram strict tidy slot first state next)
    (after : Released layout ram strict tidy slot second next last) :
    Released layout ram strict tidy slot (first ++ second) state last := by
  have pages := before.recency
  have mem_iff (address : Nat) : address ∈ (next.envs slot).recency ↔
      address ∈ (state.envs slot).recency ∧ address ∉ first := by
    rw [pages, List.mem_filter]
    simp
  refine ⟨before.acts.trans after.acts, before.keeps.trans after.keeps, after.running, after.healthy,
    ?_, ?_, fun page => ?_, after.disk.trans before.disk, fun unplaced => ?_,
    before.grows.trans after.grows, fun address member listed frame found => ?_, fun index => ?_,
    fun address member listed present => ?_, before.freeKept.trans after.freeKept⟩
  · obtain ⟨elements, unused, active, second, env⟩ := before.lists
    obtain ⟨elements', unused', active', second', env'⟩ := after.lists
    refine ⟨elements', unused', active', second', ?_⟩
    rw [env', env]
    rfl
  · rw [after.recency, pages, List.filter_filter]
    refine List.filter_congr fun address _ => ?_
    simp only [List.mem_append, not_or]
    by_cases inFirst : address ∈ first <;> by_cases inSecond : address ∈ second <;>
      simp [inFirst, inSecond]
  · rw [after.frames, before.frames]
    simp only [mem_iff, List.mem_append]
    by_cases listed : page * pageSize ∈ (state.envs slot).recency <;>
      by_cases inFirst : page * pageSize ∈ first <;> simp [listed, inFirst]
  · refine (before.moves fun address member listed => unplaced address
      (List.mem_append_left _ member) listed).trans (after.moves fun address member listed => ?_)
    rw [before.disk]
    exact unplaced address (List.mem_append_right _ member) ((mem_iff address).1 listed).1
  · by_cases inFirst : address ∈ first
    · exact after.grows.subset (before.freed address inFirst listed frame found)
    · have inSecond := (List.mem_append.1 member).resolve_left inFirst
      have stillListed := (mem_iff address).2 ⟨listed, inFirst⟩
      have page := pageOf_mul_pageSize (before.healthy.lists.pages address stillListed)
      refine after.freed address inSecond stillListed frame ?_
      rw [before.frames, page, if_neg fun both => inFirst both.1, found]
  · cases before.tables index with
    | inl same =>
        cases after.tables index with
        | inl still => exact .inl (still.trans same)
        | inr given =>
            obtain ⟨address, member, listed, inTable⟩ := given.listed
            exact .inr ⟨given.cleared, ⟨address, List.mem_append_right _ member, ((mem_iff address).1 listed).1, inTable⟩,
              same ▸ given.free, same ▸ given.zero⟩
    | inr given =>
        obtain ⟨address, member, listed, inTable⟩ := given.listed
        refine .inr ⟨?_, ⟨address, List.mem_append_left _ member, listed, inTable⟩,
          after.grows.subset given.free, fun place low => ?_⟩
        · cases after.tables index with
          | inl still => exact still.trans given.cleared
          | inr again => exact again.cleared
        · rw [after.freeKept.mem _ given.free]
          exact given.zero place low
  · cases Classical.em (address ∈ first) with
    | inr notFirst =>
        exact after.emptied address ((List.mem_append.1 member).resolve_left notFirst) ((mem_iff address).2 ⟨listed, notFirst⟩)
          present
    | inl inFirst =>
        have stood : next.dirWord .user slot (pageOf address / 1024) ≠ 0 := by
          cases after.tables (pageOf address / 1024) with
          | inl still => exact still ▸ present
          | inr given => exact absurd given.cleared present
        obtain ⟨page, inTable, mapped⟩ := before.emptied address inFirst listed stood
        cases Nat.decEq (last.leaf .user slot page) 0 with
        | isFalse still => exact ⟨page, inTable, still⟩
        | isTrue gone =>
            have frames := after.frames page
            simp only [KernelState.frameAt, if_pos gone, if_neg mapped] at frames
            split at frames
            · next left =>
                have number : pageOf (page * pageSize) = page := pageOf_mul page
                have again := after.emptied (page * pageSize) left.1 left.2
                rw [number, inTable] at again
                exact again present
            · cases frames

/-- The frame an entry names. -/
private def frameIn (entry : Nat) : Option Nat := if entry = 0 then none else some (frameOf entry)

private theorem frameIn_unmap (space : Space) (page number : Nat) :
    frameIn ((space.unmap page).entry number) =
      if number = page then none else frameIn (space.entry number) := by
  simp only [Space.unmap, Space.map, Function.update_apply]
  split
  · rfl
  · rfl

/-- Flags do not change the frame. -/
private theorem frameIn_setEntry {page set : Nat} (word : space.entry page < wordSize)
    (owned : Owned (space.entry page)) (low : set < pageSize) (number : Nat) :
    frameIn ((space.setEntry page (changePerm (space.entry page) set 0)).entry number) =
      frameIn (space.entry number) := by
  simp only [Space.setEntry, Function.update_apply]
  split
  · next same =>
      have changed : changePerm (space.entry page) set 0 ≠ 0 :=
        (owned_changePerm owned (by decide) (by decide) (by decide)).ne_zero
      rw [same, frameIn, if_neg changed, frameIn, if_neg owned.ne_zero,
        frameOf_changePerm word low (by decide)]
  · rfl

/-- What is left when the page has left the lists and memory: its page table. -/
theorem released_of_table (valid : layout.Valid) {elements : Nat → WorkingSetElement}
    {unused active second : List Nat} (page : Env.UserPage address)
    (listed : address ∈ (state.envs slot).recency)
    (step : Stepped layout ram slot state next
      ((state.envs slot).withLists elements unused active second) space)
    (lists : ((state.envs slot).withLists elements unused active second).LruLists ∧
      ((state.envs slot).withLists elements unused active second).recency =
        (state.envs slot).recency.erase address)
    (distinct : (state.envs slot).recency.Nodup)
    (resident : Resident strict tidy space.entry
      ((state.envs slot).withLists elements unused active second).activePages
      ((state.envs slot).withLists elements unused active second).secondPages)
    (frames : ∀ number, frameIn (space.entry number) =
      if number = pageOf address then none else frameIn (state.leaf .user slot number))
    (places : space.diskFrame = state.leaf .disk slot)
    (moves : state.leaf .disk slot (pageOf address) = 0 → Space.Moves (state.space slot) space)
    (freed : ∀ frame, state.frameAt slot (pageOf address) = some frame → frame ∈ next.freeFrameList)
    (present : next.dirWord .user slot (pageOf address / 1024) ≠ 0) (kept : TablesKept slot state next)
    {fail : Stop → KernelState → Prop} :
    wp (freeMemTable slot address) (fun _ last =>
      Released layout ram strict tidy slot [address] state last ∧
        last.envs slot = (state.envs slot).withLists elements unused active second) fail next := by
  refine wp_mono (freeMemTable_spec valid step.running page.2 present) (fun _ last outcome => ?_)
    fun _ _ never => never
  obtain ⟨becomes, keeps, same, grows, table, free⟩ := outcome
  have env := same.trans step.env
  have spaceEq : last.space slot = space := becomes.space.trans step.becomes.space
  have leaf : last.leaf .user slot = space.entry := congrArg Space.entry spaceEq
  have running : Running layout ram slot last :=
    step.running.becomes becomes (by simp only [KernelState.root, same]) (by rw [same])
  refine ⟨⟨step.becomes.acts.trans becomes.acts, step.keeps.trans keeps, running,
    ⟨running.live, running.placed, env ▸ lists.1, ?_⟩, ⟨_, _, _, _, env⟩, ?_, fun number => ?_, ?_,
    fun unplaced => ?_, step.grows.trans grows, ?_, fun index => ?_, ?_, kept.toFreeKept.trans free⟩, env⟩
  · rw [leaf, env]
    exact resident
  · rw [env, lists.2, distinct.erase_eq_filter]
    refine List.filter_congr fun other _ => ?_
    by_cases equal : other = address <;> simp [equal]
  · have number_iff : (number * pageSize ∈ [address] ∧ number * pageSize ∈ (state.envs slot).recency) ↔
        number = pageOf address := by
      rw [List.mem_singleton]
      constructor
      · rintro ⟨equal, -⟩
        rw [← equal, pageOf_mul]
      · rintro rfl
        rw [pageOf_mul_pageSize page]
        exact ⟨rfl, listed⟩
    have found := frames number
    rw [← leaf] at found
    simp only [number_iff]
    exact found
  · exact (congrArg Space.diskFrame spaceEq).trans places
  · rw [spaceEq]
    exact moves (unplaced address (List.mem_singleton_self _) listed)
  · intro other member _ frame found
    obtain rfl := List.mem_singleton.1 member
    exact grows.subset (freed frame found)
  · cases table with
    | kept words _ => exact .inl ((words index).trans (kept.words index))
    | freed others cleared free zero =>
        cases Nat.decEq index (pageOf address / 1024) with
        | isFalse different => exact .inl ((others index different).trans (kept.words index))
        | isTrue here =>
            subst here
            rw [kept.words] at free zero
            exact .inr ⟨cleared, ⟨address, List.mem_singleton_self _, listed, rfl⟩, free, zero⟩
  · intro other member _ stands
    obtain rfl := List.mem_singleton.1 member
    cases table with
    | kept _ mapped => exact mapped
    | freed _ cleared _ _ => exact absurd cleared stands

/-- The element is out of its list and unused, and its page has left memory. -/
structure Emptied (layout : BootLayout) (ram : Nat → Page) (slot element address : Nat) (active second : List Nat)
    (state next : KernelState) : Prop where
  step : Stepped layout ram slot state next ((state.envs slot).withLists ((state.envs slot).setEmpty element)
    (element :: (state.envs slot).pageWorkingSetList) active second) ((state.space slot).unmap (pageOf address))
  freed : ∀ frame, state.frameAt slot (pageOf address) = some frame → frame ∈ next.freeFrameList
  kept : TablesKept slot state next

theorem wp_emptied (valid : layout.Valid) (running : Running layout ram slot state) (low : address < userTop)
    (mapped : state.leaf .user slot (pageOf address) ≠ 0) {change : Env → Env} {active second : List Nat}
    (changes : change (state.envs slot) = (state.envs slot).withLists (state.envs slot).ptrPageWorkingSet
      (state.envs slot).pageWorkingSetList active second)
    {rest : KernelM Unit} {post : Unit → KernelState → Prop} {fail : Stop → KernelState → Prop}
    (continues : ∀ next, Emptied layout ram slot element address active second state next → wp rest post fail next) :
    wp (do
      modifyEnv slot change
      freeMemElement slot address element
      rest) post fail state := by
  rw [wp_bind]
  refine (Stepped.refl running).wp_relist _ _ _ _ changes fun shorter stepShorten keptShorten => ?_
  have leafShorten : shorter.leaf .user slot = state.leaf .user slot := stepShorten.leaf
  rw [wp_bind]
  refine wp_mono (freeMemElement_spec valid stepShorten.running low (by rw [leafShorten]; exact mapped))
    (fun _ emptied outcome => ?_) fun _ _ never => never
  obtain ⟨stepEmpty, freed, keptEmpty⟩ := outcome
  refine continues emptied ⟨?_, fun frame found => freed frame ?_, keptShorten.trans keptEmpty⟩
  · have both := stepShorten.trans stepEmpty
    rw [stepShorten.env, stepShorten.becomes.space] at both
    exact both
  · rw [KernelState.frameAt, leafShorten]
    exact found

/-- The head of `SecondList` goes to the end of `ActiveList`, and its page is shown. -/
theorem Stepped.wp_refillActiveList (valid : layout.Valid) (before : Stepped layout ram slot start state env space)
    {head promoted : Nat} {rest : List Nat} (second : env.secondList = head :: rest)
    (isHead : (env.ptrPageWorkingSet head).virtualAddress = promoted) (low : promoted < userTop)
    (mapped : space.entry (pageOf promoted) ≠ 0)
    (shown : changePerm (space.entry (pageOf promoted)) (permPresent ||| permWriteable ||| permUser) 0 ≠ 0)
    {post : Unit → KernelState → Prop} {fail : Stop → KernelState → Prop}
    (continues : ∀ next, Stepped layout ram slot start next (env.withLists env.ptrPageWorkingSet env.pageWorkingSetList
        (env.activeList ++ [head]) rest) (space.setEntry (pageOf promoted)
        (changePerm (space.entry (pageOf promoted)) (permPresent ||| permWriteable ||| permUser) 0)) →
      TablesKept slot state next → post () next) : wp (refillActiveList slot) post fail state := by
  simp only [refillActiveList, wp_bind, wp_get, before.env, second]
  refine before.wp_relist env.ptrPageWorkingSet env.pageWorkingSetList env.activeList rest rfl
    fun dropped stepDrop keptDrop => ?_
  simp only [stepDrop.env, Env.withLists, isHead]
  refine stepDrop.wp_ptSetPagePermissions valid low mapped shown (by decide) (by decide) fun showed stepShow keptShow => ?_
  exact stepShow.wp_relist env.ptrPageWorkingSet env.pageWorkingSetList (env.activeList ++ [head]) rest rfl
    fun filled stepFill keptFill => continues filled stepFill ((keptDrop.trans keptShow).trans keptFill)

/-- The pages when an element of `ActiveList` is out. -/
theorem Healthy.resident_of_active (healthy : Healthy strict tidy slot state) {before after : List Nat}
    (found : (state.envs slot).activeList = before ++ element :: after)
    (same : ((state.envs slot).ptrPageWorkingSet element).virtualAddress = address) :
    address ∈ (state.envs slot).activePages ∧
      Resident strict tidy (Function.update (state.leaf .user slot) (pageOf address) 0)
        ((state.envs slot).addresses (before ++ after)) (state.envs slot).secondPages := by
  have distinct := healthy.lists.distinct
  have activePages : (state.envs slot).activePages = (state.envs slot).addresses before ++
      address :: (state.envs slot).addresses after := by
    rw [Env.activePages, found, Env.addresses_append, Env.addresses_cons, same]
  have listed : address ∈ (state.envs slot).activePages := by
    rw [activePages]
    simp
  obtain ⟨notBefore, notSecond⟩ : address ∉ (state.envs slot).addresses before ∧
      address ∉ (state.envs slot).secondPages := by
    rw [Env.recency_eq, activePages] at distinct
    obtain ⟨active, -, apart⟩ := List.nodup_append.1 distinct
    exact ⟨fun member => (List.nodup_append.1 active).2.2 _ member _ (List.mem_cons_self ..) rfl,
      fun member => apart address (by simp) address member rfl⟩
  have removed := healthy.resident.remove (List.mem_append_left _ listed)
  rw [activePages, erase_middle notBefore, List.erase_of_not_mem notSecond, ← Env.addresses_append] at removed
  exact ⟨listed, removed⟩

/-- The pages when an element of `SecondList` is out. -/
theorem Healthy.resident_of_second (healthy : Healthy strict tidy slot state) {before after : List Nat}
    (found : (state.envs slot).secondList = before ++ element :: after)
    (same : ((state.envs slot).ptrPageWorkingSet element).virtualAddress = address) :
    address ∈ (state.envs slot).secondPages ∧
      Resident strict tidy (Function.update (state.leaf .user slot) (pageOf address) 0)
        (state.envs slot).activePages ((state.envs slot).addresses (before ++ after)) := by
  have distinct := healthy.lists.distinct
  have secondPages : (state.envs slot).secondPages = (state.envs slot).addresses before ++
      address :: (state.envs slot).addresses after := by
    rw [Env.secondPages, found, Env.addresses_append, Env.addresses_cons, same]
  have listed : address ∈ (state.envs slot).secondPages := by
    rw [secondPages]
    simp
  obtain ⟨notBefore, notActive⟩ : address ∉ (state.envs slot).addresses before ∧
      address ∉ (state.envs slot).activePages := by
    rw [Env.recency_eq, secondPages] at distinct
    obtain ⟨-, second, apart⟩ := List.nodup_append.1 distinct
    exact ⟨fun member => (List.nodup_append.1 second).2.2 _ member _ (List.mem_cons_self ..) rfl,
      fun member => apart address member address (by simp) rfl⟩
  have removed := healthy.resident.remove (List.mem_append_right _ listed)
  rw [secondPages, erase_middle notBefore, List.erase_of_not_mem notActive, ← Env.addresses_append] at removed
  exact ⟨listed, removed⟩

theorem freeMemActive_spec (valid : layout.Valid) (running : Running layout ram slot state)
    (healthy : Healthy strict tidy slot state) {before after : List Nat}
    (found : (state.envs slot).activeList = before ++ element :: after) (first : element ∉ before)
    (same : ((state.envs slot).ptrPageWorkingSet element).virtualAddress = address)
    {fail : Stop → KernelState → Prop} :
    wp (freeMemActive slot address element) (fun _ next =>
      Released layout ram strict tidy slot [address] state next ∧
        ∃ extra, (next.envs slot).activeList = before ++ (after ++ extra)) fail state := by
  have lists := healthy.lists
  have distinct := lists.distinct
  obtain ⟨listedActive, removed⟩ := healthy.resident_of_active found same
  have listed : address ∈ (state.envs slot).recency := by
    rw [Env.recency_eq]
    exact List.mem_append_left _ listedActive
  have page := lists.pages address listed
  have owned := healthy.resident.owned (List.mem_append_left _ listedActive)
  have present := KernelState.dirWord_ne_zero_of_leaf owned.ne_zero
  have evicts (unplaced : state.leaf .disk slot (pageOf address) = 0) :
      Space.Moves (state.space slot) ((state.space slot).unmap (pageOf address)) :=
    .single (.evict (.inr (.inr unplaced)))
  rw [freeMemActive, wp_bind, wp_get, if_pos same]
  refine wp_emptied valid running page.2 owned.ne_zero (by rw [found, erase_middle first]; rfl) fun emptied outcome => ?_
  rw [wp_bind]
  cases second : (state.envs slot).secondList with
  | nil =>
      have step := outcome.step
      rw [second] at step
      simp only [refillActiveList, wp_bind, wp_get, step.env, Env.withLists, wp_pure]
      have released := lists.releaseActive same found second
      rw [second] at released
      have residentNext : Resident strict tidy ((state.space slot).unmap (pageOf address)).entry
          ((state.envs slot).withLists ((state.envs slot).setEmpty element)
            (element :: (state.envs slot).pageWorkingSetList) (before ++ after) []).activePages
          ((state.envs slot).withLists ((state.envs slot).setEmpty element)
            (element :: (state.envs slot).pageWorkingSetList) (before ++ after) []).secondPages := by
        have noSecond : (state.envs slot).secondPages = [] := by rw [Env.secondPages, second]; rfl
        rw [noSecond] at removed
        rw [Env.activePages, Env.secondPages, Env.addresses_setEmpty, Env.addresses_setEmpty]
        exact removed
      refine wp_mono (released_of_table valid page listed step released distinct residentNext
        (frameIn_unmap _ _) rfl evicts outcome.freed (step.tables _ _ present) outcome.kept)
        (fun _ _ outcome => ⟨outcome.1, [], ?_⟩) fun _ _ never => never
      rw [outcome.2, List.append_nil]
      rfl
  | cons head rest =>
      generalize headEq : ((state.envs slot).ptrPageWorkingSet head).virtualAddress = promoted
      have secondPages : (state.envs slot).secondPages =
          promoted :: (state.envs slot).addresses rest := by
        rw [Env.secondPages, second, Env.addresses_cons, headEq]
      rw [secondPages] at removed
      have pagePromoted := removed.pages promoted (by simp)
      have ownedPromoted := removed.owned (show promoted ∈ _ ++ _ by simp)
      have promotion := (show Resident _ _ _ _ ([] ++ promoted :: (state.envs slot).addresses rest)
        from removed).promote (show (permPresent ||| permWriteable ||| permUser).testBit 0 = true by
          decide) (List.perm_append_singleton promoted _)
      have shown := promotion.owned (show promoted ∈ _ ++ _ by simp)
      rw [Function.update_self] at shown
      have emptiedLeaf := congrFun outcome.step.leaf (pageOf promoted)
      have promotedWord :
          ((state.space slot).unmap (pageOf address)).entry (pageOf promoted) < wordSize := by
        rw [← emptiedLeaf]
        exact leaf_lt valid outcome.step.running.inv (by rw [emptiedLeaf]; exact ownedPromoted.ne_zero)
      refine outcome.step.wp_refillActiveList valid second ((Env.setEmpty_address ..).trans headEq) pagePromoted.2
        ownedPromoted.ne_zero shown.ne_zero fun filled final keptFill => ?_
      have residentNext : Resident strict tidy (((state.space slot).unmap (pageOf address)).setEntry
          (pageOf promoted) (changePerm (((state.space slot).unmap (pageOf address)).entry
            (pageOf promoted)) (permPresent ||| permWriteable ||| permUser) 0)).entry
          ((state.envs slot).withLists ((state.envs slot).setEmpty element)
            (element :: (state.envs slot).pageWorkingSetList) (before ++ after ++ [head])
            rest).activePages
          ((state.envs slot).withLists ((state.envs slot).setEmpty element)
            (element :: (state.envs slot).pageWorkingSetList) (before ++ after ++ [head])
            rest).secondPages := by
        rw [Env.activePages, Env.secondPages, Env.addresses_setEmpty, Env.addresses_setEmpty]
        change Resident _ _ _ ((state.envs slot).addresses (before ++ after ++ [head])) _
        rw [Env.addresses_append, show (state.envs slot).addresses [head] = [promoted] by
          rw [← headEq]; rfl]
        exact promotion
      refine wp_mono (released_of_table valid page listed final
        (lists.releaseRefill same found second) distinct residentNext (fun number => ?_) rfl
        (fun unplaced => ?_) (fun frame there => keptFill.member frame (outcome.freed frame there))
        (final.tables _ _ present) (outcome.kept.trans keptFill))
        (fun _ _ outcome => ⟨outcome.1, [head], ?_⟩) fun _ _ never => never
      · rw [frameIn_setEntry promotedWord ownedPromoted (by decide)]
        exact frameIn_unmap _ _ number
      · refine (evicts unplaced).tail (.flag ownedPromoted.ne_zero shown.ne_zero ?_)
        rw [testBit_changePerm_low (by decide) (by decide),
          show (permPresent ||| permWriteable ||| permUser).testBit 6 = false by decide]
        simp
      · rw [outcome.2, ← List.append_assoc]
        rfl

theorem freeMemSecond_spec (valid : layout.Valid) (running : Running layout ram slot state)
    (healthy : Healthy strict tidy slot state) {before after : List Nat}
    (found : (state.envs slot).secondList = before ++ element :: after) (first : element ∉ before)
    (same : ((state.envs slot).ptrPageWorkingSet element).virtualAddress = address)
    {fail : Stop → KernelState → Prop} :
    wp (freeMemSecond slot address element) (fun _ next =>
      Released layout ram strict tidy slot [address] state next ∧
        (next.envs slot).secondList = before ++ after) fail state := by
  have lists := healthy.lists
  have distinct := lists.distinct
  obtain ⟨listedSecond, removed⟩ := healthy.resident_of_second found same
  have listed : address ∈ (state.envs slot).recency := by
    rw [Env.recency_eq]
    exact List.mem_append_right _ listedSecond
  have page := lists.pages address listed
  have owned := healthy.resident.owned (List.mem_append_right _ listedSecond)
  have present := KernelState.dirWord_ne_zero_of_leaf owned.ne_zero
  rw [freeMemSecond, wp_bind, wp_get, if_pos same]
  refine wp_emptied valid running page.2 owned.ne_zero (by rw [found, erase_middle first]; rfl) fun emptied outcome => ?_
  have residentNext : Resident strict tidy ((state.space slot).unmap (pageOf address)).entry
      ((state.envs slot).withLists ((state.envs slot).setEmpty element)
        (element :: (state.envs slot).pageWorkingSetList) (state.envs slot).activeList
        (before ++ after)).activePages
      ((state.envs slot).withLists ((state.envs slot).setEmpty element)
        (element :: (state.envs slot).pageWorkingSetList) (state.envs slot).activeList
        (before ++ after)).secondPages := by
    rw [Env.activePages, Env.secondPages, Env.addresses_setEmpty, Env.addresses_setEmpty]
    exact removed
  refine wp_mono (released_of_table valid page listed outcome.step (lists.releaseSecond same found) distinct
    residentNext (frameIn_unmap _ _) rfl (fun unplaced => .single (.evict (.inr (.inr unplaced)))) outcome.freed
    (outcome.step.tables _ _ present) outcome.kept) (fun _ _ outcome => ⟨outcome.1, ?_⟩) fun _ _ never => never
  rw [outcome.2]
  rfl

/-! ### Traversals -/

theorem listNext_split {before rest : List Nat} (first : element ∉ before) :
    listNext (before ++ element :: rest) element = rest.head? := by
  induction before with
  | nil => simp [listNext]
  | cons head before ih =>
      obtain ⟨different, first⟩ := not_or.1 (mt List.mem_cons.2 first)
      simp only [List.cons_append, listNext, if_neg (Ne.symm different)]
      exact ih first

section Traversals

variable {list : KernelState → List Nat} {body : Nat → KernelM Unit} {fuel : Nat}
  {before rest after : List Nat} {post : Unit → KernelState → Prop}
  {fail : Stop → KernelState → Prop}

/-- A traversal whose rounds do nothing. -/
theorem wp_listForeach_idle (split : list state = before ++ rest) (nodup : (before ++ rest).Nodup)
    (idle : ∀ element ∈ rest, ∀ post fail, wp (body element) post fail state ↔ post () state) :
    wp (listForeach list body fuel rest.head?) post fail state ↔ post () state := by
  induction rest generalizing before fuel with
  | nil => cases fuel <;> rfl
  | cons element rest ih =>
      cases fuel with
      | zero => rfl
      | succ fuel =>
          have first : element ∉ before := fun member =>
            (List.nodup_append.1 nodup).2.2 _ member _ (List.mem_cons_self ..) rfl
          have shift : before ++ element :: rest = (before ++ [element]) ++ rest := by simp
          simp only [List.head?_cons, listForeach, wp_bind, wp_get, split, listNext_split first]
          rw [idle element (List.mem_cons_self ..)]
          exact ih (split.trans shift) (shift ▸ nodup)
            fun other member => idle other (List.mem_cons_of_mem _ member)

/-- A traversal with one round that does something, after which more elements may follow. -/
theorem wp_listForeach_once (split : list state = before ++ element :: after)
    (nodup : (before ++ element :: after).Nodup)
    (idle : ∀ other ∈ before, ∀ post fail, wp (body other) post fail state ↔ post () state)
    (enough : before.length < fuel)
    (round : wp (body element) (fun _ next => post () next ∧ ∃ extra,
      list next = before ++ (after ++ extra) ∧ (list next).Nodup ∧
      ∀ other ∈ after ++ extra, ∀ post fail, wp (body other) post fail next ↔ post () next)
      fail state) :
    wp (listForeach list body fuel (list state).head?) post fail state := by
  have main (front back : List Nat) (joined : before = front ++ back) (fuel : Nat)
      (enough : back.length < fuel) :
      wp (listForeach list body fuel (back ++ element :: after).head?) post fail state := by
    induction back generalizing front fuel with
    | nil =>
        obtain ⟨fuel, rfl⟩ := Nat.exists_eq_add_of_lt enough
        have first : element ∉ before := fun member =>
          (List.nodup_append.1 nodup).2.2 _ member _ (List.mem_cons_self ..) rfl
        simp only [List.nil_append, List.head?_cons, listForeach, wp_bind, wp_get, split,
          listNext_split first, List.length_nil, Nat.zero_add]
        refine wp_mono round (fun _ next outcome => ?_) fun _ _ => id
        obtain ⟨holds, extra, splitNext, nodupNext, idleNext⟩ := outcome
        cases after with
        | nil => cases fuel <;> exact holds
        | cons head tail =>
            rw [splitNext] at nodupNext
            exact (wp_listForeach_idle splitNext nodupNext idleNext).2 holds
    | cons head back ih =>
        cases fuel with
        | zero => exact absurd enough (Nat.not_lt_zero _)
        | succ fuel =>
            have whole : before ++ element :: after =
                front ++ head :: (back ++ element :: after) := by simp [joined]
            have first : head ∉ front := fun member => by
              rw [whole] at nodup
              exact (List.nodup_append.1 nodup).2.2 _ member _ (List.mem_cons_self ..) rfl
            simp only [List.cons_append, List.head?_cons, listForeach, wp_bind, wp_get, split, whole,
              listNext_split first]
            rw [idle head (by simp [joined])]
            exact ih (front ++ [head]) (by simp [joined]) fuel (Nat.lt_of_succ_lt_succ enough)
  rw [split]
  exact main [] before rfl fuel enough

end Traversals

/-! ### Ranges of pages -/

private theorem freeMemActive_idle
    (other : ((state.envs slot).ptrPageWorkingSet element).virtualAddress ≠ address)
    (post : Unit → KernelState → Prop) (fail : Stop → KernelState → Prop) :
    wp (freeMemActive slot address element) post fail state ↔ post () state := by
  simp only [freeMemActive, wp_bind, wp_get, if_neg other, wp_pure]

private theorem freeMemSecond_idle
    (other : ((state.envs slot).ptrPageWorkingSet element).virtualAddress ≠ address)
    (post : Unit → KernelState → Prop) (fail : Stop → KernelState → Prop) :
    wp (freeMemSecond slot address element) post fail state ↔ post () state := by
  simp only [freeMemSecond, wp_bind, wp_get, if_neg other, wp_pure]

/-- Elements that do not hold the page, in a list that does not. -/
private theorem ne_of_unlisted {elements : List Nat} (unlisted : address ∉ env.addresses elements)
    (member : element ∈ elements) : (env.ptrPageWorkingSet element).virtualAddress ≠ address :=
  fun same => unlisted (Env.mem_addresses.2 ⟨element, member, same⟩)

/-- A traversal that looks for a page which is in no list. -/
private theorem wp_freeMemSecond_idle (healthy : Healthy strict tidy slot state)
    (unlisted : address ∉ (state.envs slot).secondPages)
    (post : Unit → KernelState → Prop) (fail : Stop → KernelState → Prop) :
    wp (listForeach (secondListOf slot) (freeMemSecond slot address) listRounds
      (state.envs slot).secondList.head?) post fail state ↔ post () state :=
  wp_listForeach_idle (show secondListOf slot state = [] ++ (state.envs slot).secondList from rfl)
    (List.nodup_append.1 healthy.lists.listed.nodup).2.1
    fun _ member => freeMemSecond_idle (ne_of_unlisted unlisted member)

private theorem wp_freeMemActive_idle (healthy : Healthy strict tidy slot state)
    (unlisted : address ∉ (state.envs slot).activePages)
    (post : Unit → KernelState → Prop) (fail : Stop → KernelState → Prop) :
    wp (listForeach (activeListOf slot) (freeMemActive slot address) listRounds
      (state.envs slot).activeList.head?) post fail state ↔ post () state :=
  wp_listForeach_idle (show activeListOf slot state = [] ++ (state.envs slot).activeList from rfl)
    (List.nodup_append.1 healthy.lists.listed.nodup).1
    fun _ member => freeMemActive_idle (ne_of_unlisted unlisted member)

/-- The traversals have enough rounds. -/
private theorem length_lt_listRounds {elements before after : List Nat} (nodup : elements.Nodup)
    (bounded : ∀ element ∈ elements, element < pwsMaxSize)
    (split : elements = before ++ element :: after) : before.length < listRounds := by
  have sub : elements ⊆ List.range pwsMaxSize := fun other member =>
    List.mem_range.2 (bounded other member)
  have short := (List.subperm_of_subset nodup sub).length_le
  rw [List.length_range, split, List.length_append, List.length_cons] at short
  simp only [listRounds]
  omega

/-- What becomes of one page of the range. -/
theorem freeMemPage_spec (valid : layout.Valid) (running : Running layout ram slot state)
    (healthy : Healthy strict tidy slot state) {fail : Stop → KernelState → Prop} :
    wp (freeMemPage slot address)
      (fun _ next => Released layout ram strict tidy slot [address] state next) fail state := by
  have lists := healthy.lists
  have listed := lists.listed
  have distinct := lists.distinct
  rw [Env.recency_eq] at distinct
  obtain ⟨activeDistinct, secondDistinct, apart⟩ := List.nodup_append.1 distinct
  simp only [freeMemPage, wp_bind, wp_get]
  by_cases inActive : address ∈ (state.envs slot).activePages
  · obtain ⟨element, member, same⟩ := Env.mem_addresses.1 inActive
    obtain ⟨before, after, found⟩ := List.append_of_mem member
    have nodup := (List.nodup_append.1 listed.nodup).1
    have first : element ∉ before := by
      rw [found] at nodup
      exact fun inBefore => (List.nodup_append.1 nodup).2.2 _ inBefore _ (List.mem_cons_self ..) rfl
    have notBefore : address ∉ (state.envs slot).addresses before := by
      rw [Env.activePages, found, Env.addresses_append, Env.addresses_cons, same] at activeDistinct
      exact fun inBefore =>
        (List.nodup_append.1 activeDistinct).2.2 _ inBefore _ (List.mem_cons_self ..) rfl
    refine wp_listForeach_once (show activeListOf slot state = _ from found) (found ▸ nodup)
      (fun other inBefore => freeMemActive_idle (ne_of_unlisted notBefore inBefore))
      (length_lt_listRounds nodup (fun other inList => listed.bounded other
        (List.mem_append_left _ inList)) found) ?_
    refine wp_mono (freeMemActive_spec valid running healthy found first same)
      (fun _ next outcome => ?_) fun _ _ => id
    obtain ⟨released, extra, split⟩ := outcome
    have gone := released.gone
    rw [Env.recency_eq, List.mem_append, not_or] at gone
    refine ⟨(wp_freeMemSecond_idle released.healthy gone.2 _ _).2 released, extra, split,
      (List.nodup_append.1 released.healthy.lists.listed.nodup).1, fun other inRest => ?_⟩
    refine freeMemActive_idle (ne_of_unlisted gone.1 ?_)
    rw [split]
    exact List.mem_append_right _ inRest
  · rw [wp_freeMemActive_idle healthy inActive]
    by_cases inSecond : address ∈ (state.envs slot).secondPages
    · obtain ⟨element, member, same⟩ := Env.mem_addresses.1 inSecond
      obtain ⟨before, after, found⟩ := List.append_of_mem member
      have nodup := (List.nodup_append.1 listed.nodup).2.1
      have first : element ∉ before := by
        rw [found] at nodup
        exact fun inBefore =>
          (List.nodup_append.1 nodup).2.2 _ inBefore _ (List.mem_cons_self ..) rfl
      have notBefore : address ∉ (state.envs slot).addresses before := by
        rw [Env.secondPages, found, Env.addresses_append, Env.addresses_cons, same] at secondDistinct
        exact fun inBefore =>
          (List.nodup_append.1 secondDistinct).2.2 _ inBefore _ (List.mem_cons_self ..) rfl
      refine wp_listForeach_once (show secondListOf slot state = _ from found) (found ▸ nodup)
        (fun other inBefore => freeMemSecond_idle (ne_of_unlisted notBefore inBefore))
        (length_lt_listRounds nodup (fun other inList => listed.bounded other
          (List.mem_append_right _ inList)) found) ?_
      refine wp_mono (freeMemSecond_spec valid running healthy found first same)
        (fun _ next outcome => ?_) fun _ _ => id
      obtain ⟨released, split⟩ := outcome
      have gone := released.gone
      rw [Env.recency_eq, List.mem_append, not_or] at gone
      refine ⟨released, [], ?_, (List.nodup_append.1 released.healthy.lists.listed.nodup).2.1,
        fun other inRest => freeMemSecond_idle (ne_of_unlisted gone.2 ?_)⟩
      · rw [List.append_nil]
        exact split
      · rw [split]
        exact List.mem_append_right _ (by rwa [List.append_nil] at inRest)
    · rw [wp_freeMemSecond_idle healthy inSecond]
      refine .unlisted running healthy ?_
      rw [Env.recency_eq, List.mem_append]
      exact not_or.2 ⟨inActive, inSecond⟩

/-- The addresses a range of pages is freed at. -/
def rangeOf : Nat → Nat → List Nat
  | _, 0 => []
  | address, count + 1 => address :: rangeOf (nextPage address) count

theorem Released.empty (running : Running layout ram slot state)
    (healthy : Healthy strict tidy slot state) :
    Released layout ram strict tidy slot [] state state where
  acts := .refl slot [] state
  keeps := .refl slot [] state
  running := running
  healthy := healthy
  lists := ⟨_, _, _, _, rfl⟩
  recency := by simp
  frames page := by simp
  disk := rfl
  moves _ := .refl
  grows := List.suffix_rfl
  freed _ member := by cases member
  tables _ := .inl rfl
  emptied _ member := by cases member
  freeKept := .refl state

/-- The second part of `freeMem`. -/
theorem freePages_spec (valid : layout.Valid) (running : Running layout ram slot state)
    (healthy : Healthy strict tidy slot state) {fail : Stop → KernelState → Prop} (count : Nat) :
    wp (freePages slot address count)
      (fun _ next => Released layout ram strict tidy slot (rangeOf address count) state next)
      fail state := by
  induction count generalizing state address with
  | zero => exact .empty running healthy
  | succ count ih =>
      simp only [freePages, wp_bind]
      refine wp_mono (freeMemPage_spec valid running healthy) (fun _ next first => ?_) fun _ _ => id
      exact wp_mono (ih first.running first.healthy) (fun _ _ rest => first.trans rest) fun _ _ => id

/-! ### The page file -/

/-- Pages that have no disk frame any more. -/
def Space.removeAll (space : Space) : List Nat → Space
  | [] => space
  | page :: pages => (space.remove page).removeAll pages

namespace Space

variable {pages : List Nat}

@[simp] theorem removeAll_entry : (space.removeAll pages).entry = space.entry := by
  induction pages generalizing space with
  | nil => rfl
  | cons page pages ih => exact ih

theorem removeAll_diskFrame (number : Nat) : (space.removeAll pages).diskFrame number =
    if number ∈ pages then 0 else space.diskFrame number := by
  induction pages generalizing space with
  | nil => simp [removeAll]
  | cons page pages ih =>
      rw [removeAll, ih]
      by_cases same : number = page <;> simp [remove, place, same]

end Space

theorem nextPage_lt (address : Nat) : nextPage address < wordSize := by
  simp only [nextPage, wordSize, pageSize]
  omega

/-- The first part of `freeMem`. -/
theorem removePages_spec (valid : layout.Valid)
    (before : Stepped layout ram slot start state env space) (word : address < wordSize)
    {fail : Stop → KernelState → Prop} (count : Nat) :
    wp (removePages slot address count) (fun _ next => Stepped layout ram slot start next env
      (space.removeAll ((rangeOf address count).map pageOf))) fail state := by
  induction count generalizing state address space with
  | zero => exact before
  | succ count ih =>
      simp only [removePages, rangeOf, List.map_cons, Space.removeAll, wp_bind]
      refine wp_mono (pfRemoveEnvPage_spec valid before.running.inv word)
        (fun _ next removed => ?_) fun _ _ never => never
      obtain ⟨becomes, keeps, stable, free⟩ := removed
      rw [before.becomes.space] at becomes
      have grows : state.freeFrameList <:+ next.freeFrameList := by
        simp only [free, List.suffix_rfl]
      exact ih (before.step becomes keeps stable grows) (nextPage_lt address)

/-- `freeMem` takes the pages of the range out of the page file, and those of them that are
in a list out of memory. -/
theorem freeMem_spec (valid : layout.Valid) (running : Running layout ram slot state)
    (healthy : Healthy strict tidy slot state) (word : address < wordSize) (size : Nat)
    {fail : Stop → KernelState → Prop} :
    wp (freeMem slot address size) (fun _ next => ∃ removed,
      Stepped layout ram slot state removed (state.envs slot) ((state.space slot).removeAll
        ((rangeOf address (roundUp size / pageSize)).map pageOf)) ∧
      Released layout ram strict tidy slot (rangeOf address (roundUp size / pageSize)) removed next)
      fail state := by
  simp only [freeMem, wp_bind]
  generalize roundUp size / pageSize = count
  refine wp_mono (removePages_spec valid (.refl running) word count) (fun _ removed step => ?_)
    fun _ _ never => never
  have leaf : removed.leaf .user slot = state.leaf .user slot := by
    rw [step.leaf, Space.removeAll_entry]
    rfl
  have healthyRemoved : Healthy strict tidy slot removed :=
    ⟨step.running.live, step.running.placed, step.env ▸ healthy.lists, by
      rw [step.env, leaf]
      exact healthy.resident⟩
  exact wp_mono (freePages_spec valid step.running healthyRemoved _)
    (fun _ next released => ⟨removed, step, released⟩) fun _ _ => id

end Fos.Kernel
