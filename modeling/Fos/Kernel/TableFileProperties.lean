import Fos.Kernel.BootProperties
import Fos.Kernel.TableFile
import Fos.Kernel.TeardownProperties
import Mathlib.Order.Interval.Finset.Nat

/-! Every disk frame is free or held by one entry, over any run of calls into the page
file. -/

set_option autoImplicit false

namespace Fos.Kernel

open Foundation

variable {layout : BootLayout} {ram : Nat → Page} {slot frame : Nat} {kernel kernel' : KernelState}

/-! ### Disk frames in hand -/

theorem Inv.writeDiskPage (inv : Inv layout ram kernel) (diskFrame : Nat) (page : Page) :
    Inv layout ram (kernel.writeDiskPage diskFrame page) :=
  ⟨{ inv.toCore with }, inv.toLedger.congr rfl rfl rfl rfl rfl⟩

namespace TableFile

variable {state next : TableFile}

theorem wp_onKernel {Result : Type} {program : KernelM Result} {post : Result → TableFile → Prop}
    {fail : Stop → TableFile → Prop} :
    wp (onKernel program) post fail state ↔
      wp program (fun result kernel => post result { state with kernel := kernel })
        (fun stop kernel => fail stop { state with kernel := kernel }) state.kernel := by
  simp only [wp, onKernel]
  cases program state.kernel <;> rfl

/-! ### What calls preserve -/

/-- The disk frame an entry names. -/
def holds (state : TableFile) (place : Entry) : Option Nat :=
  if state.entry place = 0 then none else some (state.entry place)

/-- Table directories live in frames of their own, and every disk frame is free or held by
one entry. -/
structure Kept (layout : BootLayout) (ram : Nat → Page) (state : TableFile) : Prop where
  inv : Inv layout ram state.kernel
  fresh : ∀ slot directory, state.diskEnvTabledir slot = some directory →
    state.kernel.Fresh directory ∧ layout.Managed directory ∧ state.kernel.references directory = 1 ∧
      state.diskEnvTabledirPA slot = toPhysicalAddress directory
  distinct : ∀ slot other directory, state.diskEnvTabledir slot = some directory →
    state.diskEnvTabledir other = some directory → slot = other
  exclusive : Exclusive state.kernel.diskFreeFrameList state.holds
  total : ∀ diskFrame, (1 ≤ diskFrame ∧ diskFrame < pagesPerFile) ↔
    Covers state.kernel.diskFreeFrameList state.holds diskFrame

theorem holds_boot {disk : Nat → Page} (place : Entry) :
    holds ⟨layout.boot ram disk, fun _ => none, fun _ => 0⟩ place = none := by
  cases place with
  | page slot number => exact diskNames_boot (slot, number)
  | table slot index => rfl

theorem holds_table {directory index : Nat} (found : state.diskEnvTabledir slot = some directory)
    (low : index < userTables) : state.holds (.table slot index) =
      if state.kernel.mem directory index = 0 then none else some (state.kernel.mem directory index) := by
  simp only [holds, entry, found, if_pos low]

/-- The tables do not look at the pages. -/
theorem entry_table_congr (tabledir : next.diskEnvTabledir slot = state.diskEnvTabledir slot)
    (mem : ∀ directory, state.diskEnvTabledir slot = some directory →
      next.kernel.mem directory = state.kernel.mem directory) (index : Nat) :
    next.entry (.table slot index) = state.entry (.table slot index) := by
  simp only [entry, tabledir]
  cases found : state.diskEnvTabledir slot with
  | none => rfl
  | some directory => simp only [mem directory found]

namespace Kept

theorem boot (valid : layout.Valid) (ram disk : Nat → Page) :
    Kept layout ram ⟨layout.boot ram disk, fun _ => none, fun _ => 0⟩ where
  inv := boot_inv valid ram disk
  fresh _ _ found := by cases found
  distinct _ _ _ found := by cases found
  exclusive :=
    { nodup := nodup_insertedAtHead ..
      injective := fun place _ _ named => by simp [holds_boot] at named
      apart := fun place _ named => by simp [holds_boot] at named }
  total diskFrame := by
    have bound : 1 + (pagesPerFile - 1) = pagesPerFile := rfl
    simp only [Covers, holds_boot, reduceCtorEq, exists_false, or_false]
    rw [BootLayout.boot, mem_insertedAtHead, bound]

/-- A call that works on the pages of one environment and loses none of its disk frames. -/
theorem pages {hand hand' : List Nat} {space : Space} (kept : Kept layout ram state)
    (becomes : SpaceBecomes layout ram slot hand state.kernel hand' kernel' space)
    (keeps : Keeps slot hand state.kernel hand' kernel')
    (inHand : ∀ frame ∈ hand, state.kernel.Fresh frame)
    (elsewhere : ∀ other directory, state.diskEnvTabledir other = some directory → directory ∉ hand) :
    Kept layout ram { state with kernel := kernel' } := by
  have unheld (other directory : Nat) (found : state.diskEnvTabledir other = some directory) :
      ¬ state.kernel.Held slot hand directory := by
    have fresh := (kept.fresh other directory found).1
    rintro (free | ⟨place, -, named⟩ | member)
    · exact fresh.notFree free
    · exact fresh.unnamed place named
    · exact elsewhere other directory found member
  have tables (other index : Nat) :
      holds { state with kernel := kernel' } (.table other index) = state.holds (.table other index) := by
    have same := @entry_table_congr other state { state with kernel := kernel' } rfl
      (fun directory found => becomes.acts.mem _ (unheld other directory found)) index
    simp only [holds, same]
  have others (other number : Nat) (different : other ≠ slot) :
      kernel'.diskNames (other, number) = state.kernel.diskNames (other, number) := by
    simp only [KernelState.diskNames, becomes.acts.leaf_other kept.inv.toLedger inHand different]
  -- what a table entry holds is no business of the environment
  have apart (other index diskFrame : Nat) (held : state.holds (.table other index) = some diskFrame) :
      ¬ kernel'.HeldDisk slot diskFrame := by
    intro own
    rcases becomes.acts.heldDisk diskFrame own with free | ⟨number, named⟩
    · exact kept.exclusive.apart _ _ held free
    · cases kept.exclusive.injective _ (.page slot number) _ held named
  have unnamed (other index diskFrame : Nat) (held : state.holds (.table other index) = some diskFrame)
      (place : Nat × Nat) : kernel'.diskNames place ≠ some diskFrame := by
    intro named
    obtain ⟨owner, number⟩ := place
    by_cases own : owner = slot
    · exact apart other index diskFrame held (.inr ⟨number, own ▸ named⟩)
    · rw [others owner number own] at named
      cases kept.exclusive.injective _ (.page owner number) _ held named
  refine ⟨becomes.inv, fun other directory found => ?_, kept.distinct, ⟨becomes.inv.diskExclusive.nodup, ?_, ?_⟩,
    fun diskFrame => (kept.total diskFrame).trans ⟨?_, ?_⟩⟩
  · obtain ⟨fresh, managed, once, physical⟩ := kept.fresh other directory found
    refine ⟨becomes.acts.fresh kept.inv.toLedger inHand fresh (elsewhere other directory found), managed,
      ?_, physical⟩
    rw [becomes.acts.references _ (unheld other directory found)]
    exact once
  · intro place other diskFrame held otherHeld
    cases place with
    | page owner number =>
        cases other with
        | page otherOwner otherNumber =>
            cases becomes.inv.diskExclusive.injective (owner, number) (otherOwner, otherNumber) _ held
              otherHeld
            rfl
        | table otherOwner index =>
            rw [tables] at otherHeld
            exact absurd held (unnamed _ _ _ otherHeld (owner, number))
    | table owner index =>
        rw [tables] at held
        cases other with
        | page otherOwner otherNumber =>
            exact absurd otherHeld (unnamed _ _ _ held (otherOwner, otherNumber))
        | table otherOwner otherIndex =>
            rw [tables] at otherHeld
            exact kept.exclusive.injective _ _ _ held otherHeld
  · intro place diskFrame held
    cases place with
    | page owner number => exact becomes.inv.diskExclusive.apart (owner, number) _ held
    | table owner index =>
        rw [tables] at held
        exact fun free => apart _ _ _ held (.inl free)
  · have fromHeld (held : state.kernel.HeldDisk slot diskFrame) : diskFrame ∈ kernel'.diskFreeFrameList ∨
        ∃ place, holds { state with kernel := kernel' } place = some diskFrame :=
      (keeps.heldDisk diskFrame held).imp_right fun names => names.elim fun number named => ⟨.page slot number, named⟩
    rintro (free | ⟨place, held⟩)
    · exact fromHeld (.inl free)
    · cases place with
      | page owner number =>
          by_cases own : owner = slot
          · exact fromHeld (.inr ⟨number, own ▸ held⟩)
          · exact .inr ⟨.page owner number, (others owner number own).trans held⟩
      | table owner index => exact .inr ⟨.table owner index, (tables owner index).trans held⟩
  · have fromHeld (held : kernel'.HeldDisk slot diskFrame) : diskFrame ∈ state.kernel.diskFreeFrameList ∨
        ∃ place, state.holds place = some diskFrame :=
      (becomes.acts.heldDisk diskFrame held).imp_right fun names => names.elim fun number named => ⟨.page slot number, named⟩
    rintro (free | ⟨place, held⟩)
    · exact fromHeld (.inl free)
    · cases place with
      | page owner number =>
          by_cases own : owner = slot
          · exact fromHeld (.inr ⟨number, own ▸ held⟩)
          · exact .inr ⟨.page owner number, (others owner number own).symm.trans held⟩
      | table owner index => exact .inr ⟨.table owner index, (tables owner index).symm.trans held⟩

/-- An entry of a table directory changes, and with it the free list. -/
theorem setEntry {directory index word : Nat} {free : List Nat} (kept : Kept layout ram state)
    (found : state.diskEnvTabledir slot = some directory) (low : index < userTables)
    (exclusive : Exclusive free (Function.update state.holds (.table slot index)
      (if word = 0 then none else some word)))
    (covers : ∀ diskFrame, Covers free (Function.update state.holds (.table slot index)
      (if word = 0 then none else some word)) diskFrame ↔
        Covers state.kernel.diskFreeFrameList state.holds diskFrame)
    (positive : ∀ diskFrame ∈ free, diskFrame ≠ 0) :
    Kept layout ram { state with
      kernel := (state.kernel.writeWord directory index word).setDiskFreeFrameList free } := by
  obtain ⟨fresh, managed, -, -⟩ := kept.fresh slot directory found
  have agrees : AgreesOff directory state.kernel
      ((state.kernel.writeWord directory index word).setDiskFreeFrameList free) :=
    ⟨.of_envs rfl, fun other different => by
      funext position
      simp [KernelState.writeWord, different]⟩
  have notNode := NotNode.of_fresh fresh
  have names := agrees.names notNode
  have diskNames := agrees.diskNames notNode
  have holds : holds { state with
      kernel := (state.kernel.writeWord directory index word).setDiskFreeFrameList free } =
        Function.update state.holds (.table slot index) (if word = 0 then none else some word) := by
    funext place
    cases place with
    | page owner number => exact congrFun diskNames (owner, number)
    | table owner position =>
        by_cases same : owner = slot ∧ position = index
        · obtain ⟨rfl, rfl⟩ := same
          rw [Function.update_self]
          simp [TableFile.holds, entry, found, low]
        · rw [Function.update_of_ne (by simpa using same)]
          have entries : entry { state with
              kernel := (state.kernel.writeWord directory index word).setDiskFreeFrameList free }
                (.table owner position) = state.entry (.table owner position) := by
            cases other : state.diskEnvTabledir owner with
            | none => simp only [entry, other]
            | some root =>
                have different : ¬ (root = directory ∧ position = index) := by
                  rintro ⟨rfl, rfl⟩
                  exact same ⟨kept.distinct owner slot root other found, rfl⟩
                simp [entry, other, KernelState.writeWord, different]
          simp only [TableFile.holds, entries]
  refine ⟨⟨?_, ?_⟩, fun other root placed => ?_, kept.distinct, holds ▸ exclusive, fun diskFrame => ?_⟩
  · exact agrees.core kept.inv.toCore (by constructor <;> rfl) managed notNode.root
  · refine ⟨names ▸ kept.inv.exclusive, kept.inv.managedFree, names ▸ kept.inv.managed,
      names ▸ kept.inv.references, ⟨exclusive.nodup, ?_, ?_⟩, positive⟩
    · intro place other diskFrame named otherNamed
      rw [diskNames] at named otherNamed
      exact kept.inv.diskExclusive.injective place other diskFrame named otherNamed
    · intro place diskFrame named
      rw [diskNames] at named
      exact exclusive.apart (.page place.1 place.2) diskFrame
        (by rw [Function.update_of_ne (by simp)]; exact named)
  · obtain ⟨freshRoot, rest⟩ := kept.fresh other root placed
    exact ⟨⟨freshRoot.notFree, fun place => by rw [names]; exact freshRoot.unnamed place⟩, rest⟩
  · rw [kept.total, holds]
    exact (covers diskFrame).symm

/-- A vacant entry takes the first free disk frame. -/
theorem place {directory index diskFrame : Nat} {rest : List Nat} (kept : Kept layout ram state)
    (found : state.diskEnvTabledir slot = some directory) (low : index < userTables)
    (vacant : state.kernel.mem directory index = 0)
    (free : state.kernel.diskFreeFrameList = diskFrame :: rest) :
    Kept layout ram { state with
      kernel := (state.kernel.setDiskFreeFrameList rest).writeWord directory index diskFrame } := by
  have exclusive := kept.exclusive
  have positive := kept.inv.diskPositive
  rw [free] at exclusive positive
  obtain ⟨some, positive⟩ := List.forall_mem_cons.1 positive
  have none : state.holds (.table slot index) = none := by rw [holds_table found low, if_pos vacant]
  obtain ⟨taken, fresh⟩ := exclusive.take
  refine kept.setEntry found low ?_ (fun other => ?_) positive
  · rw [if_neg some]
    exact taken.bind fresh _
  · rw [if_neg some, free]
    exact Covers.bind none other

/-- An entry gives its disk frame back. -/
theorem clear {directory index : Nat} (kept : Kept layout ram state)
    (found : state.diskEnvTabledir slot = some directory) (low : index < userTables)
    {fail : Stop → TableFile → Prop} :
    wp (removeTableEntry directory index) (fun _ next => Kept layout ram next ∧
      next.diskEnvTabledir = state.diskEnvTabledir ∧ next.kernel.mem directory index = 0 ∧
      ∀ position, state.kernel.mem directory position = 0 → next.kernel.mem directory position = 0)
      fail state := by
  simp only [removeTableEntry, wp_bind, wp_get, wp_onKernel, wp_modify, freeDiskFrame]
  by_cases vacant : state.kernel.mem directory index = 0
  · have same := KernelState.writeWord_self state.kernel directory index
    rw [vacant] at same
    simp only [vacant, if_true, same, wp_pure]
    exact ⟨kept, trivial, trivial, fun _ => id⟩
  · have held : state.holds (.table slot index) = some (state.kernel.mem directory index) := by
      rw [holds_table found low, if_neg vacant]
    have fewer (place : Entry) (diskFrame : Nat)
        (named : Function.update state.holds (.table slot index) none place = some diskFrame) :
        state.holds place = some diskFrame := by
      by_cases same : place = .table slot index
      · rw [same, Function.update_self] at named
        cases named
      · rwa [Function.update_of_ne same] at named
    have fresh := kept.exclusive.fresh_of_forgotten held fewer (by rw [Function.update_self]; simp)
    simp only [if_neg vacant, wp_modify]
    refine ⟨kept.setEntry found low ?_ (fun other => ?_) ?_, trivial, ?_, fun position zero => ?_⟩
    · exact (kept.exclusive.restrict fewer).put fresh
    · exact Covers.forget held other
    · exact List.forall_mem_cons.2 ⟨vacant, kept.inv.diskPositive⟩
    · simp
    · simp [zero]

/-- A disk frame is rewritten. -/
theorem write (kept : Kept layout ram state) (diskFrame : Nat) (page : Page) :
    Kept layout ram { state with kernel := state.kernel.writeDiskPage diskFrame page } :=
  ⟨kept.inv.writeDiskPage diskFrame page, kept.fresh, kept.distinct, kept.exclusive, kept.total⟩

/-- A frame of zeros in hand becomes a table directory. -/
theorem attach (kept : Kept layout ram state) (vacant : state.diskEnvTabledir slot = none)
    (fresh : state.kernel.Fresh frame) (managed : layout.Managed frame)
    (once : state.kernel.references frame = 1) (zero : state.kernel.mem frame = Page.zero)
    (unused : ∀ other, state.diskEnvTabledir other ≠ some frame) :
    Kept layout ram { state with
      diskEnvTabledir := Function.update state.diskEnvTabledir slot (some frame)
      diskEnvTabledirPA := Function.update state.diskEnvTabledirPA slot (toPhysicalAddress frame) } := by
  have holds : holds { state with
      diskEnvTabledir := Function.update state.diskEnvTabledir slot (some frame)
      diskEnvTabledirPA := Function.update state.diskEnvTabledirPA slot (toPhysicalAddress frame) } =
        state.holds := by
    funext place
    cases place with
    | page owner number => rfl
    | table owner index =>
        by_cases same : owner = slot
        · simp [TableFile.holds, entry, same, vacant, zero, Page.zero]
        · have entries := @entry_table_congr owner state { state with
              diskEnvTabledir := Function.update state.diskEnvTabledir slot (some frame)
              diskEnvTabledirPA := Function.update state.diskEnvTabledirPA slot (toPhysicalAddress frame) }
            (Function.update_of_ne same _ _) (fun _ _ => rfl) index
          simp only [TableFile.holds, entries]
  refine ⟨kept.inv, fun other directory placed => ?_, fun owner other directory placed otherPlaced => ?_,
    holds ▸ kept.exclusive, holds ▸ kept.total⟩
  · by_cases same : other = slot
    · subst same
      simp only [Function.update_self, Option.some.injEq] at placed ⊢
      subst placed
      exact ⟨fresh, managed, once, rfl⟩
    · simp only [Function.update_of_ne same] at placed ⊢
      exact kept.fresh other directory placed
  · by_cases own : owner = slot
    · by_cases otherOwn : other = slot
      · rw [own, otherOwn]
      · simp only [own, Function.update_self, Function.update_of_ne otherOwn, Option.some.injEq]
          at placed otherPlaced
        exact absurd (placed ▸ otherPlaced) (unused other)
    · by_cases otherOwn : other = slot
      · simp only [otherOwn, Function.update_self, Function.update_of_ne own, Option.some.injEq]
          at placed otherPlaced
        exact absurd (otherPlaced ▸ placed) (unused owner)
      · simp only [Function.update_of_ne own, Function.update_of_ne otherOwn] at placed otherPlaced
        exact kept.distinct owner other directory placed otherPlaced

/-- An empty table directory is forgotten. -/
theorem detach {directory : Nat} (kept : Kept layout ram state)
    (found : state.diskEnvTabledir slot = some directory)
    (empty : ∀ index < userTables, state.kernel.mem directory index = 0) :
    Kept layout ram { state with
      diskEnvTabledir := Function.update state.diskEnvTabledir slot none
      diskEnvTabledirPA := Function.update state.diskEnvTabledirPA slot 0 } := by
  have holds : holds { state with
      diskEnvTabledir := Function.update state.diskEnvTabledir slot none
      diskEnvTabledirPA := Function.update state.diskEnvTabledirPA slot 0 } = state.holds := by
    funext place
    cases place with
    | page owner number => rfl
    | table owner index =>
        by_cases same : owner = slot
        · by_cases low : index < userTables
          · simp [TableFile.holds, entry, same, found, low, empty index low]
          · simp [TableFile.holds, entry, same, found, low]
        · have entries := @entry_table_congr owner state { state with
              diskEnvTabledir := Function.update state.diskEnvTabledir slot none
              diskEnvTabledirPA := Function.update state.diskEnvTabledirPA slot 0 }
            (Function.update_of_ne same _ _) (fun _ _ => rfl) index
          simp only [TableFile.holds, entries]
  have others (other root : Nat)
      (placed : Function.update state.diskEnvTabledir slot none other = some root) :
      other ≠ slot ∧ state.diskEnvTabledir other = some root := by
    by_cases same : other = slot
    · rw [same, Function.update_self] at placed
      cases placed
    · rw [Function.update_of_ne same] at placed
      exact ⟨same, placed⟩
  refine ⟨kept.inv, fun other root placed => ?_, fun owner other root placed otherPlaced => ?_,
    holds ▸ kept.exclusive, holds ▸ kept.total⟩
  · obtain ⟨different, placed⟩ := others other root placed
    simp only [Function.update_of_ne different]
    exact kept.fresh other root placed
  · exact kept.distinct owner other root (others owner root placed).2 (others other root otherPlaced).2

end Kept

/-! ### The calls -/

/-- Every outcome of a call keeps the page file in order. -/
abbrev keptAfter (layout : BootLayout) (ram : Nat → Page) {Result : Type} (_ : Result)
    (next : TableFile) : Prop := Kept layout ram next

theorem getDiskTableDirectory_spec (valid : layout.Valid) (kept : Kept layout ram state) :
    wp (getDiskTableDirectory slot) (fun directory next => Kept layout ram next ∧
      next.diskEnvTabledir slot = some directory) (keptAfter layout ram) state := by
  unfold getDiskTableDirectory
  rw [wp_bind, wp_get]
  cases found : state.diskEnvTabledir slot with
  | some directory =>
      simp only [wp_pure]
      exact ⟨kept, found⟩
  | none =>
      simp only [wp_bind, wp_onKernel, allocateFrame, wp_get]
      cases free : state.kernel.freeFrameList with
      | nil => exact kept
      | cons frame rest =>
          obtain ⟨taken, keepsTaken, fresh, managed⟩ := kept.inv.take slot [] free 1
          have unused (other : Nat) : state.diskEnvTabledir other ≠ some frame := by
            intro placed
            exact (kept.fresh other frame placed).1.notFree (free ▸ List.mem_cons_self ..)
          have bound : frameOf (toPhysicalAddress frame) < state.kernel.numberOfFrames := by
            rw [frameOf_toPhysicalAddress, kept.inv.size]
            exact (managed.pos valid).2
          have keptTaken := kept.pages taken keepsTaken (by simp) (by simp)
          obtain ⟨zeroed, keepsZeroed⟩ := taken.inv.writeFresh slot fresh managed
            (List.mem_singleton.2 rfl) Page.zero
          have keptZeroed := keptTaken.pages zeroed keepsZeroed (by simpa using fresh)
            (fun other directory placed member => unused other (by rw [← List.mem_singleton.1 member]; exact placed))
          have attached := keptZeroed.attach found
            (fresh_writeFrame fresh Page.zero) managed (by simp) (if_pos rfl) unused
          simp only [wp_bind, wp_modify, wp_pure, setTabledir]
          rw [wp_staticKernelVirtualAddress (by exact bound)]
          simp only [frameOf_toPhysicalAddress, KernelState.setReferences_twice]
          exact ⟨attached, Function.update_self ..⟩

theorem pfWriteEnvTable_spec (valid : layout.Valid) (kept : Kept layout ram state) {address : Nat}
    (low : address < userTop) (table : Page) :
    wp (pfWriteEnvTable slot address table) (keptAfter layout ram) (keptAfter layout ram) state := by
  have inKernel : ¬ kernelBase ≤ address := not_le.2 (low.trans (by decide))
  have index : pdx address < userTables := by
    rw [pdx_user low]
    exact index_lt low
  simp only [pfWriteEnvTable, if_neg inKernel, wp_bind]
  refine wp_mono (getDiskTableDirectory_spec valid kept) (fun directory next made => ?_) fun _ _ => id
  obtain ⟨kept, found⟩ := made
  simp only [wp_get]
  by_cases vacant : next.kernel.mem directory (pdx address) = 0
  · simp only [if_pos vacant, wp_bind, wp_onKernel, allocateDiskFrame, wp_get]
    cases free : next.kernel.diskFreeFrameList with
    | nil => exact kept
    | cons diskFrame rest =>
        simp only [wp_bind, wp_modify, wp_pure, wp_onKernel]
        exact (kept.place found index vacant free).write diskFrame table
  · simp only [if_neg vacant, wp_bind, wp_modify, wp_pure, wp_onKernel]
    exact kept.write _ table

theorem pfRemoveEnvTable_spec (kept : Kept layout ram state) {address : Nat} (low : address < userTop) :
    wp (pfRemoveEnvTable slot address) (keptAfter layout ram) (keptAfter layout ram) state := by
  have index : pdx address < userTables := by
    rw [pdx_user low]
    exact index_lt low
  unfold pfRemoveEnvTable
  rw [wp_bind, wp_get]
  cases found : state.diskEnvTabledir slot with
  | none => exact kept
  | some directory => exact wp_mono (kept.clear found index) (fun _ _ cleared => cleared.1) fun _ _ => id

/-- The entries from an index on are cleared one after the other. -/
theorem removeTables_spec {directory : Nat} (count : Nat) {index : Nat} (kept : Kept layout ram state)
    (found : state.diskEnvTabledir slot = some directory) (bound : index + count ≤ userTables)
    (empty : ∀ position < index, state.kernel.mem directory position = 0) :
    wp (removeTables directory index count) (fun _ next => Kept layout ram next ∧
      next.diskEnvTabledir slot = some directory ∧
      ∀ position < index + count, next.kernel.mem directory position = 0) (keptAfter layout ram) state := by
  induction count generalizing index state with
  | zero => exact ⟨kept, found, empty⟩
  | succ count ih =>
      have low : index < userTables := by omega
      rw [removeTables, wp_bind]
      refine wp_mono (kept.clear found low) (fun _ next cleared => ?_) fun _ _ => id
      obtain ⟨kept, tabledir, zero, others⟩ := cleared
      have total : index + (count + 1) = index + 1 + count := by omega
      rw [total]
      refine ih kept (by rw [tabledir, found]) (by omega) fun position below => ?_
      rcases Nat.lt_succ_iff_lt_or_eq.1 below with before | rfl
      · exact others position (empty position before)
      · exact zero

theorem pfFreeEnv_spec (valid : layout.Valid) (kept : Kept layout ram state) :
    wp (pfFreeEnv slot) (keptAfter layout ram) (keptAfter layout ram) state := by
  unfold pfFreeEnv
  rw [wp_bind, wp_onKernel]
  by_cases placed : (state.kernel.envs slot).diskEnvPgdir = none
  · unfold Kernel.pfFreeEnv
    rw [wp_bind, wp_get, placed]
    exact kept
  refine wp_mono (Kernel.pfFreeEnv_spec valid kept.inv placed) (fun _ kernel freed => ?_) fun _ _ => id
  obtain ⟨becomes, keeps, -⟩ := freed
  have kept := kept.pages becomes keeps (by simp) (by simp)
  rw [wp_bind, wp_get]
  cases found : state.diskEnvTabledir slot with
  | none => exact kept
  | some directory =>
      unfold pfRemoveEnvAllTables
      rw [wp_bind, wp_bind, wp_get, found]
      refine wp_mono (removeTables_spec userTables kept found (by omega)
        (fun _ below => absurd below (Nat.not_lt_zero _))) (fun _ next removed => ?_) fun _ _ => id
      obtain ⟨kept, found, empty⟩ := removed
      obtain ⟨fresh, managed, once, physical⟩ := kept.fresh slot directory found
      have bound : frameOf (toPhysicalAddress directory) < next.kernel.numberOfFrames := by
        rw [frameOf_toPhysicalAddress, kept.inv.size]
        exact (managed.pos valid).2
      have detached := kept.detach found fun index low => empty index (by omega)
      obtain ⟨put, keepsPut⟩ := kept.inv.put slot [] fresh managed 0
      have elsewhere (other root : Nat)
          (placed : Function.update next.diskEnvTabledir slot none other = some root) :
          root ∉ [directory] := by
        intro member
        obtain rfl := List.mem_singleton.1 member
        by_cases same : other = slot
        · rw [same, Function.update_self] at placed
          cases placed
        · rw [Function.update_of_ne same] at placed
          exact same (kept.distinct other slot _ placed found)
      have given := detached.pages put keepsPut (by simpa using fresh) elsewhere
      rw [wp_bind, wp_get, wp_bind, wp_onKernel, physical, wp_toFrameInfo bound, frameOf_toPhysicalAddress, wp_bind,
        wp_onKernel, wp_decrementReferences once, setTabledir, wp_modify]
      exact given

/-- An environment's own calls lose no disk frame, with and without success. -/
theorem Kept.unplaced (kept : Kept layout ram state) (unplaced : Unplaced layout ram slot state.kernel kernel') :
    Kept layout ram { state with kernel := kernel' } :=
  kept.pages unplaced.becomes unplaced.keeps (by simp) (by simp)

theorem Kept.stopped (kept : Kept layout ram state) {property : KernelState → Prop} {stop : Stop}
    (stopped : onPanic (fun kernel => Unplaced layout ram slot state.kernel kernel ∧ property kernel) stop
      kernel') : Kept layout ram { state with kernel := kernel' } := by
  cases stop with
  | panic message => exact kept.unplaced stopped.1
  | undefined access => exact stopped.elim

theorem pfAddEnvPage_spec (valid : layout.Valid) (kept : Kept layout ram state) {address : Nat}
    (low : address < userTop) (dataSrc : Page) :
    wp (onKernel (pfAddEnvPage slot address dataSrc)) (keptAfter layout ram) (keptAfter layout ram)
      state := by
  rw [wp_onKernel]
  refine wp_mono (Kernel.pfAddEnvPage_spec valid kept.inv low dataSrc) (fun _ kernel added => ?_)
    fun _ _ => kept.stopped
  rcases added with ⟨-, unplaced, -⟩ | ⟨-, _, becomes, keeps, -⟩
  · exact kept.unplaced unplaced
  · exact kept.pages becomes keeps (by simp) (by simp)

theorem pfAddEmptyEnvPage_spec (valid : layout.Valid) (kept : Kept layout ram state) {address : Nat}
    (low : address < userTop) (initializeByZero : Bool) :
    wp (onKernel (pfAddEmptyEnvPage slot address initializeByZero)) (keptAfter layout ram)
      (keptAfter layout ram) state := by
  cases initializeByZero with
  | true =>
      rw [wp_onKernel, wp_pfAddEmptyEnvPage_true, ← wp_onKernel]
      exact pfAddEnvPage_spec valid kept low _
  | false =>
      rw [wp_onKernel]
      refine wp_mono (Kernel.pfAddEmptyEnvPage_spec valid kept.inv low) (fun _ kernel added => ?_)
        fun _ _ => kept.stopped
      rcases added with ⟨-, unplaced, -⟩ | ⟨-, _, placed⟩
      · exact kept.unplaced unplaced
      · obtain ⟨_, becomes, -⟩ := placed.becomes
        exact kept.pages becomes placed.keeps (by simp) (by simp)

theorem pfRemoveEnvPage_spec (valid : layout.Valid) (kept : Kept layout ram state) {address : Nat}
    (low : address < userTop) :
    wp (onKernel (pfRemoveEnvPage slot address)) (keptAfter layout ram) (keptAfter layout ram) state := by
  rw [wp_onKernel]
  refine wp_mono (Kernel.pfRemoveEnvPage_spec valid kept.inv (low.trans (by decide)))
    (fun _ kernel removed => ?_) fun _ _ => id
  obtain ⟨becomes, keeps, -⟩ := removed
  exact kept.pages becomes keeps (by simp) (by simp)

/-- Every call keeps the page file in order, whatever comes of it. -/
theorem program_spec (valid : layout.Valid) (kept : Kept layout ram state) {call : Call}
    (inUserSpace : call.InUserSpace) :
    wp call.program (keptAfter layout ram) (keptAfter layout ram) state := by
  cases call with
  | addEnvPage slot address dataSrc =>
      rw [Call.program, wp_map]
      exact pfAddEnvPage_spec valid kept inUserSpace dataSrc
  | addEmptyEnvPage slot address initializeByZero =>
      rw [Call.program, wp_map]
      exact pfAddEmptyEnvPage_spec valid kept inUserSpace initializeByZero
  | removeEnvPage slot address =>
      rw [Call.program, wp_bind]
      exact pfRemoveEnvPage_spec valid kept inUserSpace
  | writeEnvTable slot address table =>
      rw [Call.program, wp_map]
      exact pfWriteEnvTable_spec valid kept inUserSpace table
  | removeEnvTable slot address =>
      rw [Call.program, wp_bind]
      exact pfRemoveEnvTable_spec kept inUserSpace
  | freeEnv slot =>
      rw [Call.program, wp_bind]
      exact pfFreeEnv_spec valid kept

theorem Kept.exec (valid : layout.Valid) (kept : Kept layout ram state) {call : Call}
    (inUserSpace : call.InUserSpace) (executes : exec state call = some next) : Kept layout ram next := by
  unfold TableFile.exec at executes
  rcases wp_cases (program_spec valid kept inUserSpace) with ⟨_, _, outcome, holds⟩ | ⟨stop, _, outcome, holds⟩
  · rw [outcome] at executes
    cases executes
    exact holds
  · rw [outcome] at executes
    cases stop with
    | panic message =>
        cases executes
        exact holds
    | undefined access => cases executes

/-! ### The partition -/

theorem pfCalculateFreeFrames_eq (state : TableFile) :
    state.pfCalculateFreeFrames = state.kernel.diskFreeFrameList.length := by
  have count (frames : List Nat) (start : Nat) :
      frames.foldl (fun total _ => total + 1) start = start + frames.length := by
    induction frames generalizing start with
    | nil => rfl
    | cons frame frames ih =>
        rw [List.foldl_cons, ih, List.length_cons]
        omega
  exact (count _ 0).trans (Nat.zero_add _)

/-- Every disk frame but 0 is in exactly one place. -/
structure Partitioned (state : TableFile) : Prop where
  once : ∀ diskFrame, 1 ≤ diskFrame → diskFrame < pagesPerFile →
    (state.kernel.diskFreeFrameList.count diskFrame = 1 ∧ ∀ place, state.entry place ≠ diskFrame) ∨
      (diskFrame ∉ state.kernel.diskFreeFrameList ∧ ∃! place, state.entry place = diskFrame)
  free : ∀ diskFrame ∈ state.kernel.diskFreeFrameList, 1 ≤ diskFrame ∧ diskFrame < pagesPerFile
  held : ∀ place, state.entry place < pagesPerFile
  sum : state.pfCalculateFreeFrames + Set.ncard {place | state.entry place ≠ 0} = pagesPerFile - 1

theorem holds_eq_some {place : Entry} {diskFrame : Nat} :
    state.holds place = some diskFrame ↔ diskFrame ≠ 0 ∧ state.entry place = diskFrame := by
  unfold holds
  split
  · next zero => simpa [zero] using fun some same => some same.symm
  · next some =>
      rw [Option.some.injEq]
      exact ⟨fun same => ⟨same ▸ some, same⟩, And.right⟩

theorem Kept.partitioned (kept : Kept layout ram state) : state.Partitioned where
  once diskFrame lower upper := by
    have some : diskFrame ≠ 0 := Nat.pos_iff_ne_zero.1 lower
    rcases (kept.total diskFrame).1 ⟨lower, upper⟩ with free | ⟨place, held⟩
    · refine .inl ⟨List.count_eq_one_of_mem kept.exclusive.nodup free, fun place same => ?_⟩
      exact kept.exclusive.apart place diskFrame (holds_eq_some.2 ⟨some, same⟩) free
    · refine .inr ⟨kept.exclusive.apart place diskFrame held, place, (holds_eq_some.1 held).2,
        fun other same => ?_⟩
      exact kept.exclusive.injective other place diskFrame (holds_eq_some.2 ⟨some, same⟩) held
  free diskFrame member := (kept.total diskFrame).2 (.inl member)
  held place := by
    by_cases zero : state.entry place = 0
    · rw [zero]
      decide
    · exact ((kept.total _).2 (.inr ⟨place, holds_eq_some.2 ⟨zero, rfl⟩⟩)).2
  sum := by
    have places : {place | state.entry place ≠ 0} = {place | state.holds place ≠ none} := by
      ext place
      simp [holds]
    rw [pfCalculateFreeFrames_eq, places, kept.exclusive.length_add_ncard (Finset.Ico 1 pagesPerFile)
      fun diskFrame => Finset.mem_Ico.trans (kept.total diskFrame), Nat.card_Ico]

/-- Over any run, every disk frame is free or held by one entry. -/
theorem partitioned_of_reaches (valid : layout.Valid)
    (reached : (system layout).Reaches (fun _ call => call.InUserSpace) state) : state.Partitioned := by
  have kept : ∃ ram, Kept layout ram state := by
    refine reached.invariant (fun state => ∃ ram, Kept layout ram state) ?_ ?_
    · rintro state ⟨ram, disk, rfl⟩
      exact ⟨ram, .boot valid ram disk⟩
    · rintro state call next ⟨ram, kept⟩ inUserSpace executes
      exact ⟨ram, kept.exec valid inUserSpace executes⟩
  obtain ⟨_, kept⟩ := kept
  exact kept.partitioned

theorem partitioned_of_calls : ∃ state : TableFile, state.Partitioned ∧
    state.entry (.table 0 1) = 133119 ∧ state.entry (.page 1 1) = 133117 := by
  have initial : (system .small).start ⟨BootLayout.small.boot (fun _ => Page.zero) (fun _ => Page.zero),
      fun _ => none, fun _ => 0⟩ := ⟨_, _, rfl⟩
  have permitted (state : TableFile) : ∀ call ∈ [Call.writeEnvTable 0 0x400000 Page.zero,
      .addEmptyEnvPage 1 0 false, .addEmptyEnvPage 1 0x1000 false], call.InUserSpace := by
    simp only [List.mem_cons, List.not_mem_nil, or_false, forall_eq_or_imp, forall_eq, Call.InUserSpace]
    decide
  have ran : ∃ last ∈ (system .small).run ⟨BootLayout.small.boot (fun _ => Page.zero) (fun _ => Page.zero),
      fun _ => none, fun _ => 0⟩ [Call.writeEnvTable 0 0x400000 Page.zero, .addEmptyEnvPage 1 0 false,
        .addEmptyEnvPage 1 0x1000 false],
      last.entry (.table 0 1) = 133119 ∧ last.entry (.page 1 1) = 133117 := by
    decide +kernel
  obtain ⟨last, reached, ends⟩ := System.Reaches.exists_of_run initial permitted ran
  exact ⟨last, partitioned_of_reaches BootLayout.small_valid reached, ends⟩

end TableFile

end Fos.Kernel
