import Fos.Foundation.Demand
import Fos.Kernel.PageFileProperties

/-! What kernel code takes for an environment: frames for its places, and disk frames for its pages. -/

set_option autoImplicit false

namespace Fos.Kernel

open Foundation

variable {layout : BootLayout} {ram : Nat → Page} {slot address : Nat} {hand hand' : List Nat}
  {places more : Finset Place} {filed filedMore : Finset Nat} {state next last : KernelState}

/-- The disk frames of the pages of an environment. -/
def KernelState.filing (state : KernelState) (slot : Nat) : Nat → Option Nat := fun page =>
  state.diskNames (slot, page)

/-- The places have frames and the pages have disk frames now, taken from the free lists as far as they
were missing. -/
structure Uses (slot : Nat) (places : Finset Place) (filed : Finset Nat) (state next : KernelState) : Prop where
  frames : Takes places state.freeFrameList state.names next.freeFrameList next.names
  diskFrames : Takes filed state.diskFreeFrameList (state.filing slot) next.diskFreeFrameList (next.filing slot)

/-- There are too few frames for the places, or too few disk frames for the pages. -/
def Scarce (slot : Nat) (places : Finset Place) (filed : Finset Nat) (state : KernelState) : Prop :=
  Short places state.freeFrameList state.names ∨ Short filed state.diskFreeFrameList (state.filing slot)

theorem Uses.refl (slot : Nat) (state : KernelState) : Uses slot ∅ ∅ state state := ⟨.refl _ _, .refl _ _⟩

theorem Uses.trans (first : Uses slot places filed state next) (second : Uses slot more filedMore next last) :
    Uses slot (places ∪ more) (filed ∪ filedMore) state last :=
  ⟨first.frames.trans second.frames, first.diskFrames.trans second.diskFrames⟩

theorem Uses.scarce (first : Uses slot places filed state next) (scarce : Scarce slot more filedMore next) :
    Scarce slot (places ∪ more) (filed ∪ filedMore) state :=
  scarce.imp first.frames.short first.diskFrames.short

theorem Scarce.mono (scarce : Scarce slot places filed state) (subset : places ⊆ more)
    (filedSubset : filed ⊆ filedMore) : Scarce slot more filedMore state :=
  scarce.imp (Short.mono · subset) (Short.mono · filedSubset)

/-- What was taken is for some of the places and for some of the pages. -/
def Spends (slot : Nat) (places : Finset Place) (filed : Finset Nat) (state next : KernelState) : Prop :=
  ∃ used ⊆ places, ∃ usedFiled ⊆ filed, Uses slot used usedFiled state next

theorem Uses.spends (uses : Uses slot places filed state next) (subset : places ⊆ more)
    (filedSubset : filed ⊆ filedMore) : Spends slot more filedMore state next :=
  ⟨places, subset, filed, filedSubset, uses⟩

theorem Uses.spends_empty (uses : Uses slot ∅ ∅ state next) : Spends slot places filed state next :=
  uses.spends (Finset.empty_subset _) (Finset.empty_subset _)

namespace Spends

theorem refl (slot : Nat) (places : Finset Place) (filed : Finset Nat) (state : KernelState) :
    Spends slot places filed state state := (Uses.refl slot state).spends_empty

theorem trans (first : Spends slot places filed state next) (second : Spends slot places filed next last) :
    Spends slot places filed state last := by
  obtain ⟨used, inPlaces, usedFiled, inFiled, uses⟩ := first
  obtain ⟨later, laterInPlaces, laterFiled, laterInFiled, usesLater⟩ := second
  exact (uses.trans usesLater).spends (Finset.union_subset inPlaces laterInPlaces)
    (Finset.union_subset inFiled laterInFiled)

/-- What is too little after some of it was taken is too little from the start. -/
theorem scarce (first : Spends slot places filed state next) (scarce : Scarce slot places filed next) :
    Scarce slot places filed state := by
  obtain ⟨used, inPlaces, usedFiled, inFiled, uses⟩ := first
  exact (uses.scarce scarce).mono (Finset.union_subset inPlaces (Finset.Subset.refl _))
    (Finset.union_subset inFiled (Finset.Subset.refl _))

end Spends

theorem names_ne_none_root {side : Side} : state.names (.root side slot) ≠ none ↔ state.root side slot ≠ 0 := by
  simp [KernelState.names]

theorem names_ne_none_table {side : Side} {index : Nat} :
    state.names (.table side slot index) ≠ none ↔ state.dirWord side slot index ≠ 0 := by
  simp [KernelState.names]

theorem names_ne_none_page {page : Nat} :
    state.names (.page slot page) ≠ none ↔ state.leaf .user slot page ≠ 0 := by
  simp [KernelState.names]

theorem filing_ne_none {page : Nat} : state.filing slot page ≠ none ↔ state.leaf .disk slot page ≠ 0 := by
  simp [KernelState.filing, KernelState.diskNames]

/-- Where no page is unmapped, no place loses its frame. -/
theorem Stable.names_kept (stable : Stable slot state next) (acts : Acts slot hand state hand' next)
    (ledger : Ledger layout state) (inHand : ∀ frame ∈ hand, state.Fresh frame)
    (mapped : ∀ page, state.leaf .user slot page ≠ 0 → next.leaf .user slot page ≠ 0) (place : Place)
    (named : state.names place ≠ none) : next.names place ≠ none := by
  cases decEq place.slot slot with
  | isFalse different =>
      rw [acts.names_other ledger inHand different]
      exact named
  | isTrue own =>
      subst own
      cases place with
      | root side slot =>
          rw [names_ne_none_root] at named ⊢
          cases side with
          | user => exact stable.root_user ▸ named
          | disk =>
              have some : (state.envs slot).diskEnvPgdir ≠ none := by
                rw [diskEnvPgdir_eq named]
                exact Option.some_ne_none _
              rw [KernelState.root] at named ⊢
              have same : next.envs slot = state.envs slot := stable.placed some
              rwa [same]
      | table side slot index =>
          rw [names_ne_none_table] at named ⊢
          exact stable.present named
      | page slot page =>
          rw [names_ne_none_page] at named ⊢
          exact mapped page named

/-- The disk frames of one environment are apart, as all are. -/
theorem Ledger.filing_exclusive (ledger : Ledger layout state) (slot : Nat) :
    Exclusive state.diskFreeFrameList (state.filing slot) where
  nodup := ledger.diskExclusive.nodup
  injective _ _ _ named otherNamed := (Prod.mk.inj (ledger.diskExclusive.injective _ _ _ named otherNamed)).2
  apart _ _ named := ledger.diskExclusive.apart _ _ named

/-- Code that takes nothing from the free lists. -/
theorem Uses.of_stable (stable : Stable slot state next) (acts : Acts slot [] state [] next)
    (ledger : Ledger layout state) (mapped : ∀ page, state.leaf .user slot page ≠ 0 → next.leaf .user slot page ≠ 0)
    (placed : ∀ page, state.leaf .disk slot page ≠ 0 → next.leaf .disk slot page ≠ 0)
    (free : state.freeFrameList.length ≤ next.freeFrameList.length)
    (diskFree : state.diskFreeFrameList.length ≤ next.diskFreeFrameList.length) : Uses slot ∅ ∅ state next where
  frames := .of_kept (stable.names_kept acts ledger (List.forall_mem_nil _) mapped) free
  diskFrames := by
    apply Takes.of_kept _ diskFree
    intro page
    rw [filing_ne_none, filing_ne_none]
    exact placed page

/-- A record with the same directories. -/
theorem Uses.setEnv (env : Env) (directory : env.envPageDirectory = (state.envs slot).envPageDirectory)
    (disk : env.diskEnvPgdir = (state.envs slot).diskEnvPgdir) : Uses slot ∅ ∅ state (state.setEnv slot env) := by
  have roots (side : Side) (other : Nat) : (state.setEnv slot env).root side other = state.root side other := by
    cases side <;> simp only [KernelState.root, KernelState.setEnv] <;> split <;> simp only [*]
  have dirs (side : Side) (other index : Nat) : (state.setEnv slot env).dirWord side other index =
      state.dirWord side other index := dirWord_congr (roots side other) fun _ => rfl
  have leaves (side : Side) (other page : Nat) : (state.setEnv slot env).leaf side other page =
      state.leaf side other page := leaf_congr (dirs side other _) fun _ => rfl
  have names : (state.setEnv slot env).names = state.names := names_congr roots dirs (leaves .user)
  have diskNames : (state.setEnv slot env).diskNames = state.diskNames := diskNames_congr (leaves .disk)
  constructor
  · rw [names]
    exact .refl _ _
  · have filing : (state.setEnv slot env).filing slot = state.filing slot := by
      funext page
      simp only [KernelState.filing, diskNames]
    rw [filing]
    exact .refl _ _

theorem Spends.of_setEnv {env : Env} (same : next = state.setEnv slot env)
    (directory : env.envPageDirectory = (state.envs slot).envPageDirectory)
    (disk : env.diskEnvPgdir = (state.envs slot).diskEnvPgdir) : Spends slot places filed state next := by
  rw [same]
  exact (Uses.setEnv env directory disk).spends_empty

/-! ### Pages of the page file -/

/-- The places a page of the page file needs. -/
def diskPlaces (slot page : Nat) : Finset Place := {.root .disk slot, .table .disk slot (page / 1024)}

theorem unmet_diskPlaces (slot page : Nat) : unmet (diskPlaces slot page) state.names =
    (if state.root .disk slot = 0 then 1 else 0) + if state.dirWord .disk slot (page / 1024) = 0 then 1 else 0 := by
  rw [diskPlaces, unmet_pair (by simp)]
  simp [KernelState.names]

theorem unmet_filing (slot page : Nat) : unmet {page} (state.filing slot) =
    if state.leaf .disk slot page = 0 then 1 else 0 := by
  rw [unmet_singleton]
  simp [KernelState.filing, KernelState.diskNames]

/-- What is taken at most. -/
theorem addDiskFrame_taken (valid : layout.Valid) (inv : Inv layout ram state) (low : address < userTop) :
    wp (addDiskFrame slot address) (fun _ next =>
      state.freeFrameList.length ≤ next.freeFrameList.length + unmet (diskPlaces slot (pageOf address)) state.names ∧
      state.diskFreeFrameList.length ≤ next.diskFreeFrameList.length + unmet {pageOf address} (state.filing slot))
      (onPanic fun _ => Short (diskPlaces slot (pageOf address)) state.freeFrameList state.names) state := by
  have inKernel : ¬ kernelBase ≤ address := not_le.2 (low.trans (by decide))
  simp only [Short, unmet_diskPlaces, unmet_filing, addDiskFrame, if_neg inKernel, wp_bind]
  apply wp_mono (getDiskPageDirectory_spec valid inv)
  · rintro _ first ⟨becomesFirst, -, calmFirst, rfl, live, dirs, unchanged, takenFirst⟩
    have taken : state.freeFrameList.length ≤ first.freeFrameList.length +
        if state.root .disk slot = 0 then 1 else 0 := by
      split
      · exact takenFirst
      · next some =>
          have placed : (state.envs slot).diskEnvPgdir ≠ none := by
            rw [diskEnvPgdir_eq some]
            exact Option.some_ne_none _
          rw [unchanged placed]
          exact Nat.le_add_right ..
    apply wp_mono (getDiskPageTable_spec valid becomesFirst.inv live low)
    · rintro _ second ⟨becomesSecond, -, calmSecond, ⟨table, rfl, found⟩, takenSecond⟩
      obtain ⟨present, tableFrame⟩ := tableAt_eq_some found
      have entry := mem_table present
      rw [tableFrame, becomesSecond.diskFrame, becomesFirst.space] at entry
      have diskFree := (calmFirst.trans calmSecond).diskFree
      rw [dirs] at takenSecond
      simp only [wp_bind, wp_get, entry]
      cases decEq ((state.space slot).diskFrame (pageOf address)) 0 with
      | isTrue unplaced =>
          have zero : state.leaf .disk slot (pageOf address) = 0 := unplaced
          simp only [unplaced, zero, if_true, allocateDiskFrame, wp_bind, wp_get]
          cases free : second.diskFreeFrameList with
          | nil =>
              simp only [wp_pure, ← diskFree, free, List.length_nil]
              omega
          | cons diskFrame rest =>
              simp only [wp_bind, wp_modify, wp_pure, ← diskFree, free, List.length_cons]
              exact ⟨by simpa using by omega, le_refl _⟩
      | isFalse placed =>
          simp only [if_neg placed, wp_pure, diskFree]
          omega
    · intro stop second stopped
      apply onPanic.mono _ stopped
      rintro _ ⟨-, free, absent⟩
      rw [dirs] at absent
      rw [free] at taken
      simp only [absent, if_true]
      exact Nat.lt_succ_of_le (by simpa using taken)
  · intro stop first stopped
    apply onPanic.mono _ stopped
    rintro _ ⟨-, absent, free⟩
    have none : state.root .disk slot = 0 := by
      rw [KernelState.root, absent]
      rfl
    rw [free, if_pos none]
    exact Nat.lt_of_lt_of_le Nat.zero_lt_one (Nat.le_add_right ..)

/-- A page that is added has what it needs, or there are too few disk frames. -/
theorem pfAddEnvPage_uses (valid : layout.Valid) (inv : Inv layout ram state) (low : address < userTop)
    (dataSrc : Page) :
    wp (pfAddEnvPage slot address dataSrc) (fun result next =>
      if result = eNoPageFileSpace then Scarce slot ∅ {pageOf address} state
      else Uses slot (diskPlaces slot (pageOf address)) {pageOf address} state next)
      (onPanic fun _ => Scarce slot (diskPlaces slot (pageOf address)) ∅ state) state := by
  have takes : wp (pfAddEnvPage slot address dataSrc) (fun _ next =>
      state.freeFrameList.length ≤ next.freeFrameList.length + unmet (diskPlaces slot (pageOf address)) state.names ∧
      state.diskFreeFrameList.length ≤ next.diskFreeFrameList.length + unmet {pageOf address} (state.filing slot))
      (onPanic fun _ => Short (diskPlaces slot (pageOf address)) state.freeFrameList state.names) state := by
    rw [pfAddEnvPage, wp_bind]
    apply wp_mono (addDiskFrame_taken valid inv low)
    · intro result next taken
      cases result with
      | none => exact taken
      | some diskFrame => exact taken
    · exact fun _ _ short => short
  apply wp_mono (wp_both (pfAddEnvPage_spec valid inv low dataSrc) takes)
  · rintro result next ⟨⟨rfl, -, full, unplaced, -⟩ | ⟨rfl, diskFrame, becomes, -, stable, positive, -⟩, taken, takenDisk⟩
    · rw [if_pos rfl]
      apply Or.inr
      rw [Short, unmet_filing, if_pos unplaced, full]
      exact Nat.zero_lt_one
    · rw [if_neg (by decide)]
      have placed : next.leaf .disk slot = Function.update (state.leaf .disk slot) (pageOf address) diskFrame :=
        congrArg Space.diskFrame becomes.space
      have here : next.leaf .disk slot (pageOf address) ≠ 0 := by
        rw [placed, Function.update_self]
        exact positive
      have table := KernelState.dirWord_ne_zero_of_leaf here
      constructor
      · refine ⟨stable.names_kept becomes.acts inv.toLedger (List.forall_mem_nil _) fun page => ?_, ?_, taken⟩
        · rw [becomes.entry]
          exact id
        · simp only [diskPlaces, Finset.mem_insert, Finset.mem_singleton, forall_eq_or_imp, forall_eq,
            names_ne_none_root, names_ne_none_table]
          exact ⟨(KernelState.root_ne_zero_of_dirWord table).1, table⟩
      · refine ⟨fun page => ?_, fun page member => ?_, takenDisk⟩
        · rw [filing_ne_none, filing_ne_none, placed]
          intro some
          cases decEq page (pageOf address) with
          | isTrue same => rwa [same, Function.update_self]
          | isFalse different => rwa [Function.update_of_ne different]
        · rw [Finset.mem_singleton.1 member, filing_ne_none]
          exact here
  · rintro stop next ⟨-, short⟩
    exact onPanic.mono (fun _ => .inl) short

/-! ### Pages in memory -/

/-- The places a page in memory needs. -/
def pagePlaces (slot page : Nat) : Finset Place := {.page slot page, .table .user slot (page / 1024)}

theorem unmet_pagePlaces (slot page : Nat) : unmet (pagePlaces slot page) state.names =
    (if state.leaf .user slot page = 0 then 1 else 0) + if state.dirWord .user slot (page / 1024) = 0 then 1 else 0 := by
  rw [pagePlaces, unmet_pair (by simp)]
  simp [KernelState.names]

/-- A page got an entry for a frame from the free list. -/
structure Supplied (layout : BootLayout) (ram : Nat → Page) (slot page entry : Nat) (content : Page)
    (state next : KernelState) : Prop where
  becomes : SpaceBecomes layout ram slot [] state [] next ((state.space slot).map page entry content)
  keeps : state.leaf .user slot page = 0 → Keeps slot [] state [] next
  calm : Calm slot state next
  uses : state.leaf .user slot page = 0 → Uses slot (pagePlaces slot page) ∅ state next

/-- No frame was left for a page or for its page table. -/
structure Unsupplied (layout : BootLayout) (ram : Nat → Page) (slot page : Nat) (state next : KernelState) : Prop where
  inv : Inv layout ram next
  acts : Acts slot [] state [] next
  scarce : state.leaf .user slot page = 0 → Scarce slot (pagePlaces slot page) ∅ state

/-- A frame from the free list is mapped at load time. -/
theorem wp_allocate_loadtimeMapFrame (valid : layout.Valid) (inv : Inv layout ram state)
    (live : state.root .user slot ≠ 0) (low : address < userTop) {permissions : Nat}
    (lowPermissions : permissions < pageSize) {post : KernelState → Prop} {fail : Stop → KernelState → Prop}
    (continues : ∀ frame next, Supplied layout ram slot (pageOf address) (pageEntry frame permissions)
      (state.mem frame).words state next → post next)
    (stops : ∀ stop next, onPanic (Unsupplied layout ram slot (pageOf address) state) stop next → fail stop next) :
    wp allocateFrame (fun frame taken => wp (loadtimeMapFrame (taken.root .user slot) frame address permissions)
      (fun _ => post) fail taken) fail state := by
  apply wp_mono (allocateFrame_spec inv slot)
  · rintro frame taken ⟨becomesTake, keepsTake, calmTake, fresh, managed, unreferenced, mem, free⟩
    have live : taken.root .user slot ≠ 0 := calmTake.root_user ▸ live
    have absent : taken.dirWord .user slot (pageOf address / 1024) = 0 →
        state.dirWord .user slot (pageOf address / 1024) = 0 := by
      intro missing
      by_contra present
      exact calmTake.present present missing
    apply wp_mono (loadtimeMapFrame_spec valid becomesTake.inv live low fresh managed unreferenced lowPermissions)
    · rintro _ mapped ⟨becomesMap, keepsMap, calmMap, freeMap⟩
      apply continues frame
      have acts := becomesTake.acts.trans becomesMap.acts
      have calm := calmTake.trans calmMap
      have entry : mapped.leaf .user slot = Function.update (state.leaf .user slot) (pageOf address)
          (pageEntry frame permissions) := by
        have entries := congrArg Space.entry becomesMap.space
        rw [becomesTake.space] at entries
        exact entries
      have here : mapped.leaf .user slot (pageOf address) ≠ 0 := by
        rw [entry, Function.update_self]
        exact pageEntry_ne_zero frame lowPermissions
      refine ⟨⟨becomesMap.inv, acts, ?_⟩, fun unmapped => keepsTake.trans (keepsMap ?_), calm, fun unmapped => ⟨?_, ?_⟩⟩
      · rw [becomesMap.space, becomesTake.space, mem]
      · rw [becomesTake.entry]
        exact unmapped
      · refine ⟨calm.names_kept acts inv.toLedger (List.forall_mem_nil _) fun page some => ?_, ?_, ?_⟩
        · rw [entry]
          cases decEq page (pageOf address) with
          | isTrue same => rw [same, ← entry]; exact here
          | isFalse different => rwa [Function.update_of_ne different]
        · simp only [pagePlaces, Finset.mem_insert, Finset.mem_singleton, forall_eq_or_imp, forall_eq,
            names_ne_none_page, names_ne_none_table]
          exact ⟨here, KernelState.dirWord_ne_zero_of_leaf here⟩
        · rw [unmet_pagePlaces, if_pos unmapped, free, List.length_cons]
          split at freeMap
          · next missing =>
              rw [if_pos (absent missing)]
              omega
          · omega
      · apply Takes.of_kept _ (congrArg List.length calm.diskFree).ge
        intro page
        have same : mapped.leaf .disk slot page = state.leaf .disk slot page :=
          (becomesMap.diskFrame page).trans (becomesTake.diskFrame page)
        rw [filing_ne_none, filing_ne_none, same]
        exact id
    · intro stop next stopped
      apply stops
      apply onPanic.mono _ stopped
      rintro _ ⟨rfl, noMemory, missing⟩
      refine ⟨becomesTake.inv, becomesTake.drop.acts, fun unmapped => .inl ?_⟩
      rw [Short, unmet_pagePlaces, if_pos unmapped, if_pos (absent missing), free, noMemory]
      exact Nat.lt_succ_self 1
  · intro stop next stopped
    apply stops
    apply onPanic.mono _ stopped
    rintro _ ⟨rfl, free⟩
    refine ⟨inv, .refl slot [] _, fun unmapped => .inl ?_⟩
    rw [Short, unmet_pagePlaces, if_pos unmapped, free]
    exact Nat.lt_of_lt_of_le Nat.zero_lt_one (Nat.le_add_right ..)

end Fos.Kernel
