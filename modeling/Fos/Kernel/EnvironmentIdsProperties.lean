import Fos.Foundation.Weakest
import Fos.Kernel.EnvironmentIds
import Mathlib.Data.List.Nodup
import Mathlib.Tactic.IntervalCases

/-! Every environment gets the first generation of its slot, since freeing clears the id, and
the index of an id loses one bit in the lookup. -/

set_option autoImplicit false

namespace Fos.Kernel

open Foundation

variable {layout : BootLayout} {state next : KernelState} {slot : Nat} {roster : Roster}

/-- `NENV` for the 32-bit layout of `struct Env`. -/
theorem nenv_eq : nenv = ptSize / 4 / sizeofEnv := by decide

/-! ### Creating and freeing -/

/-- The only id a slot ever gives. -/
def slotId (slot : Nat) : Int := 0x1000 + slot

theorem slotId_inj {slot other : Nat} (same : slotId slot = slotId other) : slot = other := by
  simp only [slotId] at same
  omega

theorem slotId_ne_zero (slot : Nat) : slotId slot ≠ 0 := by
  simp only [slotId]
  omega

theorem generation_slotId (low : slot < nenv) : generationOf (slotId slot) = 1 := by
  simp only [nenv] at low
  interval_cases slot <;> decide

/-- The id that is made from a cleared one. -/
private theorem firstId (low : slot < nenv) :
    toInt32 (toUInt32 (if toInt32 (toUInt32 (0 + 0x1000) &&& (wordSize - 1 - (nenv - 1))) ≤ 0
      then 0x1000 else toInt32 (toUInt32 (0 + 0x1000) &&& (wordSize - 1 - (nenv - 1)))) ||| slot) =
      slotId slot := by
  simp only [nenv] at low
  interval_cases slot <;> decide

/-- What making an environment in a slot does to the table. -/
structure MadeIn (slot : Nat) (state next : KernelState) : Prop where
  list : next.envFreeList = state.envFreeList.erase slot
  others : ∀ other, other ≠ slot → next.envs other = state.envs other
  status : (next.envs slot).envStatus = .new
  envId : slot < nenv → (state.envs slot).envId = 0 → (next.envs slot).envId = slotId slot

theorem completeEnvironmentInitialization_made :
    wp (completeEnvironmentInitialization slot) (fun _ next => MadeIn slot state next)
      (fun _ _ => False) state := by
  simp only [completeEnvironmentInitialization, modifyEnv, wp_bind, wp_get, wp_modify]
  refine ⟨rfl, fun other different => if_neg different, ?_, fun low zero => ?_⟩
  · simp
  · simp only [KernelState.setEnvFreeList_envs, KernelState.setEnv_envs, KernelState.writeWord_envs,
      if_true, zero]
    exact firstId low

theorem initializeEnvironment_made {directory : Nat} :
    wp (initializeEnvironment slot directory) (fun _ next => MadeIn slot state next)
      (fun _ _ => True) state := by
  simp only [initializeEnvironment, modifyEnv, wp_bind, wp_get, wp_modify, wp_ite]
  refine ⟨fun _ => trivial, fun _ => ?_⟩
  refine wp_mono completeEnvironmentInitialization_made (fun _ next made => ?_) fun _ _ _ => trivial
  refine ⟨made.list, fun other different => ?_, made.status, fun low zero => made.envId low ?_⟩
  · rw [made.others other different]
    simp [different]
  · simpa using zero

/-- A creation takes the first slot of the free list. -/
theorem createEnvironment_spec {directory pageWSSize : Nat} :
    wp (createEnvironment directory pageWSSize) (fun result next =>
      (state.envFreeList = [] ∧ result = none ∧ next = state) ∨
        ∃ slot rest, state.envFreeList = slot :: rest ∧ result = some slot ∧
          MadeIn slot state next) (fun _ _ => True) state := by
  simp only [createEnvironment, allocateEnvironment, modifyEnv, wp_bind, wp_get]
  cases free : state.envFreeList with
  | nil => exact .inl ⟨rfl, rfl, rfl⟩
  | cons slot rest =>
      simp only [wp_bind, wp_modify, wp_pure]
      refine wp_mono initializeEnvironment_made (fun _ next made => ?_) fun _ _ _ => trivial
      refine .inr ⟨slot, rest, rfl, rfl, ?_, fun other different => ?_, made.status,
        fun low zero => made.envId low ?_⟩
      · rw [made.list]
        exact congrArg (List.erase · slot) rfl
      · rw [made.others other different]
        simp [different]
      · simpa using zero

/-! ### The table -/

/-- The free list has each free slot once, and an environment has the id of its slot. -/
structure KernelState.Tabled (state : KernelState) : Prop where
  nodup : state.envFreeList.Nodup
  low : ∀ slot ∈ state.envFreeList, slot < nenv
  free : ∀ slot ∈ state.envFreeList,
    (state.envs slot).envStatus = .free ∧ (state.envs slot).envId = 0
  used : ∀ slot, slot < nenv → slot ∉ state.envFreeList →
    (state.envs slot).envStatus ≠ .free ∧ (state.envs slot).envId = slotId slot

namespace KernelState.Tabled

theorem occupied_iff (tabled : state.Tabled) :
    state.Occupied slot ↔ slot < nenv ∧ slot ∉ state.envFreeList := by
  constructor
  · rintro ⟨low, live⟩
    exact ⟨low, fun member => live (tabled.free slot member).1⟩
  · rintro ⟨low, apart⟩
    exact ⟨low, (tabled.used slot low apart).1⟩

theorem envId_eq (tabled : state.Tabled) (occupied : state.Occupied slot) :
    (state.envs slot).envId = slotId slot := by
  obtain ⟨low, apart⟩ := tabled.occupied_iff.1 occupied
  exact (tabled.used slot low apart).2

theorem boot (ram disk : Nat → Page) : (layout.boot ram disk).Tabled where
  nodup := List.nodup_range
  low _ member := List.mem_range.1 member
  free _ _ := ⟨rfl, rfl⟩
  used _ low apart := absurd (List.mem_range.2 low) apart

theorem made {rest : List Nat} (tabled : state.Tabled) (free : state.envFreeList = slot :: rest)
    (made : MadeIn slot state next) :
    next.Tabled ∧ next.envFreeList = rest ∧ slot < nenv ∧ slot ∉ rest ∧
      (next.envs slot).envId = slotId slot := by
  have nodup := tabled.nodup
  rw [free] at nodup
  obtain ⟨apart, nodup⟩ := List.nodup_cons.1 nodup
  have list : next.envFreeList = rest := by
    rw [made.list, free, List.erase_cons_head]
  have low := tabled.low slot (free ▸ List.mem_cons_self ..)
  have zero := (tabled.free slot (free ▸ List.mem_cons_self ..)).2
  have envId := made.envId low zero
  refine ⟨⟨list ▸ nodup, ?_, ?_, ?_⟩, list, low, apart, envId⟩
  · intro other member
    rw [list] at member
    exact tabled.low other (free ▸ List.mem_cons_of_mem _ member)
  · intro other member
    rw [list] at member
    have different : other ≠ slot := fun same => apart (same ▸ member)
    rw [made.others other different]
    exact tabled.free other (free ▸ List.mem_cons_of_mem _ member)
  · intro other otherLow outside
    rw [list] at outside
    by_cases same : other = slot
    · subst same
      rw [made.status, envId]
      exact ⟨by decide, rfl⟩
    · rw [made.others other same]
      refine tabled.used other otherLow fun member => ?_
      rw [free] at member
      exact (List.mem_cons.1 member).elim same outside

/-- An environment is freed. -/
theorem freed (tabled : state.Tabled) (occupied : state.Occupied slot) :
    ((state.setEnv slot Env.zero).setEnvFreeList (slot :: state.envFreeList)).Tabled := by
  obtain ⟨low, apart⟩ := tabled.occupied_iff.1 occupied
  refine ⟨List.nodup_cons.2 ⟨apart, tabled.nodup⟩, ?_, ?_, ?_⟩
  · exact List.forall_mem_cons.2 ⟨low, tabled.low⟩
  · intro other member
    by_cases same : other = slot
    · simp [same, Env.zero]
    · simp only [KernelState.setEnvFreeList_envs, KernelState.setEnv_envs, if_neg same]
      exact tabled.free other ((List.mem_cons.1 member).resolve_left same)
  · intro other otherLow outside
    obtain ⟨different, rest⟩ := not_or.1 (mt List.mem_cons.2 outside)
    simp only [KernelState.setEnvFreeList_envs, KernelState.setEnv_envs, if_neg different]
    exact tabled.used other otherLow rest

end KernelState.Tabled

/-! ### Lookups -/

theorem envx_lt (envid : Int) : envx envid < nenv :=
  Nat.and_le_right.trans_lt (by decide)

theorem envx_slotId (low : slot < nenv) : envx (slotId slot) = slot &&& (nenv - 1) := by
  simp only [nenv] at low
  interval_cases slot <;> decide

/-- Without a check of permissions the lookup reads one slot of the table. -/
theorem envid2env_eq {envid : Int} (some : envid ≠ 0) :
    envid2env envid false state =
      if (state.envs (envx envid)).envStatus = .free ∨ (state.envs (envx envid)).envId ≠ envid then
        .ok (eBadEnv, none) state
      else .ok (0, Option.some (envx envid)) state := by
  have run : envid2env envid false state = (if envid = 0 then (pure (0, state.curenv) : KernelM _)
      else if (state.envs (envx envid)).envStatus = .free ∨ (state.envs (envx envid)).envId ≠ envid then
        pure (eBadEnv, none)
      else pure (0, Option.some (envx envid))) state := rfl
  rw [run, if_neg some]
  split <;> rfl

theorem KernelState.Tabled.lookup_iff (tabled : state.Tabled) (occupied : state.Occupied slot) :
    state.Finds (state.envs slot).envId slot ↔ slot &&& (nenv - 1) = slot := by
  have low := occupied.1
  rw [KernelState.Finds, tabled.envId_eq occupied, envid2env_eq (slotId_ne_zero slot),
    envx_slotId low]
  constructor
  · intro found
    split at found
    · cases found
    · injection found with pair
      exact Option.some.inj (Prod.mk.inj pair).2
  · intro same
    rw [same, if_neg]
    exact not_or.2 ⟨occupied.2, not_not.2 (tabled.envId_eq occupied)⟩

/-- An id of no environment is refused. -/
theorem KernelState.refuses_of_unknown {envid : Int} (some : envid ≠ 0)
    (unknown : ∀ slot, state.Occupied slot → (state.envs slot).envId ≠ envid) :
    state.Refuses envid := by
  rw [KernelState.Refuses, envid2env_eq some, if_pos]
  by_cases free : (state.envs (envx envid)).envStatus = .free
  · exact .inl free
  · exact .inr (unknown _ ⟨envx_lt envid, free⟩)

/-! ### Runs -/

/-- What a run of creations and frees has left. -/
structure Roster.Kept (roster : Roster) : Prop where
  tabled : roster.kernel.Tabled
  ids : ∀ identity ∈ roster.created, identity.slot < nenv ∧ identity.envId = slotId identity.slot
  recorded : ∀ slot, roster.kernel.Occupied slot → slot ∈ roster.created.map Identity.slot
  freedIds : ∀ identity ∈ roster.freed, identity.envId = slotId identity.slot ∧
    .free identity.slot ∈ roster.events
  /-- Where nothing was created after a free, every slot is used once. -/
  once : NoneAfterFree roster.events → (roster.created.map Identity.slot).Nodup ∧
    ∀ identity ∈ roster.freed, identity.slot ∈ roster.kernel.envFreeList
  live : (∀ slot, .free slot ∉ roster.events) →
    ∀ slot ∈ roster.created.map Identity.slot, slot ∉ roster.kernel.envFreeList
  /-- The slot that was freed last is used next. -/
  next : ∀ slot, .free slot ∈ roster.events → NoneAfterFree roster.events →
    ∃ first rest, roster.kernel.envFreeList = first :: rest ∧
      first ∈ roster.created.map Identity.slot
  reused : ¬ NoneAfterFree roster.events → ¬ (roster.created.map Identity.slot).Nodup

namespace Roster.Kept

theorem start (ram disk : Nat → Page) : (⟨layout.boot ram disk, [], [], []⟩ : Roster).Kept where
  tabled := .boot ram disk
  ids _ member := by cases member
  recorded _ occupied := absurd rfl occupied.2
  freedIds _ member := by cases member
  once _ := ⟨List.nodup_nil, fun _ member => by cases member⟩
  live _ _ member := by cases member
  next _ member := by cases member
  reused reuse := absurd trivial reuse

theorem create {directory pageWSSize first : Nat} {rest : List Nat} (kept : roster.Kept)
    (free : roster.kernel.envFreeList = first :: rest) (made : MadeIn first roster.kernel next) :
    (⟨next, .create directory pageWSSize :: roster.events,
      ⟨first, (next.envs first).envId⟩ :: roster.created, roster.freed⟩ : Roster).Kept := by
  obtain ⟨tabled, list, low, apart, envId⟩ := kept.tabled.made free made
  have isFree : first ∈ roster.kernel.envFreeList := by
    rw [free]
    exact List.mem_cons_self ..
  refine ⟨tabled, ?_, ?_, ?_, ?_, ?_, ?_, ?_⟩
  · exact List.forall_mem_cons.2 ⟨⟨low, envId⟩, kept.ids⟩
  · intro slot occupied
    by_cases same : slot = first
    · exact List.mem_cons.2 (.inl same)
    · refine List.mem_cons_of_mem _ (kept.recorded slot ⟨occupied.1, ?_⟩)
      rw [← made.others slot same]
      exact occupied.2
  · intro identity member
    obtain ⟨id, was⟩ := kept.freedIds identity member
    exact ⟨id, List.mem_cons_of_mem _ was⟩
  · rintro ⟨noFree, noReuse⟩
    refine ⟨List.nodup_cons.2 ⟨fun member => kept.live noFree first member isFree,
      (kept.once noReuse).1⟩, fun identity member => ?_⟩
    exact absurd (kept.freedIds identity member).2 (noFree identity.slot)
  · intro noFree slot member
    have noFreeBefore : ∀ slot, .free slot ∉ roster.events := fun slot was =>
      noFree slot (List.mem_cons_of_mem _ was)
    rw [list]
    cases List.mem_cons.1 member with
    | inl same => exact same ▸ apart
    | inr before =>
        intro inRest
        refine kept.live noFreeBefore slot before ?_
        rw [free]
        exact List.mem_cons_of_mem _ inRest
  · rintro slot was ⟨noFree, -⟩
    cases List.mem_cons.1 was with
    | inl same => cases same
    | inr before => exact absurd before (noFree slot)
  · intro reuse nodup
    obtain ⟨notBefore, nodup⟩ := List.nodup_cons.1 nodup
    by_cases noReuse : NoneAfterFree roster.events
    · -- the slot on top of the free list was freed before
      have some : ∃ slot, .free slot ∈ roster.events := by
        by_contra none
        exact reuse ⟨not_exists.1 none, noReuse⟩
      obtain ⟨slot, was⟩ := some
      obtain ⟨top, others, split, recorded⟩ := kept.next slot was noReuse
      rw [free] at split
      obtain ⟨rfl, -⟩ := List.cons.inj split
      exact notBefore recorded
    · exact kept.reused noReuse nodup

/-- A creation that finds no free slot. -/
theorem createNone {directory pageWSSize : Nat} (kept : roster.Kept)
    (empty : roster.kernel.envFreeList = []) :
    ({ roster with events := .create directory pageWSSize :: roster.events } : Roster).Kept := by
  refine ⟨kept.tabled, kept.ids, kept.recorded, ?_, ?_, ?_, ?_, ?_⟩
  · intro identity member
    obtain ⟨id, was⟩ := kept.freedIds identity member
    exact ⟨id, List.mem_cons_of_mem _ was⟩
  · exact fun noReuse => kept.once noReuse.2
  · exact fun noFree => kept.live fun slot was => noFree slot (List.mem_cons_of_mem _ was)
  · rintro slot was ⟨noFree, -⟩
    cases List.mem_cons.1 was with
    | inl same => cases same
    | inr before => exact absurd before (noFree slot)
  · intro reuse
    refine kept.reused fun noReuse => reuse ⟨fun slot was => ?_, noReuse⟩
    obtain ⟨top, others, split, -⟩ := kept.next slot was noReuse
    rw [empty] at split
    cases split

theorem free (kept : roster.Kept) (occupied : roster.kernel.Occupied slot) :
    (⟨(roster.kernel.setEnv slot Env.zero).setEnvFreeList (slot :: roster.kernel.envFreeList),
      .free slot :: roster.events, roster.created, roster.identity slot :: roster.freed⟩ :
      Roster).Kept := by
  refine ⟨kept.tabled.freed occupied, kept.ids, ?_, ?_, ?_, ?_, ?_, kept.reused⟩
  · intro other still
    by_cases same : other = slot
    · exact kept.recorded other (same ▸ occupied)
    · refine kept.recorded other ⟨still.1, ?_⟩
      have live := still.2
      simpa [same] using live
  · refine List.forall_mem_cons.2 ⟨⟨kept.tabled.envId_eq occupied, List.mem_cons_self ..⟩, ?_⟩
    intro identity member
    obtain ⟨id, was⟩ := kept.freedIds identity member
    exact ⟨id, List.mem_cons_of_mem _ was⟩
  · intro noReuse
    obtain ⟨nodup, freed⟩ := kept.once noReuse
    refine ⟨nodup, List.forall_mem_cons.2 ⟨List.mem_cons_self .., ?_⟩⟩
    exact fun identity member => List.mem_cons_of_mem _ (freed identity member)
  · exact fun noFree => absurd (List.mem_cons_self ..) (noFree slot)
  · intro _ _ _
    exact ⟨slot, _, rfl, kept.recorded slot occupied⟩

theorem exec {event : TableEvent} {after : Roster} (kept : roster.Kept)
    (executes : roster.exec event = some after) : after.Kept := by
  cases event with
  | create directory pageWSSize =>
      have spec := wp_cases (@createEnvironment_spec roster.kernel directory pageWSSize)
      simp only [Roster.exec] at executes
      obtain ⟨result, kernel, outcome, made⟩ | ⟨stop, kernel, outcome, -⟩ := spec
      · rw [outcome] at executes
        rcases made with ⟨empty, rfl, rfl⟩ | ⟨first, rest, free, rfl, made⟩
        · cases executes
          exact kept.createNone empty
        · cases executes
          exact kept.create free made
      · rw [outcome] at executes
        cases executes
  | free slot =>
      simp only [Roster.exec] at executes
      split at executes
      · next occupied =>
          cases executes
          exact kept.free occupied
      · cases executes

theorem reached {allowed : Roster → TableEvent → Prop}
    (reached : (environmentTable layout).Reaches allowed roster) : roster.Kept := by
  refine reached.invariant Roster.Kept ?_ fun _ _ _ kept _ executes => kept.exec executes
  rintro _ ⟨ram, disk, rfl⟩
  exact .start ram disk

end Roster.Kept

/-! ### Ids over time -/

/-- Where every id is that of its slot, one comes back as soon as a slot does. -/
theorem Roster.notRecycled_iff (ids : ∀ identity ∈ roster.created,
      identity.slot < nenv ∧ identity.envId = slotId identity.slot) :
    roster.NotRecycled ↔ (roster.created.map Identity.slot).Nodup := by
  constructor
  · intro apart
    rw [Roster.NotRecycled] at apart
    generalize roster.created = created at ids apart
    induction created with
    | nil => exact List.nodup_nil
    | cons later rest ih =>
        obtain ⟨⟨low, id⟩, ids⟩ := List.forall_mem_cons.1 ids
        refine List.nodup_cons.2 ⟨fun member => ?_, ih ids fun before first between earlier after split =>
          apart (later :: before) first between earlier after (congrArg (later :: ·) split)⟩
        obtain ⟨earlier, inRest, same⟩ := List.mem_map.1 member
        obtain ⟨between, after, rfl⟩ := List.append_of_mem inRest
        obtain ⟨other, inBetween, otherSlot, second⟩ := apart [] later between earlier after rfl
          (by rw [id, (ids earlier inRest).2, same]) 2 (by decide) (by decide)
        have inIds : other ∈ between ++ earlier :: after := by
          rcases List.mem_append.1 inBetween with early | last
          · exact List.mem_append_left _ early
          · exact List.mem_append_right _ (List.mem_cons.2 (.inl (List.mem_singleton.1 last)))
        rw [(ids other inIds).2, generation_slotId (ids other inIds).1] at second
        cases second
  · intro nodup before later between earlier rest split same
    rw [split] at ids nodup
    have laterId := ids later (by simp)
    have earlierId := ids earlier (by simp)
    have slots : later.slot = earlier.slot :=
      slotId_inj (laterId.2.symm.trans (same.trans earlierId.2))
    rw [List.map_append, List.map_cons, List.map_append, List.map_cons] at nodup
    have apart := (List.nodup_cons.1 (List.nodup_append.1 nodup).2.1).1
    exact absurd (List.mem_append_right _ (List.mem_cons.2 (.inl slots))) apart

/-- A slot that is free refuses its id. -/
theorem KernelState.Tabled.refuses_free (tabled : state.Tabled)
    (free : slot ∈ state.envFreeList) : state.Refuses (slotId slot) := by
  refine KernelState.refuses_of_unknown (slotId_ne_zero slot) fun other occupied same => ?_
  rw [tabled.envId_eq occupied] at same
  obtain rfl := slotId_inj same
  exact (tabled.occupied_iff.1 occupied).2 free

/-- Ids are not recycled, and those of environments that were freed are refused, in exactly
the runs that create none after a free. -/
theorem Roster.notRecycled_iff_noneAfterFree
    (reached : (environmentTable layout).Reaches (fun _ _ => True) roster) :
    (roster.NotRecycled ∧ ∀ identity ∈ roster.freed, roster.kernel.Refuses identity.envId) ↔
      NoneAfterFree roster.events := by
  have kept := Roster.Kept.reached reached
  rw [Roster.notRecycled_iff kept.ids]
  constructor
  · rintro ⟨nodup, -⟩
    by_contra reuse
    exact kept.reused reuse nodup
  · intro noReuse
    obtain ⟨nodup, freed⟩ := kept.once noReuse
    refine ⟨nodup, fun identity member => ?_⟩
    have free := freed identity member
    rw [(kept.freedIds identity member).1]
    exact kept.tabled.refuses_free free

/-- The state of the small machine when it has started. -/
private def smallRoster : Roster :=
  ⟨BootLayout.small.boot (fun _ => Page.zero) (fun _ => Page.zero), [], [], []⟩

private theorem exists_small (events : List TableEvent) (good : Roster → Prop)
    (ran : ∃ last ∈ (environmentTable .small).run smallRoster events, good last) :
    ∃ last, (environmentTable .small).Reaches (fun _ _ => True) last ∧ good last :=
  System.Reaches.exists_of_run ⟨_, _, rfl⟩ (fun _ _ _ => trivial) ran

/-- Two environments, of which the second is freed: their ids differ, and its id is refused. -/
theorem Roster.notRecycled_iff_noneAfterFree_two :
    ∃ roster, (environmentTable .small).Reaches (fun _ _ => True) roster ∧
      roster.freed = [⟨1, 0x1001⟩] ∧ roster.NotRecycled ∧
      ∀ identity ∈ roster.freed, roster.kernel.Refuses identity.envId := by
  obtain ⟨roster, reached, events, freed⟩ :=
    exists_small [.create 1000 5, .create 1001 5, .free 1] (fun roster =>
      roster.events = [.free 1, .create 1001 5, .create 1000 5] ∧ roster.freed = [⟨1, 0x1001⟩])
      (by decide +kernel)
  have noneAfterFree : NoneAfterFree roster.events := by
    rw [events]
    simp [NoneAfterFree]
  exact ⟨roster, reached, freed, (notRecycled_iff_noneAfterFree reached).2 noneAfterFree⟩

/-- The first environment is freed, and the next one gets its id. -/
theorem Roster.recycled_first :
    ∃ roster, (environmentTable .small).Reaches (fun _ _ => True) roster ∧
      roster.events = [.create 1001 5, .free 0, .create 1000 5] ∧
      roster.freed = [⟨0, 0x1000⟩] ∧ ¬ roster.NotRecycled ∧ roster.kernel.Finds 0x1000 0 := by
  obtain ⟨roster, reached, events, freed, slots, occupied⟩ :=
    exists_small [.create 1000 5, .free 0, .create 1001 5] (fun roster =>
      roster.events = [.create 1001 5, .free 0, .create 1000 5] ∧
        roster.freed = [⟨0, 0x1000⟩] ∧ roster.created.map Identity.slot = [0, 0] ∧
        roster.kernel.Occupied 0) (by decide +kernel)
  have kept := Roster.Kept.reached reached
  refine ⟨roster, reached, events, freed, fun apart => ?_, ?_⟩
  · have nodup := (Roster.notRecycled_iff kept.ids).1 apart
    rw [slots] at nodup
    exact absurd nodup (by decide)
  · have found := (kept.tabled.lookup_iff occupied).2 (by decide)
    rwa [kept.tabled.envId_eq occupied] at found

/-! ### Looking environments up -/

/-- An environment is found by its id in exactly the slots whose number the mask of `ENVX`
keeps, and an id that no environment has is refused. -/
theorem Roster.finds_iff (reached : (environmentTable layout).Reaches (fun _ _ => True) roster) :
    nenv = ptSize / 4 / sizeofEnv ∧
      (∀ slot, roster.kernel.Occupied slot →
        (roster.kernel.Finds (roster.kernel.envs slot).envId slot ↔ slot &&& (nenv - 1) = slot)) ∧
      ∀ envid, envid ≠ 0 →
        (∀ slot, roster.kernel.Occupied slot → (roster.kernel.envs slot).envId ≠ envid) →
        roster.kernel.Refuses envid := by
  have kept := Roster.Kept.reached reached
  refine ⟨nenv_eq, fun slot occupied => kept.tabled.lookup_iff occupied, fun envid some unknown => ?_⟩
  exact KernelState.refuses_of_unknown some unknown

/-- The first environment is found, and the id after it is refused. -/
theorem Roster.finds_iff_first :
    ∃ roster, (environmentTable .small).Reaches (fun _ _ => True) roster ∧
      roster.kernel.Finds (roster.kernel.envs 0).envId 0 ∧ roster.kernel.Refuses 0x1001 := by
  obtain ⟨roster, reached, occupied, ids⟩ :=
    exists_small [.create 1000 5] (fun roster => roster.kernel.Occupied 0 ∧
      ∀ slot < nenv, (roster.kernel.envs slot).envId ≠ 0x1001) (by decide +kernel)
  obtain ⟨-, found, refused⟩ := finds_iff reached
  refine ⟨roster, reached, (found 0 occupied).2 (by decide), refused _ (by decide) ?_⟩
  exact fun slot occupied => ids slot occupied.1

/-- The fifth environment is not found. -/
theorem Roster.not_finds_fifth :
    ∃ roster, (environmentTable .small).Reaches (fun _ _ => True) roster ∧
      roster.events = List.replicate 5 (.create 1000 5) ∧ roster.kernel.Occupied 4 ∧
      ¬ roster.kernel.Finds (roster.kernel.envs 4).envId 4 := by
  obtain ⟨roster, reached, events, occupied⟩ :=
    exists_small (List.replicate 5 (.create 1000 5)) (fun roster =>
      roster.events = List.replicate 5 (.create 1000 5) ∧ roster.kernel.Occupied 4)
      (by decide +kernel)
  refine ⟨roster, reached, events, occupied, fun found => ?_⟩
  exact absurd (((Roster.Kept.reached reached).tabled.lookup_iff occupied).1 found) (by decide)

end Fos.Kernel
