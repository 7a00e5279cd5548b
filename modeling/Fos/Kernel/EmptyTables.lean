import Fos.Kernel.RangeAgreement

/-! The page tables `freeMem` gives back: those a listed page of the range leaves empty. -/

set_option autoImplicit false

namespace Fos.Kernel

open Foundation

variable {layout : BootLayout} {ram : Nat → Page} {slot address size index place : Nat} {strict tidy : Prop}
  {state next : KernelState}

/-- The page table covers a page of the range. -/
def CoversRange (address size index : Nat) : Prop := ∃ page ∈ wholePages address size, page / 1024 = index

/-- The frame of a page table of the environment. -/
def KernelState.userTable (slot : Nat) (state : KernelState) (index : Nat) : Nat :=
  frameOf (state.dirWord .user slot index)

/-- The page tables of the range that are empty afterwards have been given back, and no others. -/
structure FreesEmptyTables (slot address size : Nat) (state next : KernelState) : Prop where
  givesBack : ∀ index, CoversRange address size index → state.dirWord .user slot index ≠ 0 →
    (∀ place < 1024, next.mem (state.userTable slot index) place = 0) →
    next.dirWord .user slot index = 0 ∧ next.freeFrameList.count (state.userTable slot index) = 1
  keeps : ∀ index, state.dirWord .user slot index ≠ 0 →
    (∃ place < 1024, next.mem (state.userTable slot index) place ≠ 0) ∨ ¬ CoversRange address size index →
    next.dirWord .user slot index = state.dirWord .user slot index

/-- `freeMem` returns, and has removed exactly the empty page tables. -/
def RemovesEmptyTables (slot address size : Nat) (state : KernelState) : Prop :=
  wp (freeMem slot address size) (fun _ next => FreesEmptyTables slot address size state next) (fun _ _ => False) state

theorem KernelState.leaf_userTable (present : state.dirWord .user slot index ≠ 0) (low : place < 1024) :
    state.leaf .user slot (index * 1024 + place) = state.mem (state.userTable slot index) place := by
  have table : (index * 1024 + place) / 1024 = index := by omega
  have entry : (index * 1024 + place) % 1024 = place := by omega
  rw [KernelState.leaf_eq_mem (table.symm ▸ present), table, entry]
  rfl

/-- What `freeMem` does to the memory of an environment. -/
structure FreedRange (slot address size : Nat) (state next : KernelState) : Prop where
  nodup : next.freeFrameList.Nodup
  /-- The table a page has left is gone, or has another page. -/
  pages : ∀ page, state.leaf .user slot page ≠ 0 → next.leaf .user slot page = 0 →
    next.dirWord .user slot (page / 1024) ≠ 0 → ∃ other, other / 1024 = page / 1024 ∧ next.leaf .user slot other ≠ 0
  unmapped : ∀ page, state.leaf .user slot page = 0 → next.leaf .user slot page = 0
  tables : ∀ index, state.dirWord .user slot index ≠ 0 →
    next.dirWord .user slot index = state.dirWord .user slot index ∨
      next.dirWord .user slot index = 0 ∧ CoversRange address size index ∧
        (∃ page, page / 1024 = index ∧ state.leaf .user slot page ≠ 0) ∧
        state.userTable slot index ∈ next.freeFrameList ∧ ∀ place < 1024, next.mem (state.userTable slot index) place = 0

theorem freeMem_freedRange (valid : layout.Valid) (running : Running layout ram slot state)
    (healthy : Healthy strict tidy slot state) (aligned : address % pageSize = 0) (whole : size % pageSize = 0)
    (fits : address + size ≤ userTop) :
    wp (freeMem slot address size) (fun _ next => FreedRange slot address size state next) (fun _ _ => False) state := by
  have inside := whole_inside aligned fits
  have sized : size ≤ userTop := (Nat.le_add_left size address).trans fits
  have rounds : roundUp size / pageSize = size / pageSize := by
    rw [roundUp_eq sized, Nat.mul_div_cancel _ (by decide)]
    simp only [pageUp, pageSize] at whole ⊢
    omega
  have word : address < wordSize := (Nat.le_add_right address size).trans_lt (fits.trans_lt (by decide))
  apply wp_mono (freeMem_spec valid running healthy word size) _ fun _ _ => id
  rintro _ next ⟨removed, stepped, released⟩
  rw [rounds] at stepped released
  have leaf : removed.leaf .user slot = state.leaf .user slot := by
    rw [stepped.leaf, Space.removeAll_entry]
    rfl
  have frames := released.frames
  simp only [KernelState.frameAt, leaf, stepped.env] at frames
  constructor
  · exact released.running.inv.exclusive.nodup
  · intro page mapped gone present
    have left := frames page
    rw [if_pos gone, if_neg mapped] at left
    split at left
    · next listed =>
        have number : pageOf (page * pageSize) = page := pageOf_mul page
        have emptied := released.emptied (page * pageSize) listed.1 (stepped.env.symm ▸ listed.2)
        rw [number] at emptied
        exact emptied present
    · cases left
  · intro page unmapped
    have left := frames page
    rw [if_pos unmapped, ite_self] at left
    apply Decidable.of_not_not
    intro mapped
    rw [if_neg mapped] at left
    cases left
  · intro index present
    have same := stepped.words .user index present
    cases released.tables index with
    | inl still => exact .inl (still.trans same)
    | inr given =>
        obtain ⟨other, member, listed, inTable⟩ := given.listed
        rw [stepped.env, Env.recency_eq] at listed
        have owned := healthy.resident.owned listed
        have free := given.free
        have zero := given.zero
        rw [same] at free zero
        refine .inr ⟨given.cleared, ⟨pageOf other, ?_, inTable⟩, ⟨pageOf other, inTable, owned.ne_zero⟩, free, zero⟩
        exact (mem_rangeOf inside).1 (List.mem_map_of_mem member)

/-- Exactly if no page table of the range is empty before the call. -/
theorem removesEmptyTables_iff (valid : layout.Valid) (reached : (kernel layout).Reaches Contained state)
    (curenv : state.curenv = some slot) (aligned : address % pageSize = 0) (whole : size % pageSize = 0)
    (fits : address + size ≤ userTop) :
    RemovesEmptyTables slot address size state ↔ ∀ index, CoversRange address size index →
      state.dirWord .user slot index ≠ 0 → ∃ place < 1024, state.mem (state.userTable slot index) place ≠ 0 := by
  obtain ⟨ram, population⟩ := population_of_contained valid reached
  obtain ⟨-, running, healthy⟩ := population.running curenv
  have frees := freeMem_freedRange valid running healthy aligned whole fits
  constructor
  · intro removes index covers present
    obtain ⟨_, next, right, freed⟩ := exists_of_wp removes frees
    apply Decidable.of_not_not
    intro filled
    have empty (page : Nat) (inTable : page / 1024 = index) : state.leaf .user slot page = 0 := by
      apply Decidable.of_not_not
      intro mapped
      rw [KernelState.leaf_eq_mem (inTable.symm ▸ present), inTable] at mapped
      exact filled ⟨_, Nat.mod_lt _ (by decide), mapped⟩
    have stays : next.dirWord .user slot index = state.dirWord .user slot index := by
      cases freed.tables index present with
      | inl still => exact still
      | inr given =>
          obtain ⟨-, -, ⟨page, inTable, mapped⟩, -⟩ := given
          exact absurd (empty page inTable) mapped
    have frame : next.userTable slot index = state.userTable slot index := congrArg frameOf stays
    have zero : ∀ place < 1024, next.mem (state.userTable slot index) place = 0 := by
      intro place low
      rw [← frame, ← KernelState.leaf_userTable (stays.symm ▸ present) low]
      exact freed.unmapped _ (empty _ (by omega))
    exact present (stays.symm.trans (right.givesBack index covers present zero).1)
  · intro filled
    apply wp_mono frees _ fun _ _ => id
    intro _ next freed
    constructor
    · intro index covers present zero
      cases freed.tables index present with
      | inr given =>
          obtain ⟨cleared, -, -, free, -⟩ := given
          exact ⟨cleared, List.count_eq_one_of_mem freed.nodup free⟩
      | inl stays =>
          have frame : next.userTable slot index = state.userTable slot index := congrArg frameOf stays
          have stands : next.dirWord .user slot index ≠ 0 := stays.symm ▸ present
          have empty (page : Nat) (inTable : page / 1024 = index) : next.leaf .user slot page = 0 := by
            rw [KernelState.leaf_eq_mem (inTable.symm ▸ stands), inTable]
            exact (congrArg (next.mem · (page % 1024)) frame).trans (zero _ (Nat.mod_lt _ (by decide)))
          obtain ⟨place, low, nonzero⟩ := filled index covers present
          rw [← KernelState.leaf_userTable present low] at nonzero
          have inTable : (index * 1024 + place) / 1024 = index := by omega
          obtain ⟨other, sameTable, mapped⟩ := freed.pages _ nonzero (empty _ inTable) (inTable.symm ▸ stands)
          exact absurd (empty other (sameTable.trans inTable)) mapped
    · intro index present reason
      cases freed.tables index present with
      | inl stays => exact stays
      | inr given =>
          obtain ⟨-, covers, -, -, zero⟩ := given
          cases reason with
          | inl filled =>
              obtain ⟨place, low, nonzero⟩ := filled
              exact absurd (zero place low) nonzero
          | inr outside => exact absurd covers outside

private def codeOpening : List Event := [.create codeProgram 5 2, .start 0, .schedule]

/-- It touches as many pages of its stack as there is room for. -/
private def codeTouches : List Event :=
  [.fault (stackAddress - 0x1000) .read, .fault (stackAddress - 0x2000) .read, .fault (stackAddress - 0x3000) .read,
    .fault (stackAddress - 0x4000) .read, .fault (stackAddress - 0x5000) .read]

private theorem contained_code (state : KernelState) (event : Event) (member : event ∈ codeOpening ++ codeTouches) :
    Contained state event := by
  rcases List.mem_append.1 member with first | touch
  · simp only [codeOpening, List.mem_cons, List.not_mem_nil, or_false] at first
    rcases first with rfl | rfl | rfl
    · have loadable : codeProgram.Loadable := {
        sound := List.forall_mem_singleton.2 ⟨by decide, by decide⟩
        inside := by decide
        apart := List.pairwise_singleton ..
        offStack := List.forall_mem_singleton.2 (by
          simp only [ProgramSegment.Touches]
          decide) }
      exact ⟨loadable, by decide, by decide⟩
    · trivial
    · trivial
  · simp only [codeTouches, List.mem_cons, List.not_mem_nil, or_false] at touch
    rcases touch with rfl | rfl | rfl | rfl | rfl <;> exact trivial

/-- The page of code is still in the lists. -/
theorem removesEmptyTables_iff_loaded : ∃ state, state.curenv = some 0 ∧ RemovesEmptyTables 0 0x800000 4096 state := by
  obtain ⟨state, reached, curenv, filled⟩ := System.Reaches.exists_of_run
    (⟨_, _, rfl⟩ : (kernel .small).start cleanMachine)
    (fun state event member => contained_code state event (List.mem_append_left _ member))
    (by decide +kernel : ∃ last ∈ (kernel .small).run cleanMachine codeOpening, last.curenv = some 0 ∧
      last.mem (last.userTable 0 2) 0 ≠ 0)
  refine ⟨state, curenv, (removesEmptyTables_iff BootLayout.small_valid reached curenv (by decide) (by decide) (by decide)).2 ?_⟩
  rintro index ⟨page, ⟨lower, upper⟩, inTable⟩ -
  have first : pageOf 0x800000 = 2048 := by decide
  have one : 4096 / pageSize = 1 := by decide
  have two : index = 2 := by omega
  exact two ▸ ⟨0, by decide, filled⟩

/-- The page of code was evicted, and its table is empty. -/
theorem not_removesEmptyTables : ∃ state, (kernel .small).Reaches Contained state ∧ state.curenv = some 0 ∧
    ¬ RemovesEmptyTables 0 0x800000 4096 state := by
  obtain ⟨state, reached, curenv, stays⟩ := System.Reaches.exists_of_run
    (⟨_, _, rfl⟩ : (kernel .small).start cleanMachine) contained_code
    (by decide +kernel : ∃ last ∈ (kernel .small).run cleanMachine (codeOpening ++ codeTouches), last.curenv = some 0 ∧
      wp (freeMem 0 0x800000 4096) (fun _ next => next.dirWord .user 0 2 ≠ 0 ∧ last.dirWord .user 0 2 ≠ 0 ∧
        ∀ place < 1024, next.mem (last.userTable 0 2) place = 0) (fun _ _ => True) last)
  refine ⟨state, reached, curenv, fun removes => ?_⟩
  obtain ⟨_, next, ⟨stands, present, zero⟩, right⟩ := exists_of_wp stays removes
  have covers : CoversRange 0x800000 4096 2 := ⟨2048, ⟨by decide, by decide⟩, by decide⟩
  exact stands (right.givesBack 2 covers present zero).1

end Fos.Kernel
