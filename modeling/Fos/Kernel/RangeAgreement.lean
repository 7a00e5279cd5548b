import Fos.Kernel.SystemProperties
import Mathlib.Order.CompletePartialOrder

/-! Which pages `allocateMem` and `freeMem` go over for one address and one size. -/

set_option autoImplicit false

namespace Fos.Kernel

open Foundation

variable {layout : BootLayout} {ram : Nat → Page} {slot address size : Nat}
  {strict tidy : Prop} {state next : KernelState}

/-- The pages with a page-file frame. -/
def KernelState.filedPages (slot : Nat) (state : KernelState) : Set Nat :=
  {page | state.leaf .disk slot page ≠ 0}

/-- The pages of a range that `allocateMem` goes over: those that lie in it as a whole. -/
def wholePages (address size : Nat) : Set Nat :=
  {page | pageOf address ≤ page ∧ page < pageOf address + size / pageSize}

/-- The pages of a range that `freeMem` goes over: those that have a byte in it. -/
def touchedPages (address size : Nat) : Set Nat :=
  {page | pageOf address ≤ page ∧ page < pageOf address + pageUp size}

theorem mem_rangeOf {count page : Nat} (inside : pageOf address + count ≤ userPages) :
    page ∈ (rangeOf address count).map pageOf ↔ pageOf address ≤ page ∧ page < pageOf address + count := by
  induction count generalizing address with
  | zero =>
      simp only [rangeOf, List.map_nil, List.not_mem_nil, false_iff]
      omega
  | succ count ih =>
      have bound : userPages < 1048576 := by decide
      have step : pageOf (nextPage address) = pageOf address + 1 := by
        simp only [pageOf, nextPage, pageSize, wordSize] at inside ⊢
        omega
      rw [rangeOf, List.map_cons, List.mem_cons, ih (by omega), step]
      omega

theorem low_of_mem_rangeOf {count other : Nat} (inside : pageOf address + count ≤ userPages)
    (member : other ∈ rangeOf address count) : other < userTop := by
  have below := ((mem_rangeOf inside).1 (List.mem_map_of_mem member)).2
  have pages : userPages = userTop / pageSize := by decide
  simp only [pageOf, pageSize] at below inside pages
  omega

theorem aligned_of_mem_rangeOf {count other : Nat} (aligned : address % pageSize = 0)
    (member : other ∈ rangeOf address count) : other % pageSize = 0 := by
  induction count generalizing address with
  | zero => cases member
  | succ count ih =>
      cases List.mem_cons.1 member with
      | inl first => exact first ▸ aligned
      | inr rest =>
          apply ih _ rest
          simp only [nextPage, pageSize, wordSize] at aligned ⊢
          omega

/-- The addresses of a range of whole pages are those of its pages. -/
theorem mul_mem_rangeOf {count page : Nat} (aligned : address % pageSize = 0) (inside : pageOf address + count ≤ userPages)
    (lower : pageOf address ≤ page) (upper : page < pageOf address + count) : page * pageSize ∈ rangeOf address count := by
  obtain ⟨other, member, rfl⟩ := List.mem_map.1 ((mem_rangeOf inside).2 ⟨lower, upper⟩)
  rwa [pageOf, Nat.div_mul_cancel (Nat.dvd_of_mod_eq_zero (aligned_of_mem_rangeOf aligned member))]

/-- A range below `USER_TOP` ends below it, counted in pages. -/
theorem touched_inside (aligned : address % pageSize = 0) (fits : address + size ≤ userTop) :
    pageOf address + pageUp size ≤ userPages := by
  have pages : userPages * pageSize = userTop := by decide
  simp only [pageOf, pageUp, pageSize] at *
  omega

theorem whole_inside (aligned : address % pageSize = 0) (fits : address + size ≤ userTop) :
    pageOf address + size / pageSize ≤ userPages := by
  have pages : userPages * pageSize = userTop := by decide
  simp only [pageOf, pageSize] at *
  omega

/-- `allocateMem` gives a disk frame to each page that lies in the range as a whole. -/
theorem Allocated.filedPages (inside : pageOf address + size / pageSize ≤ userPages)
    (allocated : Allocated layout ram strict tidy slot (rangeOf address (size / pageSize)) state next) :
    next.filedPages slot = state.filedPages slot ∪ wholePages address size := by
  ext page
  rw [Set.mem_union]
  constructor
  · intro filed
    by_cases member : page ∈ (rangeOf address (size / pageSize)).map pageOf
    · exact .inr ((mem_rangeOf inside).1 member)
    · left
      have same := (allocated.others page member).2
      exact fun unfiled => filed (same.trans unfiled)
  · rintro (filed | whole)
    · have same := allocated.diskKept page filed
      exact fun unfiled => filed (same.symm.trans unfiled)
    · obtain ⟨other, member, rfl⟩ := List.mem_map.1 ((mem_rangeOf inside).2 whole)
      exact allocated.placed other member

theorem filedPages_allocateMem (valid : layout.Valid) (running : Running layout ram slot state)
    (healthy : Healthy strict tidy slot state) (aligned : address % pageSize = 0)
    (fits : address + size ≤ userTop) (returns : allocateMem slot address size state = .ok () next) :
    next.filedPages slot = state.filedPages slot ∪ wholePages address size ∧
      Running layout ram slot next ∧ Healthy False False slot next := by
  have inside := whole_inside aligned fits
  have allocated := (wp_of_ok returns).1
    (allocatePages_spec valid running healthy (size / pageSize) fun _ => low_of_mem_rangeOf inside)
  exact ⟨allocated.filedPages inside, allocated.running,
    { allocated.healthy with resident := allocated.healthy.resident.weaken False.elim False.elim }⟩

/-- `freeMem` clears the page-file entry of each page that has a byte in the range. -/
theorem filedPages_freeMem (valid : layout.Valid) (running : Running layout ram slot state)
    (healthy : Healthy strict tidy slot state) (aligned : address % pageSize = 0)
    (fits : address + size ≤ userTop) :
    wp (freeMem slot address size)
      (fun _ next => next.filedPages slot = state.filedPages slot \ touchedPages address size)
      (fun _ _ => False) state := by
  have inside := touched_inside aligned fits
  have sized : size ≤ userTop := (Nat.le_add_left size address).trans fits
  have rounds : roundUp size / pageSize = pageUp size := by
    rw [roundUp_eq sized, Nat.mul_div_cancel _ (by decide)]
  have word : address < wordSize := (Nat.le_add_right address size).trans_lt (fits.trans_lt (by decide))
  apply wp_mono (freeMem_spec valid running healthy word size) _ fun _ _ => id
  rintro _ next ⟨removed, stepped, released⟩
  have disk : next.leaf .disk slot = _ := released.disk.trans (congrArg Space.diskFrame stepped.becomes.space)
  rw [rounds] at disk
  ext page
  change next.leaf .disk slot page ≠ 0 ↔ state.leaf .disk slot page ≠ 0 ∧ page ∉ touchedPages address size
  rw [disk, Space.removeAll_diskFrame]
  by_cases touched : page ∈ touchedPages address size
  · rw [if_pos ((mem_rangeOf inside).2 touched)]
    exact iff_of_false (fun some => some rfl) fun both => both.2 touched
  · rw [if_neg fun member => touched ((mem_rangeOf inside).1 member)]
    exact (and_iff_left touched).symm

/-! ### Agreement -/

/-- For one address and one size, the pages `allocateMem` gives a page-file frame in `state` are those
whose page-file entry `freeMem` clears in `full`, and freeing what was allocated restores what was there. -/
structure AgreeOnRange (slot address size : Nat) (state full : KernelState) : Prop where
  same : ∀ allocated freed, allocateMem slot address size state = .ok () allocated →
    freeMem slot address size full = .ok () freed →
    allocated.filedPages slot \ state.filedPages slot = full.filedPages slot \ freed.filedPages slot
  restored : ∀ allocated freed, allocateMem slot address size state = .ok () allocated →
    freeMem slot address size allocated = .ok () freed → freed.filedPages slot = state.filedPages slot

theorem touchedPages_of_mod_eq_zero (whole : size % pageSize = 0) :
    touchedPages address size = wholePages address size := by
  have rounds : pageUp size = size / pageSize := by
    simp only [pageUp, pageSize] at whole ⊢
    omega
  rw [touchedPages, wholePages, rounds]

/-- Otherwise `freeMem` goes over one page more. -/
theorem touchedPages_ne_wholePages (partly : size % pageSize ≠ 0) :
    touchedPages address size ≠ wholePages address size := by
  intro same
  have last : pageOf address + size / pageSize ∈ touchedPages address size := by
    have below : size / pageSize < pageUp size := by
      simp only [pageUp, pageSize] at partly ⊢
      omega
    exact ⟨Nat.le_add_right _ _, Nat.add_lt_add_left below _⟩
  rw [same] at last
  exact absurd last.2 (lt_irrefl _)

theorem agreeOnRange_of_running (valid : layout.Valid) {full : KernelState} {ramFull : Nat → Page}
    (running : Running layout ram slot state) (healthy : Healthy strict tidy slot state)
    (runningFull : Running layout ramFull slot full) (healthyFull : Healthy strict tidy slot full)
    (aligned : address % pageSize = 0) (fits : address + size ≤ userTop)
    (empty : Disjoint (state.filedPages slot) (wholePages address size))
    (filled : touchedPages address size ⊆ full.filedPages slot)
    (enough : ∃ allocated, allocateMem slot address size state = .ok () allocated) :
    AgreeOnRange slot address size state full ↔ size % pageSize = 0 := by
  have freeing := filedPages_freeMem valid runningFull healthyFull aligned fits
  obtain ⟨result, freed, returns, isFreed⟩ | ⟨_, _, _, never⟩ := wp_cases freeing
  swap
  · exact never.elim
  have given (allocated : KernelState) (allocates : allocateMem slot address size state = .ok () allocated) :
      allocated.filedPages slot \ state.filedPages slot = wholePages address size := by
    rw [(filedPages_allocateMem valid running healthy aligned fits allocates).1, Set.union_sdiff_left]
    exact empty.symm.sdiff_eq_left
  have cleared : full.filedPages slot \ freed.filedPages slot = touchedPages address size := by
    rw [isFreed, Set.sdiff_sdiff_right_self]
    exact Set.inter_eq_right.2 filled
  constructor
  · intro agree
    by_contra partly
    obtain ⟨allocated, allocates⟩ := enough
    have same := agree.same allocated freed allocates returns
    rw [given allocated allocates, cleared] at same
    exact touchedPages_ne_wholePages partly same.symm
  · intro whole
    have same : touchedPages address size = wholePages address size := touchedPages_of_mod_eq_zero whole
    constructor
    · intro allocated other allocates frees
      obtain rfl : freed = other := by
        have := returns.symm.trans frees
        cases this
        rfl
      rw [given allocated allocates, cleared, same]
    · intro allocated other allocates frees
      obtain ⟨isAllocated, runningNext, healthyNext⟩ :=
        filedPages_allocateMem valid running healthy aligned fits allocates
      have isFreed := (wp_of_ok frees).1 (filedPages_freeMem valid runningNext healthyNext aligned fits)
      rw [isFreed, isAllocated, same, Set.union_sdiff_right]
      exact empty.sdiff_eq_left

/-- A range is freed as it was allocated exactly when its size is a multiple of `PAGE_SIZE`. -/
theorem agreeOnRange_iff (valid : layout.Valid) {full : KernelState}
    (reached : (kernel layout).Reaches Contained state) (curenv : state.curenv = some slot)
    (reachedFull : (kernel layout).Reaches Contained full) (curenvFull : full.curenv = some slot)
    (aligned : address % pageSize = 0) (fits : address + size ≤ userTop)
    (empty : Disjoint (state.filedPages slot) (wholePages address size))
    (filled : touchedPages address size ⊆ full.filedPages slot)
    (enough : ∃ allocated, allocateMem slot address size state = .ok () allocated) :
    AgreeOnRange slot address size state full ↔ size % pageSize = 0 := by
  obtain ⟨ram, population⟩ := population_of_contained valid reached
  obtain ⟨ramFull, populationFull⟩ := population_of_contained valid reachedFull
  obtain ⟨-, running, healthy⟩ := population.running curenv
  obtain ⟨-, runningFull, healthyFull⟩ := populationFull.running curenvFull
  exact agreeOnRange_of_running valid running healthy runningFull healthyFull aligned fits empty filled enough

/-! ### Two pages -/

private def returned : EStateM.Result Stop KernelState Unit → Option KernelState
  | .ok _ next => some next
  | .error _ _ => none

private theorem exists_returned {result : EStateM.Result Stop KernelState Unit} {good : KernelState → Prop}
    (found : ∃ next ∈ returned result, good next) : ∃ next, result = .ok () next ∧ good next := by
  obtain ⟨next, member, holds⟩ := found
  cases result with
  | ok value other =>
      cases member
      exact ⟨next, rfl, holds⟩
  | error stop other => cases member

/-- Before and after two pages of the heap are allocated. -/
private theorem exists_heaps : ∃ state full,
    ((kernel .small).Reaches Contained state ∧ state.curenv = some 0) ∧
    ((kernel .small).Reaches Contained full ∧ full.curenv = some 0) ∧
    Disjoint (state.filedPages 0) {0x80000, 0x80001} ∧ {0x80000, 0x80001} ⊆ full.filedPages 0 ∧
    (∃ allocated, allocateMem 0 0x80000000 8192 state = .ok () allocated) ∧
    (∃ allocated, allocateMem 0 0x80000000 5000 state = .ok () allocated ∧ allocated.leaf .disk 0 0x80001 = 0) ∧
    ∃ freed, freeMem 0 0x80000000 5000 full = .ok () freed ∧ freed.leaf .disk 0 0x80001 = 0 := by
  have initial : (kernel .small).start cleanMachine := ⟨_, _, rfl⟩
  obtain ⟨state, reached, curenv, first, second, whole, partly⟩ := System.Reaches.exists_of_run initial
    contained_opening
    (by decide +kernel : ∃ last ∈ (kernel .small).run cleanMachine opening,
      last.curenv = some 0 ∧ last.leaf .disk 0 0x80000 = 0 ∧ last.leaf .disk 0 0x80001 = 0 ∧
        (∃ next ∈ returned (allocateMem 0 0x80000000 8192 last), next.curenv = some 0) ∧
        ∃ next ∈ returned (allocateMem 0 0x80000000 5000 last), next.leaf .disk 0 0x80001 = 0)
  obtain ⟨full, reachedFull, curenvFull, firstFull, secondFull, frees⟩ := System.Reaches.exists_of_run initial
    contained_allocated
    (by decide +kernel : ∃ last ∈ (kernel .small).run cleanMachine (opening ++ [.allocateMem 0x80000000 8192]),
      last.curenv = some 0 ∧ last.leaf .disk 0 0x80000 ≠ 0 ∧ last.leaf .disk 0 0x80001 ≠ 0 ∧
        ∃ next ∈ returned (freeMem 0 0x80000000 5000 last), next.leaf .disk 0 0x80001 = 0)
  obtain ⟨allocated, allocates, -⟩ := exists_returned whole
  refine ⟨state, full, ⟨reached, curenv⟩, ⟨reachedFull, curenvFull⟩, ?_, ?_, ⟨allocated, allocates⟩,
    exists_returned partly, exists_returned frees⟩
  · rw [Set.disjoint_right]
    rintro page (rfl | rfl) filed
    · exact filed first
    · exact filed second
  · rintro page (rfl | rfl)
    · exact firstFull
    · exact secondFull

private theorem touchedPages_two (size : Nat) (two : pageUp size = 2) :
    touchedPages 0x80000000 size = {0x80000, 0x80001} := by
  ext page
  simp only [touchedPages, two]
  change 0x80000 ≤ page ∧ page < 0x80000 + 2 ↔ page = 0x80000 ∨ page = 0x80001
  omega

/-- Two whole pages. -/
theorem agreeOnRange_iff_two : ∃ state full, state.curenv = some 0 ∧ full.curenv = some 0 ∧
    AgreeOnRange 0 0x80000000 8192 state full := by
  obtain ⟨state, full, ⟨reached, curenv⟩, ⟨reachedFull, curenvFull⟩, empty, filled, enough, -⟩ := exists_heaps
  have touched := touchedPages_two 8192 (by decide)
  have whole : touchedPages 0x80000000 8192 = wholePages 0x80000000 8192 := touchedPages_of_mod_eq_zero (by decide)
  refine ⟨state, full, curenv, curenvFull, ?_⟩
  exact (agreeOnRange_iff BootLayout.small_valid reached curenv reachedFull curenvFull (by decide) (by decide)
    (whole ▸ touched ▸ empty) (touched ▸ filled) enough).2 (by decide)

/-- `allocateMem` gives a frame to one page of 5000 bytes, and `freeMem` clears the entries of two. -/
theorem not_agreeOnRange : ∃ state full,
    (kernel .small).Reaches Contained state ∧ state.curenv = some 0 ∧
    (kernel .small).Reaches Contained full ∧ full.curenv = some 0 ∧
    0x80000000 % pageSize = 0 ∧ 0x80000000 + 5000 ≤ userTop ∧
    Disjoint (state.filedPages 0) (touchedPages 0x80000000 5000) ∧
    touchedPages 0x80000000 5000 ⊆ full.filedPages 0 ∧
    (∃ allocated, allocateMem 0 0x80000000 5000 state = .ok () allocated) ∧
    ¬ AgreeOnRange 0 0x80000000 5000 state full := by
  obtain ⟨state, full, ⟨reached, curenv⟩, ⟨reachedFull, curenvFull⟩, empty, filled, -, ⟨allocated, allocates, unfiled⟩,
    ⟨freed, frees, cleared⟩⟩ := exists_heaps
  have touched := touchedPages_two 5000 (by decide)
  refine ⟨state, full, reached, curenv, reachedFull, curenvFull, by decide, by decide, touched ▸ empty, touched ▸ filled,
    ⟨allocated, allocates⟩, fun agree => ?_⟩
  have same := agree.same allocated freed allocates frees
  have gone : 0x80001 ∈ full.filedPages 0 \ freed.filedPages 0 := ⟨filled (.inr rfl), not_not.2 cleared⟩
  rw [← same] at gone
  exact gone.1 unfiled

end Fos.Kernel
