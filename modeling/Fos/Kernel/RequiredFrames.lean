import Fos.Foundation.Weakest
import Fos.Kernel.Boot
import Fos.Kernel.Mappings
import Mathlib.Algebra.Order.BigOperators.Group.LocallyFinite
import Mathlib.Order.Interval.Finset.Nat

/-! `calculate_required_frames`: the frames that allocating a range would take, and the ranges for which
the count ends and is right. -/

set_option autoImplicit false

namespace Fos.Kernel

open Foundation

/-- `for (; current < limit; current += stride)` over 32-bit addresses, with the number of those that
count; `none` while the loop goes on. A loop that ends has at most 2^20 steps, so that no count wraps. -/
def countFrom (stride limit : Nat) (counts : Nat → KernelM Bool) : Nat → Nat → Nat → KernelM (Option Nat)
  | 0, _, _ => return none
  | fuel + 1, current, counted => do
      if current < limit then
        let more ← counts current
        countFrom stride limit counts fuel ((current + stride) % wordSize) (counted + more.toNat)
      else
        return some counted

def tableMissing (directory address : Nat) : KernelM Bool := do
  return (← getPageTable directory address).isNone

def pageMissing (directory address : Nat) : KernelM Bool := do
  return (← getFrameInfo directory address).1.isNone

/-- `none` if the fuel is not enough for the steps of a loop. -/
def calculateRequiredFrames (fuel directory start size : Nat) : KernelM (Option Nat) := do
  let limit := (start + size) % wordSize
  match ← countFrom (pageSize * 1024) limit (tableMissing directory) fuel (start - start % (pageSize * 1024)) 0 with
  | none => return none
  | some tables =>
      match ← countFrom pageSize limit (pageMissing directory) fuel (roundDown start) 0 with
      | none => return none
      | some pages => return some (tables + pages)

/-! ### Loops over addresses -/

section Loops

variable {stride limit last : Nat} {counts : Nat → KernelM Bool} {state next : KernelState} {okay missing : Nat → Prop}
  [DecidablePred missing]

/-- What the body of a loop does at the multiples of the stride: it leaves the state as it is, or panics. -/
structure Tests (stride : Nat) (counts : Nat → KernelM Bool) (state : KernelState) (okay missing : Nat → Prop)
    [DecidablePred missing] : Prop where
  ok : ∀ unit, unit * stride < wordSize → okay unit → counts (unit * stride) state = .ok (decide (missing unit)) state
  fails : ∀ unit, unit * stride < wordSize → ¬ okay unit → ∃ stop next, counts (unit * stride) state = .error stop next

/-- The multiples of the stride below the limit are those before `last`. -/
def Bounds (stride limit last : Nat) : Prop :=
  last * stride < wordSize ∧ ∀ unit, unit * stride < limit ↔ unit < last

theorem countFrom_step {fuel current counted : Nat} {more : Bool} (inside : current < limit)
    (tested : counts current state = .ok more state) :
    countFrom stride limit counts (fuel + 1) current counted state =
      countFrom stride limit counts fuel ((current + stride) % wordSize) (counted + more.toNat) state := by
  rw [countFrom, if_pos inside]
  simp only [bind, EStateM.bind, tested]

theorem card_filter_Ico {unit : Nat} (inside : unit < last) :
    ((Finset.Ico unit last).filter missing).card =
      (decide (missing unit)).toNat + ((Finset.Ico (unit + 1) last).filter missing).card := by
  rw [Finset.card_filter, Finset.card_filter, Finset.sum_eq_sum_Ico_succ_bot inside]
  by_cases isMissing : missing unit <;> simp [isMissing]

/-- The loop ends with the number of missing ones. -/
theorem countFrom_ends (tests : Tests stride counts state okay missing) (bounds : Bounds stride limit last) :
    ∀ fuel unit counted, last - unit < fuel → (∀ other, unit ≤ other → other < last → okay other) →
      countFrom stride limit counts fuel (unit * stride) counted state =
        .ok (some (counted + ((Finset.Ico unit last).filter missing).card)) state := by
  intro fuel
  induction fuel with
  | zero => exact fun _ _ enough => absurd enough (Nat.not_lt_zero _)
  | succ fuel ih =>
      intro unit counted enough okays
      cases Nat.lt_or_ge unit last with
      | inl inside =>
          have below : (unit + 1) * stride < wordSize := (Nat.mul_le_mul_right _ inside).trans_lt bounds.1
          have here : unit * stride < wordSize := (Nat.mul_le_mul_right _ (Nat.le_succ _)).trans_lt below
          rw [countFrom_step ((bounds.2 unit).2 inside) (tests.ok unit here (okays unit le_rfl inside)), ← Nat.succ_mul,
            Nat.mod_eq_of_lt below, ih (unit + 1) _ (by omega) fun other above => okays other (by omega),
            card_filter_Ico inside, Nat.add_assoc]
      | inr outside =>
          have ends : ¬ unit * stride < limit := fun low => absurd ((bounds.2 unit).1 low) (by omega)
          rw [countFrom, if_neg ends, Finset.Ico_eq_empty (by omega)]
          rfl

/-- A loop that ended met nothing it panics at. -/
theorem countFrom_some (tests : Tests stride counts state okay missing) (bounds : Bounds stride limit last) :
    ∀ fuel unit counted total, countFrom stride limit counts fuel (unit * stride) counted state = .ok (some total) next →
      (∀ other, unit ≤ other → other < last → okay other) ∧
        total = counted + ((Finset.Ico unit last).filter missing).card ∧ next = state := by
  intro fuel
  induction fuel with
  | zero => exact fun _ _ _ ended => nomatch ended
  | succ fuel ih =>
      intro unit counted total ended
      cases Nat.lt_or_ge unit last with
      | inl inside =>
          have below : (unit + 1) * stride < wordSize := (Nat.mul_le_mul_right _ inside).trans_lt bounds.1
          have here : unit * stride < wordSize := (Nat.mul_le_mul_right _ (Nat.le_succ _)).trans_lt below
          cases Classical.em (okay unit) with
          | inl isOkay =>
              rw [countFrom_step ((bounds.2 unit).2 inside) (tests.ok unit here isOkay), ← Nat.succ_mul,
                Nat.mod_eq_of_lt below] at ended
              obtain ⟨okays, sum, same⟩ := ih (unit + 1) _ total ended
              refine ⟨fun other above => ?_, ?_, same⟩
              · cases Nat.eq_or_lt_of_le above with
                | inl first => exact fun _ => first ▸ isOkay
                | inr later => exact okays other later
              · rw [sum, card_filter_Ico inside, Nat.add_assoc]
          | inr isNot =>
              obtain ⟨stop, stopped, failed⟩ := tests.fails unit here isNot
              rw [countFrom, if_pos ((bounds.2 unit).2 inside)] at ended
              simp only [bind, EStateM.bind, failed] at ended
              cases ended
      | inr outside =>
          have ends : ¬ unit * stride < limit := fun low => absurd ((bounds.2 unit).1 low) (by omega)
          rw [countFrom, if_neg ends] at ended
          cases ended
          rw [Finset.Ico_eq_empty (by omega)]
          exact ⟨fun other above below => by omega, rfl, rfl⟩

/-- Where the last multiple of the stride is below the limit, the address wraps and the loop never ends. -/
theorem countFrom_endless (divides : stride ∣ wordSize) (high : wordSize - stride < limit) :
    ∀ fuel current counted total (state next : KernelState), stride ∣ current → current < wordSize →
      countFrom stride limit counts fuel current counted state ≠ .ok (some total) next := by
  intro fuel
  induction fuel with
  | zero => exact fun _ _ _ _ _ _ _ => nofun
  | succ fuel ih =>
      intro current counted total state next aligned word ended
      have inside : current < limit := by
        obtain ⟨unit, rfl⟩ := aligned
        obtain ⟨units, whole⟩ := divides
        rw [whole] at word high
        have before : unit + 1 ≤ units := Nat.lt_of_mul_lt_mul_left word
        have most := Nat.mul_le_mul_left stride before
        rw [Nat.mul_succ] at most
        omega
      rw [countFrom, if_pos inside] at ended
      cases tested : counts current state with
      | error stop stopped =>
          simp only [bind, EStateM.bind, tested] at ended
          cases ended
      | ok more after =>
          simp only [bind, EStateM.bind, tested] at ended
          refine ih _ _ total after next ?_ (Nat.mod_lt _ (by decide)) ended
          exact (Nat.dvd_mod_iff divides).2 ((Nat.dvd_add_right aligned).2 dvd_rfl)

end Loops

/-! ### The right count -/

/-- The unit of a stride has an address of the range. -/
def Meets (stride start finish unit : Nat) : Prop := max (unit * stride) start < min ((unit + 1) * stride) finish

instance (stride start finish unit : Nat) : Decidable (Meets stride start finish unit) :=
  inferInstanceAs (Decidable (_ < _))

namespace KernelState

variable (state : KernelState) (directory start size : Nat)

/-- The page tables and pages that the range `[start, start + size)` lacks. -/
def requiredFrames : Nat :=
  ((Finset.range 1024).filter fun region =>
    Meets (pageSize * 1024) start (start + size) region ∧ state.mem directory region = 0).card +
  ((Finset.range 1048576).filter fun page =>
    Meets pageSize start (start + size) page ∧ state.entry directory page = 0).card

/-- `calculate_required_frames` ends with the right count, and changes nothing. -/
def CountsRequired : Prop :=
  ∃ fuel, calculateRequiredFrames fuel directory start size state =
    .ok (some (state.requiredFrames directory start size)) state

/-- What the entries of the rounded range name are frames of the memory. -/
structure NamesFrames (finish : Nat) : Prop where
  tables : ∀ region, start / (pageSize * 1024) ≤ region → region * (pageSize * 1024) < finish →
    frameOf (state.mem directory region) < state.numberOfFrames
  pages : ∀ page, start / pageSize ≤ page → page * pageSize < finish →
    frameOf (state.entry directory page) < state.numberOfFrames

/-- The rounded range lacks nothing. -/
structure Complete (finish : Nat) : Prop where
  tables : ∀ region, start / (pageSize * 1024) ≤ region → region * (pageSize * 1024) < finish →
    state.mem directory region ≠ 0
  pages : ∀ page, start / pageSize ≤ page → page * pageSize < finish → state.entry directory page ≠ 0

end KernelState

section Count

variable {state next : KernelState} {directory start size : Nat}

/-- Every entry of the directory is zero or present. -/
def KernelState.EntriesPresent (state : KernelState) (directory : Nat) : Prop :=
  ∀ index < 1024, state.mem directory index ≠ 0 → hasPerm (state.mem directory index) permPresent

/-- The search for a page table, where the entries of the directory are zero or present. -/
theorem wp_getPageTable_present (present : state.EntriesPresent directory) {address : Nat} (word : address < wordSize)
    {post : Option Nat → KernelState → Prop} {fail : Stop → KernelState → Prop} :
    wp (getPageTable directory address) post fail state ↔
      if frameOf (state.mem directory (pageOf address / 1024)) < state.numberOfFrames then
        post (if state.mem directory (pageOf address / 1024) = 0 then none
          else some (frameOf (state.mem directory (pageOf address / 1024)))) state
      else fail (.panic "K_VIRTUAL_ADDRESS called with invalid pa") state := by
  have small : pageOf address / 1024 < 1024 := by
    simp only [pageOf, wordSize, pageSize] at word ⊢
    omega
  simp only [getPageTable, staticKernelVirtualAddress, panic, undefined, wp_bind, wp_get, wp_ite, wp_throw, wp_pure,
    pdx_of_lt word, frameOf_extractAddress]
  cases Nat.lt_or_ge (frameOf (state.mem directory (pageOf address / 1024))) state.numberOfFrames with
  | inr outside => simp [outside]
  | inl inside =>
      rw [if_pos inside]
      cases decEq (state.mem directory (pageOf address / 1024)) 0 with
      | isTrue missing => simp [missing, hasPerm, not_le.2 (missing ▸ inside)]
      | isFalse there => simp [there, present _ small there, not_le.2 inside]

theorem tableMissing_tests (present : state.EntriesPresent directory) :
    Tests (pageSize * 1024) (tableMissing directory) state
      (fun region => frameOf (state.mem directory region) < state.numberOfFrames)
      (fun region => state.mem directory region = 0) := by
  have whole (region : Nat) : pageOf (region * (pageSize * 1024)) / 1024 = region := by
    simp only [pageOf, pageSize]
    omega
  constructor
  · intro region word okay
    apply eq_ok_of_wp
    simp only [tableMissing, wp_bind, wp_getPageTable_present present word, whole, okay, if_true, wp_pure]
    split <;> simp [*]
  · intro region word bad
    apply eq_error_of_wp
    simp only [tableMissing, wp_bind, wp_getPageTable_present present word, whole, bad, if_false]

theorem pageMissing_tests (present : state.EntriesPresent directory) :
    Tests pageSize (pageMissing directory) state
      (fun page => frameOf (state.mem directory (page / 1024)) < state.numberOfFrames ∧
        frameOf (state.entry directory page) < state.numberOfFrames)
      (fun page => state.entry directory page = 0) := by
  constructor
  · intro page word okay
    apply eq_ok_of_wp
    obtain ⟨table, named⟩ := okay
    simp only [pageMissing, getFrameInfo, wp_bind, wp_getPageTable_present present word, pageOf_mul, table, if_true]
    cases decEq (state.mem directory (page / 1024)) 0 with
    | isTrue missing => simp [missing, KernelState.entry]
    | isFalse there =>
        rw [KernelState.entry, if_neg there] at named
        simp only [there, if_false, toFrameInfo, panic, wp_bind, wp_get, wp_ite, wp_pure, wp_throw, ptx_eq, pageOf_mul,
          frameOf_extractAddress, KernelState.entry, KernelState.tableFrame] at named ⊢
        constructor
        · intro mapped
          exact ⟨fun outside => absurd named (not_lt.2 outside), fun _ => by simp [mapped]⟩
        · intro unmapped
          simp [not_not.1 unmapped]
  · intro page word bad
    apply eq_error_of_wp
    simp only [pageMissing, getFrameInfo, wp_bind, wp_getPageTable_present present word, pageOf_mul]
    cases Nat.lt_or_ge (frameOf (state.mem directory (page / 1024))) state.numberOfFrames with
    | inr outside => simp [not_lt.2 outside]
    | inl inside =>
        rw [if_pos inside]
        have unnamed : ¬ frameOf (state.entry directory page) < state.numberOfFrames := fun named => bad ⟨inside, named⟩
        have some : 0 < state.numberOfFrames := Nat.zero_lt_of_lt inside
        cases decEq (state.mem directory (page / 1024)) 0 with
        | isTrue missing =>
            rw [KernelState.entry, if_pos missing] at unnamed
            exact absurd some unnamed
        | isFalse there =>
            rw [KernelState.entry, if_neg there] at unnamed
            simp only [there, if_false, toFrameInfo, panic, wp_bind, wp_get, wp_ite, wp_pure, wp_throw, ptx_eq, pageOf_mul,
              frameOf_extractAddress, KernelState.tableFrame] at unnamed ⊢
            constructor
            · intro mapped
              exact ⟨fun _ => trivial, fun inside => absurd (not_le.1 inside) unnamed⟩
            · intro unmapped
              rw [not_not.1 unmapped] at unnamed
              exact absurd some unnamed

/-- What the loops count: the missing units from the rounded start on. -/
def KernelState.walkedFrames (state : KernelState) (directory start limit : Nat) : Nat :=
  ((Finset.Ico (start / (pageSize * 1024)) ((limit + (pageSize * 1024 - 1)) / (pageSize * 1024))).filter fun region =>
    state.mem directory region = 0).card +
  ((Finset.Ico (start / pageSize) ((limit + (pageSize - 1)) / pageSize)).filter fun page =>
    state.entry directory page = 0).card

private theorem bounds_tables {limit : Nat} (low : limit ≤ wordSize - pageSize * 1024) :
    Bounds (pageSize * 1024) limit ((limit + (pageSize * 1024 - 1)) / (pageSize * 1024)) := by
  simp only [Bounds, wordSize, pageSize] at low ⊢
  exact ⟨by omega, fun unit => by omega⟩

private theorem bounds_pages {limit : Nat} (low : limit ≤ wordSize - pageSize * 1024) :
    Bounds pageSize limit ((limit + (pageSize - 1)) / pageSize) := by
  simp only [Bounds, wordSize, pageSize] at low ⊢
  exact ⟨by omega, fun unit => by omega⟩

private theorem start_region (start : Nat) :
    start - start % (pageSize * 1024) = start / (pageSize * 1024) * (pageSize * 1024) := by
  simp only [pageSize]
  omega

private theorem region_of_page {start limit page : Nat} (above : start / pageSize ≤ page) (inside : page * pageSize < limit) :
    start / (pageSize * 1024) ≤ page / 1024 ∧ page / 1024 * (pageSize * 1024) < limit := by
  rw [← Nat.div_div_eq_div_mul]
  simp only [pageSize] at *
  omega

/-- The loops end if the limit is not in the last region, and the frames that are named exist. -/
theorem calculateRequiredFrames_ends (present : state.EntriesPresent directory)
    (low : (start + size) % wordSize ≤ wordSize - pageSize * 1024)
    (names : state.NamesFrames directory start ((start + size) % wordSize)) :
    ∃ fuel, calculateRequiredFrames fuel directory start size state =
      .ok (some (state.walkedFrames directory start ((start + size) % wordSize))) state := by
  obtain ⟨fuel, enough⟩ : ∃ fuel, wordSize < fuel := ⟨_, Nat.lt_succ_self _⟩
  have tables := countFrom_ends (tableMissing_tests present) (bounds_tables low) fuel (start / (pageSize * 1024)) 0
  have pages := countFrom_ends (pageMissing_tests present) (bounds_pages low) fuel (start / pageSize) 0
  have limited : (start + size) % wordSize < wordSize := Nat.mod_lt _ (by decide)
  have tablesRun := tables (by simp only [pageSize, wordSize] at *; omega) fun region above below =>
    names.tables region above (((bounds_tables low).2 region).2 below)
  have pagesRun := pages (by simp only [pageSize, wordSize] at *; omega) fun page above below => by
    have inside := ((bounds_pages low).2 page).2 below
    have region := region_of_page above inside
    exact ⟨names.tables (page / 1024) region.1 region.2, names.pages page above inside⟩
  refine ⟨fuel, ?_⟩
  simp only [calculateRequiredFrames, start_region, roundDown_eq, pageOf, bind, EStateM.bind, tablesRun, pagesRun, Nat.zero_add]
  rfl

/-- A count that ends is of this kind. -/
theorem calculateRequiredFrames_some (present : state.EntriesPresent directory) {fuel total : Nat}
    (startWord : start < wordSize)
    (ended : calculateRequiredFrames fuel directory start size state = .ok (some total) next) :
    (start + size) % wordSize ≤ wordSize - pageSize * 1024 ∧
      state.NamesFrames directory start ((start + size) % wordSize) ∧
      total = state.walkedFrames directory start ((start + size) % wordSize) := by
  simp only [calculateRequiredFrames, start_region, roundDown_eq, pageOf, bind, EStateM.bind] at ended
  split at ended
  · next found middle tablesRun =>
      cases found with
      | none => cases ended
      | some tables =>
          have low : (start + size) % wordSize ≤ wordSize - pageSize * 1024 := by
            by_contra high
            refine countFrom_endless (by decide) (not_le.1 high) _ _ _ _ _ _ (Dvd.intro_left _ rfl) ?_ tablesRun
            exact (Nat.div_mul_le_self _ _).trans_lt startWord
          obtain ⟨tablesNamed, tablesSum, rfl⟩ :=
            countFrom_some (tableMissing_tests present) (bounds_tables low) _ _ _ _ tablesRun
          simp only [EStateM.bind] at ended
          split at ended
          · next found last pagesRun =>
              cases found with
              | none => cases ended
              | some pages =>
                  obtain ⟨pagesNamed, pagesSum, rfl⟩ :=
                    countFrom_some (pageMissing_tests present) (bounds_pages low) _ _ _ _ pagesRun
                  cases ended
                  refine ⟨low, ⟨fun region above inside => ?_, fun page above inside => ?_⟩, ?_⟩
                  · exact tablesNamed region above (((bounds_tables low).2 region).1 inside)
                  · exact (pagesNamed page above (((bounds_pages low).2 page).1 inside)).2
                  · rw [tablesSum, pagesSum, KernelState.walkedFrames, Nat.zero_add, Nat.zero_add]
          · cases ended
  · cases ended

private theorem walkedFrames_eq_zero {limit : Nat} (low : limit ≤ wordSize - pageSize * 1024) :
    state.walkedFrames directory start limit = 0 ↔ state.Complete directory start limit := by
  rw [KernelState.walkedFrames, Nat.add_eq_zero_iff, Finset.card_eq_zero, Finset.card_eq_zero, Finset.filter_eq_empty_iff,
    Finset.filter_eq_empty_iff]
  constructor
  · rintro ⟨tables, pages⟩
    constructor
    · exact fun region above inside => tables (Finset.mem_Ico.2 ⟨above, ((bounds_tables low).2 region).1 inside⟩)
    · exact fun page above inside => pages (Finset.mem_Ico.2 ⟨above, ((bounds_pages low).2 page).1 inside⟩)
  · intro complete
    constructor
    · intro region member
      obtain ⟨above, below⟩ := Finset.mem_Ico.1 member
      exact complete.tables region above (((bounds_tables low).2 region).2 below)
    · intro page member
      obtain ⟨above, below⟩ := Finset.mem_Ico.1 member
      exact complete.pages page above (((bounds_pages low).2 page).2 below)

private theorem requiredFrames_eq_zero :
    state.requiredFrames directory start size = 0 ↔
      (∀ region < 1024, Meets (pageSize * 1024) start (start + size) region → state.mem directory region ≠ 0) ∧
        ∀ page < 1048576, Meets pageSize start (start + size) page → state.entry directory page ≠ 0 := by
  rw [KernelState.requiredFrames, Nat.add_eq_zero_iff, Finset.card_eq_zero, Finset.card_eq_zero, Finset.filter_eq_empty_iff,
    Finset.filter_eq_empty_iff]
  simp only [Finset.mem_range, not_and]

/-- Without wrapping, a range that is not empty is walked unit by unit. -/
private theorem walkedFrames_eq (some : size ≠ 0) (low : start + size ≤ wordSize - pageSize * 1024) :
    state.walkedFrames directory start (start + size) = state.requiredFrames directory start size := by
  apply congrArg₂ (· + ·) (congrArg Finset.card ?_) (congrArg Finset.card ?_)
  · ext region
    rw [Finset.mem_filter, Finset.mem_filter, Finset.mem_Ico, Finset.mem_range, ← and_assoc]
    apply and_congr_left
    intro _
    simp only [Meets, pageSize, wordSize] at low ⊢
    omega
  · ext page
    rw [Finset.mem_filter, Finset.mem_filter, Finset.mem_Ico, Finset.mem_range, ← and_assoc]
    apply and_congr_left
    intro _
    simp only [Meets, pageSize, wordSize] at low ⊢
    omega

/-- Nothing meets an empty range. -/
private theorem requiredFrames_empty : state.requiredFrames directory start 0 = 0 := by
  have nothing (stride unit : Nat) : ¬ Meets stride start (start + 0) unit := by
    unfold Meets
    omega
  apply requiredFrames_eq_zero.2
  constructor
  · intro region _ meets
    exact absurd meets (nothing _ region)
  · intro page _ meets
    exact absurd meets (nothing _ page)

/-- A range up to the end of the address space. -/
private theorem requiredFrames_top (top : start + size = wordSize) :
    state.requiredFrames directory start size = 0 ↔ state.Complete directory start wordSize := by
  rw [requiredFrames_eq_zero, top]
  constructor
  · rintro ⟨tables, pages⟩
    constructor
    · intro region above inside
      apply tables region <;> simp only [Meets, pageSize, wordSize] at * <;> omega
    · intro page above inside
      apply pages page <;> simp only [Meets, pageSize, wordSize] at * <;> omega
  · rintro ⟨tables, pages⟩
    constructor
    · intro region bound meets
      apply tables region <;> simp only [Meets, pageSize, wordSize] at * <;> omega
    · intro page bound meets
      apply pages page <;> simp only [Meets, pageSize, wordSize] at * <;> omega

/-- The count ends and is right exactly if the end of the range, as a 32-bit number, is not in the last
region, only existing frames are named, and nothing is missing of a range that is empty or ends with
the address space. -/
theorem countsRequired_iff (startWord : start < wordSize) (sizeWord : size < wordSize) (fits : start + size ≤ wordSize)
    (present : state.EntriesPresent directory) :
    state.CountsRequired directory start size ↔
      (start + size) % wordSize ≤ wordSize - pageSize * 1024 ∧
        state.NamesFrames directory start ((start + size) % wordSize) ∧
        (size = 0 ∨ start + size = wordSize → state.Complete directory start (start + size)) := by
  have right (low : (start + size) % wordSize ≤ wordSize - pageSize * 1024) :
      state.walkedFrames directory start ((start + size) % wordSize) = state.requiredFrames directory start size ↔
        (size = 0 ∨ start + size = wordSize → state.Complete directory start (start + size)) := by
    cases decEq size 0 with
    | isTrue empty =>
        subst empty
        rw [Nat.add_zero, Nat.mod_eq_of_lt startWord] at low ⊢
        rw [requiredFrames_empty, walkedFrames_eq_zero low]
        simp
    | isFalse some =>
        cases Nat.lt_or_eq_of_le fits with
        | inl below =>
            rw [Nat.mod_eq_of_lt below] at low ⊢
            exact iff_of_true (walkedFrames_eq some low) fun whole => absurd whole (not_or.2 ⟨some, below.ne⟩)
        | inr top =>
            rw [top, Nat.mod_self] at low ⊢
            have nothing : state.walkedFrames directory start 0 = 0 :=
              (walkedFrames_eq_zero low).2 ⟨fun _ _ inside => absurd inside (Nat.not_lt_zero _),
                fun _ _ inside => absurd inside (Nat.not_lt_zero _)⟩
            rw [nothing, eq_comm, requiredFrames_top top]
            simp
  constructor
  · rintro ⟨fuel, ended⟩
    obtain ⟨low, names, sum⟩ := calculateRequiredFrames_some present startWord ended
    exact ⟨low, names, (right low).1 sum.symm⟩
  · rintro ⟨low, names, whole⟩
    obtain ⟨fuel, ended⟩ := calculateRequiredFrames_ends present low names
    exact ⟨fuel, ended.trans (by rw [(right low).2 whole])⟩

end Count

/-- The kernel of the small machine after boot, over memory and a disk that are zero. -/
private def booted : KernelState := BootLayout.small.boot (fun _ => Page.zero) fun _ => Page.zero

private theorem booted_present : booted.EntriesPresent 300 := by
  unfold KernelState.EntriesPresent
  decide +kernel

/-- Three pages, and the table for them, in a user region where nothing is mapped. -/
theorem countsRequired_iff_unmapped :
    booted.CountsRequired 300 0x800000 0x3000 ∧ booted.requiredFrames 300 0x800000 0x3000 ≠ 0 := by
  have start : booted.mem 300 2 = 0 := by decide +kernel
  have bare (page : Nat) (inRegion : page / 1024 = 2) : booted.entry 300 page = 0 := by
    rw [KernelState.entry, inRegion, if_pos start]
  constructor
  · apply (countsRequired_iff (by decide) (by decide) (by decide) booted_present).2
    refine ⟨by decide, ⟨fun region above below => ?_, fun page above below => ?_⟩, fun edge => absurd edge (by decide)⟩
    · have same : region = 2 := by
        simp only [pageSize, wordSize] at above below
        omega
      rw [same, start]
      decide
    · rw [bare page]
      · decide
      · simp only [pageSize, wordSize] at above below
        omega
  · intro none
    obtain ⟨tables, -⟩ := requiredFrames_eq_zero.1 none
    exact tables 2 (by decide) (by decide) start

/-- The loop over the last region of the address space does not end. -/
theorem not_countsRequired : booted.EntriesPresent 300 ∧ 0xFFC00000 + 0x1000 ≤ wordSize ∧
    ¬ booted.CountsRequired 300 0xFFC00000 0x1000 := by
  refine ⟨booted_present, by decide, ?_⟩
  rintro ⟨fuel, ended⟩
  obtain ⟨low, -⟩ := calculateRequiredFrames_some booted_present (by decide) ended
  revert low
  decide

end Fos.Kernel
