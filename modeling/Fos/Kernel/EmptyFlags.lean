import Fos.Kernel.Bookkeeping
import Fos.Kernel.Lifetimes

/-! The flags of the working-set elements say which are in use, as long as no page fault takes an
element that is not. -/

set_option autoImplicit false

namespace Fos.Kernel

open Foundation

variable {layout : BootLayout} {slot element faultVa : Nat} {state next : KernelState}

def envPageWsGetSize (env : Env) : Nat :=
  (List.range env.pageWSMaxSize).countP fun element => (env.ptrPageWorkingSet element).empty = false

/-- The elements in use are those of `ActiveList` and `SecondList`. -/
structure FlagsRight (env : Env) : Prop where
  inUse : ∀ element < env.pageWSMaxSize, (env.ptrPageWorkingSet element).empty = false ↔
    element ∈ env.activeList ∨ element ∈ env.secondList
  size : envPageWsGetSize env = env.activeList.length + env.secondList.length

/-! ### Unused elements -/

namespace Bookkeeping

/-- The elements that are flagged as empty are those of `PageWorkingSetList`. -/
def Marked (kept : Bookkeeping) : Prop := ∀ element < kept.size, kept.empty element = true ↔ element ∈ kept.unused

/-- What `PageWorkingSetList` and the flags depend on. -/
def idle (kept : Bookkeeping) : Nat × List Nat × (Nat → Bool) := (kept.size, kept.unused, kept.empty)

theorem Marked.of_idle {before after : Bookkeeping} (marked : before.Marked) (same : after.idle = before.idle) :
    after.Marked := by
  obtain ⟨size, rest⟩ := Prod.mk.inj same
  obtain ⟨unused, empty⟩ := Prod.mk.inj rest
  rw [Marked, size, unused, empty]
  exact marked

/-- Elements became unused and were flagged. -/
structure Releases (before after : Bookkeeping) : Prop where
  size : after.size = before.size
  flagged : ∀ element, before.empty element = true → after.empty element = true
  stay : before.unused ⊆ after.unused
  unused : ∀ element ∈ after.unused, element ∈ before.unused ∨ after.empty element = true
  empty : ∀ element, after.empty element = true → before.empty element = true ∨ element ∈ after.unused

theorem Releases.of_idle {before after : Bookkeeping} (same : after.idle = before.idle) : Releases before after := by
  obtain ⟨size, rest⟩ := Prod.mk.inj same
  obtain ⟨unused, empty⟩ := Prod.mk.inj rest
  constructor
  · exact size
  · exact fun element => (congrFun empty element).trans
  · exact fun element => (unused ▸ ·)
  · exact fun element member => .inl (unused ▸ member)
  · exact fun element flagged => .inl ((congrFun empty element).symm.trans flagged)

theorem Releases.refl (kept : Bookkeeping) : Releases kept kept := of_idle rfl

theorem Releases.trans {before middle after : Bookkeeping} (first : Releases before middle)
    (second : Releases middle after) : Releases before after where
  size := second.size.trans first.size
  flagged element := second.flagged element ∘ first.flagged element
  stay := List.Subset.trans first.stay second.stay
  unused element member := by
    rcases second.unused element member with old | flagged
    · exact (first.unused element old).imp id (second.flagged element)
    · exact .inr flagged
  empty element flagged := by
    rcases second.empty element flagged with old | member
    · exact (first.empty element old).imp id (second.stay ·)
    · exact .inr member

theorem Marked.releases {before after : Bookkeeping} (marked : before.Marked) (releases : Releases before after) :
    after.Marked := by
  intro element low
  rw [releases.size] at low
  constructor
  · intro flagged
    exact (releases.empty element flagged).elim (fun old => releases.stay ((marked element low).1 old)) id
  · intro member
    exact (releases.unused element member).elim (fun old => releases.flagged element ((marked element low).2 old)) id

/-- An element is flagged and becomes unused. -/
theorem releases_element (kept : Bookkeeping) (element : Nat) :
    Releases kept { kept with
      unused := element :: kept.unused
      empty := fun other => if other = element then true else kept.empty other } where
  size := rfl
  flagged other flagged := by
    dsimp only
    split
    · rfl
    · exact flagged
  stay := List.subset_cons_self _ _
  unused other member := by
    rcases List.mem_cons.1 member with rfl | old
    · exact .inr (if_pos rfl)
    · exact .inl old
  empty other flagged := by
    dsimp only at flagged
    split at flagged
    · next same => exact .inr (same ▸ List.mem_cons_self ..)
    · exact .inl flagged

end Bookkeeping

/-- With the lists as they should be, flags that mark the unused elements mark those in use. -/
theorem Env.LruLists.flagsRight {env : Env} (lists : env.LruLists) (marked : env.bookkeeping.Marked) : FlagsRight env := by
  obtain ⟨unusedNodup, usedNodup, apart⟩ := List.nodup_append.1 (lists.elements.nodup_iff.2 List.nodup_range)
  have member (element : Nat) (low : element < env.pageWSMaxSize) :
      (env.ptrPageWorkingSet element).empty = false ↔ element ∈ env.activeList ++ env.secondList := by
    have somewhere := List.mem_append.1 (lists.elements.mem_iff.2 (List.mem_range.2 low))
    have flag : (env.ptrPageWorkingSet element).empty = true ↔ element ∈ env.pageWorkingSetList := marked element low
    constructor
    · intro used
      apply somewhere.resolve_left
      intro unused
      exact Bool.false_ne_true (used.symm.trans (flag.2 unused))
    · intro listed
      apply eq_false_of_ne_true
      intro flagged
      exact apart element (flag.1 flagged) element listed rfl
  have count : envPageWsGetSize env = (env.activeList ++ env.secondList).length := by
    have perm : ((List.range env.pageWSMaxSize).filter fun element => (env.ptrPageWorkingSet element).empty = false).Perm
        (env.activeList ++ env.secondList) := by
      rw [List.perm_ext_iff_of_nodup (List.nodup_range.filter _) usedNodup]
      intro element
      rw [List.mem_filter, List.mem_range, decide_eq_true_iff]
      constructor
      · exact fun both => (member element both.1).1 both.2
      · intro listed
        have low := List.mem_range.1 (lists.elements.mem_iff.1 (List.mem_append_right _ listed))
        exact ⟨low, (member element low).2 listed⟩
    rw [envPageWsGetSize, List.countP_eq_length_filter, perm.length_eq]
  constructor
  · intro element low
    rw [member element low, List.mem_append]
  · rw [count, List.length_append]

theorem Env.LruLists.flagsRight_iff {env : Env} (lists : env.LruLists) : FlagsRight env ↔ env.bookkeeping.Marked := by
  constructor
  · intro right element low
    obtain ⟨-, -, apart⟩ := List.nodup_append.1 (lists.elements.nodup_iff.2 List.nodup_range)
    have somewhere := List.mem_append.1 (lists.elements.mem_iff.2 (List.mem_range.2 low))
    have flag : env.bookkeeping.empty element = false ↔ element ∈ env.activeList ++ env.secondList :=
      (right.inUse element low).trans List.mem_append.symm
    rw [← Bool.not_eq_false, flag]
    constructor
    · exact somewhere.resolve_right
    · exact fun unused listed => apart element unused element listed rfl
  · exact lists.flagsRight

/-! ### Page faults -/

/-- The program leaves `PageWorkingSetList` and the flags alone. -/
abbrev KeepsIdle {Result : Type} (slot : Nat) (program : KernelM Result) : Prop :=
  Leaves (fun state => (state.bookkeeping slot).idle) (fun _ => True) program

theorem KeepsBookkeeping.idle {Result : Type} {program : KernelM Result} (keeps : KeepsBookkeeping slot program) :
    KeepsIdle slot program :=
  keeps.weaken Bookkeeping.idle fun _ _ => trivial

theorem KeepsEnv.idle {Result : Type} {program : KernelM Result} (keeps : KeepsEnv slot program) :
    KeepsIdle slot program :=
  keeps.bookkeeping.idle

namespace KeepsIdle

/-- Only `ActiveList` and `SecondList` change. -/
theorem modifyEnv {change : Env → Env} (owner : Nat)
    (same : ∀ env, (change env).bookkeeping.idle = env.bookkeeping.idle) : KeepsIdle slot (modifyEnv owner change) := by
  constructor
  intro state
  change ((state.setEnv owner (change (state.envs owner))).bookkeeping slot).idle = _
  by_cases own : slot = owner
  · subst own
    simp [KernelState.bookkeeping, same]
  · simp [KernelState.bookkeeping, own]

theorem modifyEnv_bind {Result : Type} {change : Env → Env} {continuation : Unit → KernelM Result} {owner : Nat}
    (rest : KeepsIdle slot (continuation ())) (same : ∀ env, (change env).bookkeeping.idle = env.bookkeeping.idle) :
    KeepsIdle slot (Kernel.modifyEnv owner change >>= continuation) :=
  .bind (modifyEnv owner same) fun _ => rest

theorem listLast (elements : List Nat) : KeepsIdle slot (listLast elements) := by
  unfold Kernel.listLast
  split
  · exact .pure _
  · exact .throw trivial

theorem bringIn (owner element faultVa : Nat) : KeepsIdle slot (bringIn owner element faultVa) := by
  apply Leaves.bind KeepsEnv.allocateFrame.idle
  intro frame
  apply Leaves.get
  intro state
  apply Leaves.bind (KeepsEnv.mapFrame _ _ _ _).idle
  intro _
  apply Leaves.bind (KeepsEnv.pfReadEnvPage _ _).idle
  intro answer
  refine Leaves.ite (.ite ?_ (.throw trivial)) (modifyEnv owner fun _ => rfl)
  exact .bind (KeepsEnv.pfAddEmptyEnvPage _ _ _).idle fun _ => modifyEnv owner fun _ => rfl

theorem secondListHit (owner element : Nat) : KeepsIdle slot (secondListHit owner element) := by
  refine modifyEnv_bind ?_ fun _ => rfl
  apply Leaves.get
  intro state
  apply Leaves.bind (KeepsEnv.ptSetPagePermissions _ _ _ _).idle
  intro _
  apply Leaves.get
  intro shown
  apply Leaves.bind (listLast _)
  intro activeTail
  refine modifyEnv_bind ?_ fun _ => rfl
  apply Leaves.get
  intro shorter
  apply Leaves.bind (KeepsEnv.ptSetPagePermissions _ _ _ _).idle
  intro _
  exact modifyEnv_bind (modifyEnv owner fun _ => rfl) fun _ => rfl

theorem replaceActiveTail (owner faultVa : Nat) : KeepsIdle slot (replaceActiveTail owner faultVa) := by
  apply Leaves.get
  intro state
  apply Leaves.bind (listLast _)
  intro activeTail
  refine modifyEnv_bind ?_ fun _ => rfl
  apply Leaves.get
  intro shorter
  apply Leaves.bind (KeepsEnv.getFrameInfo _ _).idle
  rintro ⟨frame, table⟩
  apply Leaves.bind (KeepsEnv.ptGetPagePermissions _ _).idle
  intro permissions
  apply Leaves.bind (KeepsEnv.writeBackIfModified _ _ _ _).idle
  intro _
  apply Leaves.bind (KeepsEnv.unmapFrame _ _).idle
  intro _
  exact .bind (KeepsBookkeeping.setVirtualAddress _ _ _).idle fun _ => bringIn owner activeTail faultVa

theorem replaceSecondTail (owner faultVa : Nat) : KeepsIdle slot (replaceSecondTail owner faultVa) := by
  apply Leaves.get
  intro state
  apply Leaves.bind (listLast _)
  intro secondTail
  apply Leaves.get
  intro current
  apply Leaves.bind (KeepsEnv.ptGetPagePermissions _ _).idle
  intro permissions
  apply Leaves.bind (KeepsEnv.getFrameInfo _ _).idle
  rintro ⟨frame, table⟩
  apply Leaves.bind (KeepsEnv.writeBackIfModified _ _ _ _).idle
  intro _
  apply Leaves.bind (KeepsEnv.unmapFrame _ _).idle
  intro _
  refine modifyEnv_bind ?_ fun _ => rfl
  apply Leaves.bind (KeepsBookkeeping.setVirtualAddress _ _ _).idle
  intro _
  apply Leaves.get
  intro placed
  apply Leaves.bind (listLast _)
  intro activeTail
  apply Leaves.get
  intro current
  apply Leaves.bind (KeepsEnv.ptSetPagePermissions _ _ _ _).idle
  intro _
  refine modifyEnv_bind ?_ fun _ => rfl
  exact modifyEnv_bind (bringIn owner secondTail faultVa) fun _ => rfl

end KeepsIdle

/-- The handler finds the page in `SecondList`, or replaces a page. -/
def Env.NeedsNoUnused (env : Env) (faultVa : Nat) : Prop :=
  env.pageWorkingSetList = [] ∨
    (env.activeList.length : Int) = env.activeListSize ∧ env.find env.secondList faultVa ≠ none

instance {env : Env} : Decidable (env.NeedsNoUnused faultVa) := inferInstanceAs (Decidable (_ ∨ _))

theorem pageFaultHandler_idle (spares : (state.envs slot).NeedsNoUnused (roundDown faultVa)) :
    wp (pageFaultHandler slot faultVa) (fun _ next => (next.bookkeeping slot).idle = (state.bookkeeping slot).idle)
      (fun _ _ => True) state := by
  have keeps {program : KernelM Unit} (idle : KeepsIdle slot program) :
      wp program (fun _ next => (next.bookkeeping slot).idle = (state.bookkeeping slot).idle) (fun _ _ => True) state :=
    wp_mono (idle.from_state state) (fun _ _ => id) fun _ _ _ => trivial
  rw [pageFaultHandler, wp_bind, wp_get]
  dsimp only
  rcases spares with none | ⟨full, found⟩
  · rw [none]
    simp only [List.length_nil, ne_eq, not_true_eq_false, if_false]
    split
    · exact keeps (.secondListHit slot _)
    · split
      · exact keeps (.replaceActiveTail slot _)
      · exact keeps (.replaceSecondTail slot _)
  · obtain ⟨element, search⟩ := Option.ne_none_iff_exists'.1 found
    simp only [full, ne_eq, not_true_eq_false, if_false, search]
    split
    · exact keeps (.secondListHit slot _)
    · exact keeps (.secondListHit slot _)

/-- `PageWorkingSetList` loses an element, whose flag stays as it is. -/
def TakesUnused (slot : Nat) (state next : KernelState) : Prop :=
  ∃ element ∈ (state.envs slot).pageWorkingSetList,
    (next.bookkeeping slot).idle = { state.bookkeeping slot with unused := (state.bookkeeping slot).unused.erase element }.idle

theorem wp_takeUnused {rest : Nat → KernelM Unit} {start : KernelState}
    (same : (state.bookkeeping slot).idle = (start.bookkeeping slot).idle) (keeps : ∀ element, KeepsIdle slot (rest element)) :
    wp (do
      let element ← listLast (state.envs slot).pageWorkingSetList
      modifyEnv slot fun env => { env with pageWorkingSetList := env.pageWorkingSetList.erase element }
      rest element) (fun _ next => TakesUnused slot start next) (fun _ _ => True) state := by
  have unused : (state.envs slot).pageWorkingSetList = (start.envs slot).pageWorkingSetList := congrArg (·.2.1) same
  rw [wp_bind, listLast]
  split
  · next element last =>
      rw [wp_pure, wp_bind, modifyEnv, wp_modify]
      refine wp_mono ((keeps element).from_state _) (fun _ next kept => ⟨element, ?_, kept.trans ?_⟩) fun _ _ _ => trivial
      · exact unused ▸ List.mem_of_getLast? last
      · have parts := same
        simp only [Bookkeeping.idle, KernelState.bookkeeping, Env.bookkeeping, KernelState.setEnv_envs, if_true,
          Prod.mk.injEq] at parts ⊢
        exact ⟨parts.1, congrArg (·.erase element) parts.2.1, parts.2.2⟩
  · trivial

theorem placeInActive_takes :
    wp (placeInActive slot faultVa) (fun _ next => TakesUnused slot state next) (fun _ _ => True) state := by
  rw [placeInActive, wp_bind, wp_get]
  apply wp_takeUnused rfl
  intro element
  exact .bind (KeepsBookkeeping.setVirtualAddress _ _ _).idle fun _ => KeepsIdle.bringIn slot element faultVa

theorem placeBehindDemotion_takes :
    wp (placeBehindDemotion slot faultVa) (fun _ next => TakesUnused slot state next) (fun _ _ => True) state := by
  have keeps {program : KernelM Unit} {rest : Unit → KernelM Unit} {middle : KernelState} (idle : KeepsIdle slot program)
      (same : (middle.bookkeeping slot).idle = (state.bookkeeping slot).idle)
      (continues : ∀ next, (next.bookkeeping slot).idle = (state.bookkeeping slot).idle →
        wp (rest ()) (fun _ next => TakesUnused slot state next) (fun _ _ => True) next) :
      wp (program >>= rest) (fun _ next => TakesUnused slot state next) (fun _ _ => True) middle := by
    rw [wp_bind]
    exact wp_mono (idle.from_state middle) (fun _ next kept => continues next (kept.trans same)) fun _ _ _ => trivial
  rw [placeBehindDemotion, wp_bind, wp_get, wp_bind, listLast]
  split
  · next activeTail last =>
      rw [wp_pure]
      refine keeps (.modifyEnv slot fun _ => rfl) rfl fun shorter sameShorter => ?_
      rw [wp_bind, wp_get]
      refine keeps (KeepsEnv.ptSetPagePermissions _ _ _ _).idle sameShorter fun hidden sameHidden => ?_
      refine keeps (.modifyEnv slot fun _ => rfl) sameHidden fun longer sameLonger => ?_
      rw [wp_bind, wp_get]
      apply wp_takeUnused sameLonger
      intro element
      exact .bind (KeepsBookkeeping.setVirtualAddress _ _ _).idle fun _ => KeepsIdle.bringIn slot element faultVa
  · trivial

theorem pageFaultHandler_takes (needs : ¬ (state.envs slot).NeedsNoUnused (roundDown faultVa)) :
    wp (pageFaultHandler slot faultVa) (fun _ next => TakesUnused slot state next) (fun _ _ => True) state := by
  obtain ⟨some, notFound⟩ := not_or.1 needs
  have positive : (state.envs slot).pageWorkingSetList.length ≠ 0 := by simpa using some
  rw [pageFaultHandler, wp_bind, wp_get]
  dsimp only
  rw [if_pos positive]
  split
  · exact placeInActive_takes
  · next full =>
      split
      · next element found => exact absurd ⟨not_not.1 full, by simp [found]⟩ notFound
      · exact placeBehindDemotion_takes

/-- No page fault takes an element of `PageWorkingSetList`. -/
def TakesNoUnused (state : KernelState) : Event → Prop
  | .fault address _ => ∀ slot ∈ state.curenv,
      hasPerm (state.mem (state.envs slot).envPageDirectory (pdx address)) permPresent = true →
      (state.envs slot).NeedsNoUnused (roundDown address)
  | _ => True

instance : ∀ state event, Decidable (TakesNoUnused state event)
  | _, .fault _ _ => inferInstanceAs (Decidable (∀ _ ∈ _, _ → _))
  | _, .create _ _ _ | _, .start _ | _, .schedule | _, .access _ _ | _, .allocateMem _ _ | _, .freeMem _ _
  | _, .allocatePage _ _ | _, .exit | _, .kill _ => inferInstanceAs (Decidable True)

theorem faultHandler_idle {address : Nat} {access : Access} (curenv : state.curenv = some slot)
    (spares : TakesNoUnused state (.fault address access)) (returns : faultHandler address state = .ok () next) :
    (next.bookkeeping slot).idle = (state.bookkeeping slot).idle := by
  have handles : wp (faultHandler address) (fun _ next => (next.bookkeeping slot).idle = (state.bookkeeping slot).idle)
      (fun _ _ => True) state := by
    rw [faultHandler]
    split
    · trivial
    · rw [wp_bind, wp_get, curenv]
      dsimp only
      rw [wp_bind, wp_get, wp_bind, wp_get]
      split
      · next present => exact pageFaultHandler_idle (spares slot curenv present)
      · have keeps : KeepsIdle slot (tableFaultHandler slot address) :=
          .get fun _ => .bind (KeepsEnv.staticCpt _ _).idle fun _ => .pure _
        exact wp_mono (keeps.from_state state) (fun _ _ => id) fun _ _ _ => trivial
  exact (wp_of_ok returns).1 handles

theorem faultHandler_takes {address : Nat} (curenv : state.curenv = some slot)
    (present : hasPerm (state.mem (state.envs slot).envPageDirectory (pdx address)) permPresent = true)
    (needs : ¬ (state.envs slot).NeedsNoUnused (roundDown address)) :
    wp (faultHandler address) (fun _ next => TakesUnused slot state next) (fun _ _ => True) state := by
  rw [faultHandler]
  split
  · trivial
  · rw [wp_bind, wp_get, curenv]
    dsimp only
    rw [wp_bind, wp_get, wp_bind, wp_get, if_pos present]
    exact pageFaultHandler_takes needs

/-- An element that was taken is in use, and flagged as empty. -/
theorem TakesUnused.not_flagsRight (takes : TakesUnused slot state next) (right : FlagsRight (state.envs slot))
    (lists : (state.envs slot).LruLists) (listsNext : (next.envs slot).LruLists) : ¬ FlagsRight (next.envs slot) := by
  intro rightNext
  obtain ⟨element, member, same⟩ := takes
  obtain ⟨size, rest⟩ := Prod.mk.inj same
  obtain ⟨unused, empty⟩ := Prod.mk.inj rest
  have count : envPageWsGetSize (next.envs slot) = envPageWsGetSize (state.envs slot) := by
    have flags (element : Nat) : ((next.envs slot).ptrPageWorkingSet element).empty =
        ((state.envs slot).ptrPageWorkingSet element).empty := congrFun empty element
    have sizes : (next.envs slot).pageWSMaxSize = (state.envs slot).pageWSMaxSize := size
    simp only [envPageWsGetSize, sizes, flags]
  have before := lists.elements.length_eq
  have after := listsNext.elements.length_eq
  have sizes : (next.envs slot).pageWSMaxSize = (state.envs slot).pageWSMaxSize := size
  have shorter : (next.envs slot).pageWorkingSetList.length + 1 = (state.envs slot).pageWorkingSetList.length := by
    have same : (next.envs slot).pageWorkingSetList = (state.envs slot).pageWorkingSetList.erase element := unused
    have some := List.length_pos_of_mem member
    rw [same, List.length_erase_of_mem member]
    exact Nat.sub_add_cancel some
  have grown := rightNext.size
  rw [count, right.size] at grown
  simp only [List.length_append, List.length_range] at before after
  omega

/-- A page fault keeps the flags right if and only if it takes no unused element. -/
theorem flagsRight_iff_of_fault {ram : Nat → Page} {strict tidy : Prop} {address : Nat} {access : Access}
    (population : Population layout ram strict tidy state) (populationNext : Population layout ram strict tidy next)
    (curenv : state.curenv = some slot) (goesOn : next.curenv = some slot)
    (works : Works slot state next (.fault address access)) (right : FlagsRight (state.envs slot)) :
    FlagsRight (next.envs slot) ↔ TakesNoUnused state (.fault address access) := by
  have lists := (population.running curenv).2.2.lists
  have listsNext := (populationNext.running goesOn).2.2.lists
  cases works with
  | fault faults returns =>
      constructor
      · intro rightNext owner isOwner present
        obtain rfl := Option.some_inj.1 (curenv.symm.trans isOwner)
        by_contra needs
        have takes := (wp_of_ok returns).1 (faultHandler_takes curenv present needs)
        exact takes.not_flagsRight right lists listsNext rightNext
      · intro spares
        have marked := (lists.flagsRight_iff.1 right).of_idle (faultHandler_idle curenv spares returns)
        exact listsNext.flagsRight_iff.2 marked

/-! ### `freeMem` -/

/-- The program only flags elements that become unused. -/
abbrev ReleasesElements {Result : Type} (slot : Nat) (program : KernelM Result) : Prop :=
  Follows (fun state next => (state.bookkeeping slot).Releases (next.bookkeeping slot)) program

namespace ReleasesElements

variable {Result Other : Type} {address : Nat}

theorem of_idle {program : KernelM Result} (keeps : KeepsIdle slot program) : ReleasesElements slot program :=
  .of_leaves keeps .of_idle

theorem pure (result : Result) : ReleasesElements slot (pure result) :=
  Follows.pure (fun state => Bookkeeping.Releases.refl (state.bookkeeping slot)) result

theorem bind {program : KernelM Other} {continuation : Other → KernelM Result} (first : ReleasesElements slot program)
    (rest : ∀ result, ReleasesElements slot (continuation result)) : ReleasesElements slot (program >>= continuation) :=
  Follows.bind .trans first rest

/-- The flag is set in the same element that becomes unused. -/
theorem freeMemElement : ReleasesElements slot (freeMemElement slot address element) := by
  constructor
  intro state
  rw [Kernel.freeMemElement, wp_bind, wp_get, wp_bind]
  have unmaps : KeepsIdle slot (unmapFrame (state.envs slot).envPageDirectory address) := (KeepsEnv.unmapFrame _ _).idle
  refine wp_mono (unmaps.from_state state) ?_ fun _ _ _ => trivial
  intro _ unmapped same
  rw [wp_bind, modifyEnv, wp_modify, wp_bind]
  have clears : KeepsBookkeeping slot (ptClearPageTableEntry slot address) := (KeepsEnv.ptClearPageTableEntry _ _).bookkeeping
  refine wp_mono (clears.from_state _) ?_ fun _ _ _ => trivial
  intro _ cleared kept
  rw [modifyEnv, wp_modify]
  have released := (unmapped.bookkeeping slot).releases_element element
  have final : (cleared.setEnv slot { cleared.envs slot with
      pageWorkingSetList := element :: (cleared.envs slot).pageWorkingSetList }).bookkeeping slot =
      { unmapped.bookkeeping slot with
        unused := element :: (unmapped.bookkeeping slot).unused
        empty := fun other => if other = element then true else (unmapped.bookkeeping slot).empty other } := by
    have parts := kept
    simp only [KernelState.bookkeeping, Env.bookkeeping, KernelState.setEnv_envs, if_true, Bookkeeping.mk.injEq] at parts ⊢
    obtain ⟨size, unused, active, second, empty⟩ := parts
    refine ⟨size, by rw [unused]; rfl, active, second, empty.trans ?_⟩
    funext other
    simp only [Env.setElement]
    split <;> rfl
  rw [final]
  exact (Bookkeeping.Releases.of_idle same).trans released

theorem refillActiveList : ReleasesElements slot (refillActiveList slot) := by
  apply Follows.get
  intro state
  split
  · exact pure _
  · apply of_idle
    refine KeepsIdle.modifyEnv_bind ?_ fun _ => rfl
    apply Leaves.get
    intro shorter
    exact .bind (KeepsEnv.ptSetPagePermissions _ _ _ _).idle fun _ => KeepsIdle.modifyEnv slot fun _ => rfl

theorem freeMemActive : ReleasesElements slot (freeMemActive slot address element) := by
  apply Follows.get
  intro state
  refine Follows.ite ?_ (pure _)
  refine bind (of_idle (KeepsIdle.modifyEnv slot fun _ => rfl)) fun _ => ?_
  apply bind freeMemElement
  intro _
  exact bind refillActiveList fun _ => of_idle (KeepsEnv.freeMemTable _ _).idle

theorem freeMemSecond : ReleasesElements slot (freeMemSecond slot address element) := by
  apply Follows.get
  intro state
  refine Follows.ite ?_ (pure _)
  refine bind (of_idle (KeepsIdle.modifyEnv slot fun _ => rfl)) fun _ => ?_
  exact bind freeMemElement fun _ => of_idle (KeepsEnv.freeMemTable _ _).idle

theorem listForeach {list : KernelState → List Nat} {body : Nat → KernelM Unit}
    (releases : ∀ element, ReleasesElements slot (body element)) (fuel : Nat) (first : Option Nat) :
    ReleasesElements slot (listForeach list body fuel first) := by
  induction fuel generalizing first with
  | zero => exact pure _
  | succ fuel ih =>
      cases first with
      | none => exact pure _
      | some element => exact .get fun _ => bind (releases element) fun _ => ih _

theorem freePages (count : Nat) : ReleasesElements slot (freePages slot address count) := by
  induction count generalizing address with
  | zero => exact pure _
  | succ count ih =>
      apply bind _ fun _ => ih
      apply Follows.get
      intro state
      apply bind (listForeach (fun _ => freeMemActive) _ _)
      intro _
      exact .get fun _ => listForeach (fun _ => freeMemSecond) _ _

theorem freeMem (size : Nat) : ReleasesElements slot (freeMem slot address size) :=
  bind (of_idle (KeepsEnv.removePages _ _ _).idle) fun _ => freePages _

end ReleasesElements

/-! ### Runs -/

/-- A user access changes no record. -/
theorem userAccess_envs {directory address : Nat} {access : Access}
    (accesses : userAccess directory address access state = some next) : next.envs = state.envs := by
  unfold userAccess at accesses
  split at accesses
  · cases accesses
  · cases accesses
    rfl
  · cases accesses
    rfl

/-- What the kernel does for the running environment keeps the flags in step with the unused elements. -/
theorem Bookkeeping.Marked.works {event : Event} (marked : (state.bookkeeping slot).Marked)
    (curenv : state.curenv = some slot) (spares : TakesNoUnused state event) (works : Works slot state next event) :
    (next.bookkeeping slot).Marked := by
  have keeps {Result : Type} {code : KernelM Result} {result : Result} (keeps : KeepsEnv slot code)
      (returns : code state = .ok result next) : (next.bookkeeping slot).Marked :=
    marked.of_idle ((wp_of_ok returns).1 (keeps.idle.from_state state))
  cases works with
  | @fault address access faults returns => exact marked.of_idle (faultHandler_idle curenv spares returns)
  | access accesses =>
      rw [KernelState.bookkeeping, userAccess_envs accesses]
      exact marked
  | allocateMem returns => exact keeps (.allocateMem _ _ _) returns
  | freeMem word returns => exact marked.releases ((wp_of_ok returns).1 ((ReleasesElements.freeMem _).from_state state))
  | allocatePage _ returns => exact keeps (.sysAllocatePage _ _ _) returns

/-- A new environment has flagged the elements it has not used. -/
theorem Env.Recorded.marked {env : Env} {pages : List Nat} (recorded : env.Recorded pages) : env.bookkeeping.Marked := by
  intro element low
  change (env.ptrPageWorkingSet element).empty = true ↔ element ∈ env.pageWorkingSetList
  have fits := recorded.fits
  have below : element < env.pageWSMaxSize := low
  rw [recorded.elements element low, recorded.unused, List.mem_reverse, List.mem_range'_1, Env.elementOf]
  cases used : pages[element]? with
  | none =>
      have := List.getElem?_eq_none_iff.1 used
      simp only [true_iff]
      omega
  | some address =>
      obtain ⟨inside, -⟩ := List.getElem?_eq_some_iff.1 used
      simp only [Bool.false_eq_true, false_iff]
      omega

/-- In every run of contained events whose page faults take no unused element. -/
theorem flagsRight_of_reaches (valid : layout.Valid)
    (reached : (kernel layout).Reaches (fun state event => Contained state event ∧ TakesNoUnused state event) state)
    (runnable : slot ∈ state.runnable) : FlagsRight (state.envs slot) := by
  have undisturbed {state next : KernelState} {slot : Nat} (undisturbed : Undisturbed slot state next)
      (marked : (state.bookkeeping slot).Marked) : (next.bookkeeping slot).Marked := by
    obtain ⟨status, same⟩ := undisturbed.status
    rw [KernelState.bookkeeping, same]
    exact marked
  obtain ⟨ram, population, marked⟩ := runnable_of_reaches valid (fun _ _ allowed => allowed.1) undisturbed
    (fun ram state event next slot _ allowed curenv works marked => marked.works curenv allowed.2 works)
    (fun ram slot program pageWSSize secondListSize pages state created _ _ _ creates => creates.recorded.marked) reached
  exact (population.healthy slot runnable).lists.flagsRight (marked slot runnable)

/-- An environment whose one element is in use touches another page of its stack. -/
theorem flagsRight_of_reaches_full : ∃ state : KernelState, 0 ∈ state.runnable ∧
    (state.envs 0).activePages = [stackAddress - 0x1000] ∧ FlagsRight (state.envs 0) := by
  obtain ⟨state, ran, runnable, active⟩ :
      ∃ last ∈ (kernel .small).attempt (fun state event => Modest state event ∧ TakesNoUnused state event) cleanMachine
        [.create ⟨"full", fun _ => 0, []⟩ 1 0, .start 0, .schedule, .fault (stackAddress - 0x1000) .read],
        0 ∈ last.runnable ∧ (last.envs 0).activePages = [stackAddress - 0x1000] := by decide +kernel
  have initial : (kernel .small).start cleanMachine := ⟨_, _, rfl⟩
  have reached := ((System.Reaches.start initial).attempt ran).mono fun state event allowed =>
    (⟨allowed.1.contained, allowed.2⟩ : Contained state event ∧ TakesNoUnused state event)
  exact ⟨state, runnable, active, flagsRight_of_reaches BootLayout.small_valid reached runnable⟩

private theorem contained_touch (state : KernelState) (event : Event)
    (member : event ∈ opening ++ [.fault (stackAddress - 0x1000) .read]) : Contained state event := by
  rcases List.mem_append.1 member with first | touch
  · exact contained_opening state event first
  · obtain rfl := List.mem_singleton.1 touch
    exact trivial

/-- The element of the first page a program touches stays flagged as empty. -/
theorem not_flagsRight : ∃ state, (kernel .small).Reaches Contained state ∧ 0 ∈ state.runnable ∧
    (state.envs 0).activeList.length = 2 ∧ envPageWsGetSize (state.envs 0) = 1 ∧ ¬ FlagsRight (state.envs 0) := by
  obtain ⟨state, reached, runnable, active, second, size⟩ := System.Reaches.exists_of_run
    (⟨_, _, rfl⟩ : (kernel .small).start cleanMachine)
    contained_touch
    (by decide +kernel : ∃ last ∈ (kernel .small).run cleanMachine (opening ++ [.fault (stackAddress - 0x1000) .read]),
      0 ∈ last.runnable ∧ (last.envs 0).activeList.length = 2 ∧ (last.envs 0).secondList.length = 0 ∧
        envPageWsGetSize (last.envs 0) = 1)
  refine ⟨state, reached, runnable, active, size, fun right => ?_⟩
  have count := right.size
  rw [size, active, second] at count
  cases count

end Fos.Kernel
