import Fos.Kernel.Bringing

/-! The fault handler keeps the working-set lists, the page table and the page file in
step with each other. -/

set_option autoImplicit false

namespace Fos.Kernel

open Foundation

variable {layout : BootLayout} {ram : Nat → Page} {slot element faultVa : Nat}
  {strict tidy : Prop} {state : KernelState}

theorem wp_listLast {before : List Nat} {last : Nat} {post : Nat → KernelState → Prop}
    {fail : Stop → KernelState → Prop} :
    wp (listLast (before ++ [last])) post fail state ↔ post last state := by
  simp [listLast]

theorem exists_last {elements : List Nat} (some : elements ≠ []) :
    ∃ before last, elements = before ++ [last] :=
  ⟨elements.dropLast, elements.getLast some, (List.dropLast_append_getLast some).symm⟩

/-- A fault is served, or the handler panics. -/
def Serves (layout : BootLayout) (ram : Nat → Page) (strict tidy : Prop) (slot faultVa : Nat)
    (start : KernelState) (handler : KernelM Unit) (state : KernelState) : Prop :=
  wp handler (fun _ next => Served layout ram strict tidy slot faultVa start next)
    (onPanic (Halted layout ram tidy slot faultVa start)) state

/-- The addresses of the active list, its tail apart. -/
theorem Env.activePages_tail {env : Env} {front : List Nat} {last : Nat}
    (tail : env.activeList = front ++ [last]) :
    env.activePages = env.addresses front ++ [(env.ptrPageWorkingSet last).virtualAddress] := by
  rw [Env.activePages, tail, Env.addresses_append]
  rfl

theorem Env.secondPages_tail {env : Env} {back : List Nat} {last : Nat}
    (tail : env.secondList = back ++ [last]) :
    env.secondPages = env.addresses back ++ [(env.ptrPageWorkingSet last).virtualAddress] := by
  rw [Env.secondPages, tail, Env.addresses_append]
  rfl

theorem placeInActive_spec (valid : layout.Valid) (running : Running layout ram slot state)
    (healthy : Healthy strict tidy slot state) (page : Env.UserPage faultVa)
    (unlisted : faultVa ∉ (state.envs slot).recency)
    (some : (state.envs slot).pageWorkingSetList ≠ [])
    (room : ((state.envs slot).activeList.length : Int) ≠ (state.envs slot).activeListSize)
    (present : state.dirWord .user slot (pageOf faultVa / 1024) ≠ 0) :
    Serves layout ram strict tidy slot faultVa state (placeInActive slot faultVa) state := by
  obtain ⟨before, element, free⟩ := exists_last some
  obtain ⟨notBefore, apart⟩ := healthy.lists.apart_unused free
  obtain ⟨lists, recency, grown⟩ := healthy.lists.place page unlisted free room
  simp only [Serves, placeInActive, wp_bind, wp_get, free, wp_listLast]
  refine (Shifted.refl running).wp_lists (state.envs slot).ptrPageWorkingSet before
    (state.envs slot).activeList (state.envs slot).secondList
    (by rw [free, erase_last notBefore]; rfl) fun taken stepTake => ?_
  refine stepTake.wp_lists ((state.envs slot).setAddress element faultVa) before
    (state.envs slot).activeList (state.envs slot).secondList rfl fun placed stepPlace => ?_
  refine bringIn_served page stepPlace apart healthy.resident
    (Env.recency_eq _ ▸ unlisted) lists valid present recency fun number different => ?_
  change state.leaf .user slot number ≠ 0 ↔ _
  rw [grown]
  exact ⟨fun some => ⟨some, List.mem_cons_of_mem _⟩, And.left⟩

/-- A change of a page's flags leaves the same pages with entries. -/
theorem setEntry_ne_zero {space : Space} {page entry : Nat} (mapped : space.entry page ≠ 0) (still : entry ≠ 0)
    (number : Nat) : (space.setEntry page entry).entry number ≠ 0 ↔ space.entry number ≠ 0 := by
  simp only [Space.setEntry]
  by_cases same : number = page
  · rw [same, Function.update_self]
    exact iff_of_true still mapped
  · rw [Function.update_of_ne same]

theorem setEntry_hide_ne_zero {space : Space} {page : Nat} (owned : Owned (space.entry page)) (number : Nat) :
    (space.setEntry page (changePerm (space.entry page) 0 permPresent)).entry number ≠ 0 ↔ space.entry number ≠ 0 :=
  setEntry_ne_zero owned.ne_zero (owned_hide owned).ne_zero number

/-- The page of `SecondList` is shown and the tail of `ActiveList` hidden, and they trade places. -/
theorem wp_secondListHit (valid : layout.Valid) (running : Running layout ram slot state)
    {before after front : List Nat} {last address : Nat}
    (found : (state.envs slot).secondList = before ++ element :: after) (first : element ∉ before)
    (tail : (state.envs slot).activeList = front ++ [last]) (notFront : last ∉ front)
    (same : ((state.envs slot).ptrPageWorkingSet element).virtualAddress = faultVa)
    (sameTail : ((state.envs slot).ptrPageWorkingSet last).virtualAddress = address)
    (low : faultVa < userTop) (lowTail : address < userTop) {space : Space}
    (isSpace : space = (state.space slot).setEntry (pageOf faultVa)
      (changePerm (state.leaf .user slot (pageOf faultVa)) permPresent 0))
    (owned : Owned (state.leaf .user slot (pageOf faultVa))) (ownedShown : Owned (space.entry (pageOf address)))
    {post : Unit → KernelState → Prop} {fail : Stop → KernelState → Prop}
    (continues : ∀ next, Shifted layout ram slot state next ((state.envs slot).withLists
        (state.envs slot).ptrPageWorkingSet (state.envs slot).pageWorkingSetList (element :: front)
        (last :: (before ++ after)))
        (space.setEntry (pageOf address) (changePerm (space.entry (pageOf address)) 0 permPresent)) → post () next) :
    wp (secondListHit slot element) post fail state := by
  have shown : Accessible (changePerm (state.leaf .user slot (pageOf faultVa)) permPresent 0) :=
    accessible_show owned (by decide)
  subst isSpace
  simp only [secondListHit, wp_bind, wp_get]
  refine (Shifted.refl running).wp_lists (state.envs slot).ptrPageWorkingSet
    (state.envs slot).pageWorkingSetList (state.envs slot).activeList (before ++ after)
    (by rw [found, erase_middle first]; rfl) fun removed stepRemove => ?_
  simp only [stepRemove.env, Env.withLists, same]
  refine stepRemove.wp_setPagePermissions valid low owned.ne_zero shown.2.ne_zero (by decide)
    (by decide) (by decide) (by decide) fun showed stepShow => ?_
  simp only [stepShow.env, Env.withLists, tail, wp_listLast]
  refine stepShow.wp_lists (state.envs slot).ptrPageWorkingSet
    (state.envs slot).pageWorkingSetList front (before ++ after)
    (by simp only [Env.withLists, tail, erase_last notFront]) fun shorter stepShorten => ?_
  simp only [stepShorten.env, Env.withLists, sameTail]
  refine stepShorten.wp_setPagePermissions valid lowTail ownedShown.ne_zero
    (owned_hide ownedShown).ne_zero (by decide) (by decide) (by decide) (by decide)
    fun hidden stepHide => ?_
  refine stepHide.wp_lists (state.envs slot).ptrPageWorkingSet
    (state.envs slot).pageWorkingSetList (element :: front) (before ++ after) rfl
    fun longer stepLonger => ?_
  exact stepLonger.wp_lists (state.envs slot).ptrPageWorkingSet
    (state.envs slot).pageWorkingSetList (element :: front) (last :: (before ++ after)) rfl continues

theorem secondListHit_spec (valid : layout.Valid) (running : Running layout ram slot state)
    (healthy : Healthy strict tidy slot state) {before after : List Nat}
    (found : (state.envs slot).secondList = before ++ element :: after)
    (first : element ∉ before)
    (same : ((state.envs slot).ptrPageWorkingSet element).virtualAddress = faultVa) :
    Serves layout ram strict tidy slot faultVa state (secondListHit slot element) state := by
  have lists := healthy.lists
  have full := lists.order (by rw [found]; simp)
  have positive := lists.activePositive
  obtain ⟨front, last, tail⟩ : ∃ front last, (state.envs slot).activeList = front ++ [last] :=
    exists_last (List.ne_nil_of_length_pos (by omega))
  have notFront := (lists.listed.apart_tail tail).1
  obtain ⟨nextLists, recency, moved⟩ := lists.hit found same tail
  have resident := healthy.resident
  have activePages := Env.activePages_tail tail
  generalize addressEq : ((state.envs slot).ptrPageWorkingSet last).virtualAddress = address
    at activePages
  have secondPages : (state.envs slot).secondPages = (state.envs slot).addresses before ++
      faultVa :: (state.envs slot).addresses after := by
    rw [Env.secondPages, found, Env.addresses_append, Env.addresses_cons, same]
  rw [activePages, secondPages] at resident
  have page := resident.pages faultVa (by simp)
  have pageTail := resident.pages address (by simp)
  have owned := resident.owned (show faultVa ∈ _ ++ _ by simp)
  have promoted := resident.promote (show permPresent.testBit 0 = true by decide)
    (List.Perm.refl (faultVa :: ((state.envs slot).addresses front ++ [address])))
  have ownedShown := promoted.owned (show address ∈ _ ++ _ by simp)
  have demoted := (show Resident _ _ _
    ((faultVa :: (state.envs slot).addresses front) ++ [address]) _ from promoted).demote
  refine wp_secondListHit valid running found first tail notFront same addressEq page.2 pageTail.2 rfl owned ownedShown
    fun next stepNext => ?_
  have leaf := stepNext.leaf
  have some (number : Nat) : next.leaf .user slot number ≠ 0 ↔ state.leaf .user slot number ≠ 0 := by
    rw [leaf]
    exact (setEntry_hide_ne_zero ownedShown number).trans
      (setEntry_ne_zero owned.ne_zero (accessible_show owned (by decide)).2.ne_zero number)
  have activeNext : (next.envs slot).activePages = faultVa :: (state.envs slot).addresses front := by
    rw [stepNext.env, ← same]
    rfl
  have secondNext : (next.envs slot).secondPages = address ::
      ((state.envs slot).addresses before ++ (state.envs slot).addresses after) := by
    rw [stepNext.env, ← addressEq, ← Env.addresses_append]
    rfl
  have listsNext : (next.envs slot).LruLists := by
    rw [stepNext.env]
    exact nextLists
  have recencyNext : (next.envs slot).recency =
      faultVa :: (state.envs slot).recency.erase faultVa := by
    rw [stepNext.env]
    exact moved
  refine ⟨stepNext.becomes.acts, stepNext.running,
    ⟨stepNext.running.live, stepNext.running.placed, listsNext, ?_⟩, ?_,
    ⟨_, _, _, _, stepNext.env⟩, fun number => ?_, fun _ => stepNext.keeps, fun _ => ?_,
    fun _ backed number mapped => ?_, fun number _ => congrFun stepNext.disk number,
    fun _ => congrFun stepNext.disk _, fun unlisted => absurd ?_ unlisted⟩
  · rw [activeNext, secondNext, leaf]
    exact demoted
  · rw [recencyNext, ← recency]
    exact moved.symm
  · rw [some, recencyNext]
    constructor
    · refine fun mapped => .inr ⟨mapped, fun member => ?_⟩
      by_cases isPage : number * pageSize = faultVa
      · rw [isPage]
        exact List.mem_cons_self ..
      · exact List.mem_cons_of_mem _ ((List.mem_erase_of_ne isPage).2 member)
    · rintro (rfl | ⟨mapped, -⟩)
      · exact owned.ne_zero
      · exact mapped
  · rw [stepNext.becomes.space]
    exact stepNext.moves
  · change next.leaf .disk slot number ≠ 0
    rw [stepNext.disk]
    exact backed number ((some number).1 mapped)
  · rw [Env.recency_eq, secondPages]
    simp

theorem placeBehindDemotion_spec (valid : layout.Valid) (running : Running layout ram slot state)
    (healthy : Healthy strict tidy slot state) (page : Env.UserPage faultVa)
    (unlisted : faultVa ∉ (state.envs slot).recency)
    (some : (state.envs slot).pageWorkingSetList ≠ [])
    (full : ((state.envs slot).activeList.length : Int) = (state.envs slot).activeListSize)
    (present : state.dirWord .user slot (pageOf faultVa / 1024) ≠ 0) :
    Serves layout ram strict tidy slot faultVa state (placeBehindDemotion slot faultVa) state := by
  have lists := healthy.lists
  have positive := lists.activePositive
  obtain ⟨unused, element, free⟩ := exists_last some
  obtain ⟨front, last, tail⟩ : ∃ front last, (state.envs slot).activeList = front ++ [last] :=
    exists_last (List.ne_nil_of_length_pos (by omega))
  obtain ⟨nextLists, recency, grown⟩ := lists.demote page unlisted free full tail
  obtain ⟨notUnused, apart⟩ := lists.apart_unused free
  have notFront := (lists.listed.apart_tail tail).1
  have resident := healthy.resident
  have activePages := Env.activePages_tail tail
  generalize addressEq : ((state.envs slot).ptrPageWorkingSet last).virtualAddress = address
    at activePages
  have unlistedPages := unlisted
  rw [activePages] at resident
  rw [Env.recency_eq, activePages] at unlistedPages
  have pageTail := resident.pages address (by simp)
  have owned := resident.owned (show address ∈ _ ++ _ by simp)
  have secondPages : (state.envs slot).addresses (last :: (state.envs slot).secondList) =
      address :: (state.envs slot).secondPages := by
    rw [Env.addresses_cons, addressEq]
    rfl
  simp only [Serves, placeBehindDemotion, wp_bind, wp_get, tail, wp_listLast]
  refine (Shifted.refl running).wp_lists (state.envs slot).ptrPageWorkingSet
    (state.envs slot).pageWorkingSetList front (state.envs slot).secondList
    (by simp only [Env.withLists, tail, erase_last notFront]) fun shorter stepShorten => ?_
  simp only [stepShorten.env, Env.withLists, addressEq]
  refine stepShorten.wp_setPagePermissions valid pageTail.2 owned.ne_zero (owned_hide owned).ne_zero
    (by decide) (by decide) (by decide) (by decide) fun hidden stepHide => ?_
  refine stepHide.wp_lists (state.envs slot).ptrPageWorkingSet
    (state.envs slot).pageWorkingSetList front (last :: (state.envs slot).secondList) rfl
    fun longer stepLonger => ?_
  simp only [stepLonger.env, Env.withLists, free, wp_listLast]
  refine stepLonger.wp_lists (state.envs slot).ptrPageWorkingSet unused front
    (last :: (state.envs slot).secondList) (by simp only [Env.withLists, free, erase_last notUnused])
    fun taken stepTake => ?_
  refine stepTake.wp_lists ((state.envs slot).setAddress element faultVa) unused front
    (last :: (state.envs slot).secondList) rfl fun placed stepPlace => ?_
  refine bringIn_served page stepPlace ?_ ?_ ?_ nextLists valid present recency
    fun number different => ?_
  · rw [tail] at apart
    simpa using apart
  · rw [secondPages]
    exact resident.demote
  · rw [secondPages]
    simpa using unlistedPages
  · rw [setEntry_hide_ne_zero owned, grown]
    exact ⟨fun some => ⟨some, List.mem_cons_of_mem _⟩, And.left⟩

/-- The pages that are mapped after the least recent one left memory. -/
theorem mapped_of_evict {entry : Nat → Nat} {rest : List Nat} {address : Nat}
    (page : Env.UserPage address) (notRest : address ∉ rest) (different : faultVa ≠ address)
    (number : Nat) :
    Function.update entry (pageOf address) 0 number ≠ 0 ↔ entry number ≠ 0 ∧
      (number * pageSize ∈ rest ++ [address] → number * pageSize ∈ faultVa :: rest) := by
  by_cases same : number = pageOf address
  · subst same
    simp [pageOf_mul_pageSize page, notRest, different.symm]
  · rw [Function.update_of_ne same]
    have other : number * pageSize ≠ address := fun equal => same (by rw [← equal, pageOf_mul])
    refine ⟨fun some => ⟨some, fun member => ?_⟩, And.left⟩
    rcases List.mem_append.1 member with inRest | isLast
    · exact List.mem_cons_of_mem _ inRest
    · exact absurd (List.mem_singleton.1 isLast) other

theorem replaceActiveTail_spec (valid : layout.Valid) (running : Running layout ram slot state)
    (healthy : Healthy strict tidy slot state) (page : Env.UserPage faultVa)
    (unlisted : faultVa ∉ (state.envs slot).recency)
    (used : (state.envs slot).pageWorkingSetList = [])
    (noSecond : (state.envs slot).secondListSize = 0)
    (present : state.dirWord .user slot (pageOf faultVa / 1024) ≠ 0) :
    Serves layout ram strict tidy slot faultVa state (replaceActiveTail slot faultVa) state := by
  have lists := healthy.lists
  have length := lists.length_eq
  have sizes := lists.sizes
  have positive := lists.activePositive
  have secondBound := lists.secondBound
  have empty : (state.envs slot).secondList = [] := List.eq_nil_of_length_eq_zero (by omega)
  have noUnused : (state.envs slot).pageWorkingSetList.length = 0 := by rw [used]; rfl
  have noSecondLength : (state.envs slot).secondList.length = 0 := by rw [empty]; rfl
  obtain ⟨front, last, tail⟩ : ∃ front last, (state.envs slot).activeList = front ++ [last] :=
    exists_last (List.ne_nil_of_length_pos (by omega))
  obtain ⟨nextLists, recency, dropped⟩ := lists.replaceActive page unlisted used noSecond tail
  have notFront := (lists.listed.apart_tail tail).1
  have resident := healthy.resident
  have activePages := Env.activePages_tail tail
  have secondPages : (state.envs slot).secondPages = [] := by rw [Env.secondPages, empty]; rfl
  generalize addressEq : ((state.envs slot).ptrPageWorkingSet last).virtualAddress = address
    at activePages
  have recencyEq : (state.envs slot).recency = (state.envs slot).addresses front ++ [address] := by
    rw [Env.recency_eq, activePages, secondPages, List.append_nil]
  rw [activePages] at resident
  have pageTail := resident.pages address (by simp)
  have owned := resident.owned (show address ∈ _ ++ _ by simp)
  have notRest : address ∉ (state.envs slot).addresses front := by
    have distinct := lists.distinct
    rw [recencyEq] at distinct
    exact fun member => (List.nodup_append.1 distinct).2.2 _ member _ (List.mem_singleton_self _) rfl
  have removed := resident.remove (show address ∈ _ ++ _ by simp)
  rw [erase_last notRest, secondPages, List.erase_nil] at removed
  rw [recencyEq] at unlisted
  simp only [Serves, replaceActiveTail, wp_bind, wp_get, tail, wp_listLast]
  refine (Shifted.refl running).wp_lists (state.envs slot).ptrPageWorkingSet
    (state.envs slot).pageWorkingSetList front (state.envs slot).secondList
    (by simp only [Env.withLists, tail, erase_last notFront]) fun shorter stepShorten => ?_
  simp only [stepShorten.env, Env.withLists, addressEq]
  refine (stepShorten.wp_getFrameInfo valid pageTail.2).2 ?_
  refine (stepShorten.wp_ptGetPagePermissions valid pageTail.2 owned.ne_zero).2 ?_
  refine stepShorten.wp_writeBackIfModified valid pageTail.2 owned.ne_zero
    fun written space stepWrite entries saved => ?_
  refine stepWrite.wp_unmapFrame valid pageTail.2 saved fun unmapped stepUnmap => ?_
  refine stepUnmap.wp_lists ((state.envs slot).setAddress last faultVa)
    (state.envs slot).pageWorkingSetList front (state.envs slot).secondList rfl
    fun placed stepPlace => ?_
  have entriesNext : (space.unmap (pageOf address)).entry =
      Function.update (state.leaf .user slot) (pageOf address) 0 :=
    congrArg (Function.update · (pageOf address) 0) entries
  refine bringIn_served page stepPlace ?_ ?_ ?_ nextLists valid present recency
    fun number different => ?_
  · rwa [empty, List.append_nil]
  · rw [entriesNext]
    exact (show (state.envs slot).addresses (state.envs slot).secondList = [] from secondPages).symm ▸
      removed
  · change faultVa ∉ _ ++ (state.envs slot).secondPages
    rw [secondPages, List.append_nil]
    exact fun member => unlisted (List.mem_append_left _ member)
  · rw [entriesNext, dropped, recencyEq]
    exact mapped_of_evict pageTail notRest
      (fun same => unlisted (List.mem_append_right _ (same ▸ List.mem_singleton_self _))) number

/-- The tail of `SecondList` is an element of its own. -/
theorem Env.LruLists.apart_second {env : Env} (lists : env.LruLists) {back : List Nat}
    (secondTail : env.secondList = back ++ [element]) : element ∉ back ∧ element ∉ env.activeList := by
  have nodup := lists.listed.nodup
  rw [secondTail, ← List.append_assoc, List.nodup_append] at nodup
  have apart (other : Nat) (member : other ∈ env.activeList ++ back) : other ≠ element :=
    nodup.2.2 other member element (List.mem_singleton_self _)
  exact ⟨fun member => apart element (List.mem_append_right _ member) rfl,
    fun member => apart element (List.mem_append_left _ member) rfl⟩

/-- The least recent page is the tail of `SecondList`; the pages without it, of which the tail of `ActiveList`
is next to be hidden. -/
theorem Healthy.resident_without_last (healthy : Healthy strict tidy slot state) {front back : List Nat}
    {last address victim : Nat} (tail : (state.envs slot).activeList = front ++ [last])
    (secondTail : (state.envs slot).secondList = back ++ [element])
    (isAddress : ((state.envs slot).ptrPageWorkingSet last).virtualAddress = address)
    (isVictim : ((state.envs slot).ptrPageWorkingSet element).virtualAddress = victim) :
    (state.envs slot).recency = (state.envs slot).addresses (front ++ last :: back) ++ [victim] ∧
      victim ∉ (state.envs slot).addresses (front ++ last :: back) ∧
      Resident strict tidy (Function.update (state.leaf .user slot) (pageOf victim) 0)
        ((state.envs slot).addresses front ++ [address]) ((state.envs slot).addresses back) := by
  have resident := healthy.resident
  have activePages := Env.activePages_tail tail
  have secondPages := Env.secondPages_tail secondTail
  rw [isAddress] at activePages
  rw [isVictim] at secondPages
  have rest : (state.envs slot).addresses (front ++ last :: back) =
      (state.envs slot).addresses front ++ address :: (state.envs slot).addresses back := by
    rw [Env.addresses_append, Env.addresses_cons, isAddress]
  have recencyEq : (state.envs slot).recency =
      (state.envs slot).addresses (front ++ last :: back) ++ [victim] := by
    rw [Env.recency_eq, activePages, secondPages, rest]
    simp
  rw [activePages, secondPages] at resident
  have distinct := healthy.lists.distinct
  rw [recencyEq] at distinct
  have notRest : victim ∉ (state.envs slot).addresses (front ++ last :: back) := fun member =>
    (List.nodup_append.1 distinct).2.2 _ member _ (List.mem_singleton_self _) rfl
  have apart := notRest
  rw [rest] at apart
  have removed := resident.remove (show victim ∈ _ ++ _ by simp)
  rw [erase_last (fun member => apart (List.mem_append_right _ (List.mem_cons_of_mem _ member))),
    List.erase_of_not_mem (by simp at apart ⊢; tauto)] at removed
  exact ⟨recencyEq, notRest, removed⟩

theorem replaceSecondTail_spec (valid : layout.Valid) (running : Running layout ram slot state)
    (healthy : Healthy strict tidy slot state) (page : Env.UserPage faultVa)
    (unlisted : faultVa ∉ (state.envs slot).recency)
    (used : (state.envs slot).pageWorkingSetList = [])
    (second : (state.envs slot).secondListSize ≠ 0)
    (present : state.dirWord .user slot (pageOf faultVa / 1024) ≠ 0) :
    Serves layout ram strict tidy slot faultVa state (replaceSecondTail slot faultVa) state := by
  have lists := healthy.lists
  have length := lists.length_eq
  have sizes := lists.sizes
  have positive := lists.activePositive
  have activeBound := lists.activeBound
  have secondNonneg := lists.secondNonneg
  have noUnused : (state.envs slot).pageWorkingSetList.length = 0 := by rw [used]; rfl
  obtain ⟨back, element, secondTail⟩ : ∃ back element,
      (state.envs slot).secondList = back ++ [element] :=
    exists_last (List.ne_nil_of_length_pos (by omega))
  have full := lists.order (by rw [secondTail]; simp)
  obtain ⟨front, last, tail⟩ : ∃ front last, (state.envs slot).activeList = front ++ [last] :=
    exists_last (List.ne_nil_of_length_pos (by omega))
  obtain ⟨nextLists, recency, dropped⟩ := lists.replaceSecond page unlisted used secondTail tail
  have notFront := (lists.listed.apart_tail tail).1
  obtain ⟨notBack, notActive⟩ := lists.apart_second secondTail
  rw [tail] at notActive
  have activePages := Env.activePages_tail tail
  have secondPages := Env.secondPages_tail secondTail
  generalize addressEq : ((state.envs slot).ptrPageWorkingSet last).virtualAddress = address
    at activePages
  generalize victimEq : ((state.envs slot).ptrPageWorkingSet element).virtualAddress = victim
    at secondPages
  obtain ⟨recencyEq, notRest, removed⟩ := healthy.resident_without_last tail secondTail addressEq victimEq
  have resident := healthy.resident
  rw [activePages, secondPages] at resident
  have pageVictim := resident.pages victim (by simp)
  have pageTail := resident.pages address (by simp)
  have owned := resident.owned (show victim ∈ _ ++ _ by simp)
  have ownedTail := removed.owned (show address ∈ _ ++ _ by simp)
  rw [recencyEq] at unlisted
  simp only [Serves, replaceSecondTail, wp_bind, wp_get, secondTail, wp_listLast, victimEq]
  refine ((Shifted.refl running).wp_ptGetPagePermissions valid pageVictim.2 owned.ne_zero).2 ?_
  refine ((Shifted.refl running).wp_getFrameInfo valid pageVictim.2).2 ?_
  refine (Shifted.refl running).wp_writeBackIfModified valid pageVictim.2 owned.ne_zero
    fun written space stepWrite entries saved => ?_
  refine stepWrite.wp_unmapFrame valid pageVictim.2 saved fun unmapped stepUnmap => ?_
  have entriesUnmap : (space.unmap (pageOf victim)).entry =
      Function.update (state.leaf .user slot) (pageOf victim) 0 :=
    congrArg (Function.update · (pageOf victim) 0) entries
  rw [← entriesUnmap] at removed ownedTail
  refine stepUnmap.wp_lists (state.envs slot).ptrPageWorkingSet
    (state.envs slot).pageWorkingSetList (state.envs slot).activeList back
    (by rw [secondTail, erase_last notBack]; rfl) fun shorter stepShorten => ?_
  refine stepShorten.wp_lists ((state.envs slot).setAddress element faultVa)
    (state.envs slot).pageWorkingSetList (state.envs slot).activeList back rfl
    fun placed stepPlace => ?_
  have apartLast : last ≠ element := fun same => notActive (by simp [same])
  have addressPlaced : ((state.envs slot).setAddress element faultVa last).virtualAddress =
      address := by
    rw [← addressEq]
    exact congrArg WorkingSetElement.virtualAddress (if_neg apartLast)
  simp only [stepPlace.env, Env.withLists, tail, wp_listLast, addressPlaced]
  refine stepPlace.wp_setPagePermissions valid pageTail.2 ownedTail.ne_zero
    (owned_hide ownedTail).ne_zero (by decide) (by decide) (by decide) (by decide)
    fun hidden stepHide => ?_
  refine stepHide.wp_lists ((state.envs slot).setAddress element faultVa)
    (state.envs slot).pageWorkingSetList front back
    (by simp only [Env.withLists, tail, erase_last notFront]) fun cut stepCut => ?_
  refine stepCut.wp_lists ((state.envs slot).setAddress element faultVa)
    (state.envs slot).pageWorkingSetList front (last :: back) rfl fun moved stepMove => ?_
  have secondNext : (state.envs slot).addresses (last :: back) =
      address :: (state.envs slot).addresses back := by
    rw [Env.addresses_cons, addressEq]
  refine bringIn_served page stepMove ?_ ?_ ?_ nextLists valid present recency
    fun number different => ?_
  · simp only [List.mem_append, List.mem_cons, not_or] at notActive ⊢
    exact ⟨notActive.1, notActive.2.1, notBack⟩
  · rw [secondNext]
    exact removed.demote
  · rw [secondNext, ← addressEq, ← Env.addresses_cons, ← Env.addresses_append]
    exact fun member => unlisted (List.mem_append_left _ member)
  · rw [setEntry_hide_ne_zero ownedTail, entriesUnmap, dropped, recencyEq]
    exact mapped_of_evict pageVictim notRest
      (fun same => unlisted (List.mem_append_right _ (same ▸ List.mem_singleton_self _))) number

/-! ### The handlers -/

theorem Env.find_eq_some {env : Env} {elements : List Nat}
    (found : env.find elements faultVa = some element) :
    (env.ptrPageWorkingSet element).virtualAddress = faultVa ∧
      ∃ before after, elements = before ++ element :: after ∧ element ∉ before := by
  obtain ⟨holds, before, after, split, first⟩ := List.find?_eq_some_iff_append.1 found
  refine ⟨of_decide_eq_true holds, before, after, split, fun member => ?_⟩
  have := first element member
  rw [holds] at this
  cases this

theorem Env.find_eq_none {env : Env} {elements : List Nat}
    (missing : env.find elements faultVa = none) : faultVa ∉ env.addresses elements := by
  intro member
  obtain ⟨other, inList, same⟩ := Env.mem_addresses.1 member
  exact List.find?_eq_none.1 missing other inList (decide_eq_true same)

/-- A page fault is served, or it was an illegal access or memory ran out. -/
theorem pageFaultHandler_spec (valid : layout.Valid) (running : Running layout ram slot state)
    (healthy : Healthy strict tidy slot state) (low : faultVa < userTop)
    (present : state.dirWord .user slot (pageOf faultVa / 1024) ≠ 0)
    (inaccessible : ¬ Accessible (state.leaf .user slot (pageOf faultVa))) :
    Serves layout ram strict tidy slot (roundDown faultVa) state
      (pageFaultHandler slot faultVa) state := by
  have page : Env.UserPage (roundDown faultVa) := by
    constructor <;> simp only [roundDown, pageSize] at * <;> omega
  have lists := healthy.lists
  rw [← pageOf_roundDown] at present inaccessible
  have notActive : roundDown faultVa ∉ (state.envs slot).activePages := fun member =>
    inaccessible (healthy.resident.accessible _ member)
  simp only [Serves, pageFaultHandler, wp_bind, wp_get]
  generalize roundDown faultVa = address at *
  have unlisted (notSecond : address ∉ (state.envs slot).secondPages) :
      address ∉ (state.envs slot).recency := by
    rw [Env.recency_eq]
    exact fun member => (List.mem_append.1 member).elim notActive notSecond
  by_cases used : (state.envs slot).pageWorkingSetList = []
  · have none : ¬ (state.envs slot).pageWorkingSetList.length ≠ 0 := by simp [used]
    rw [if_neg none]
    cases found : (state.envs slot).find (state.envs slot).secondList address with
    | some element =>
        obtain ⟨same, before, after, split, first⟩ := Env.find_eq_some found
        exact secondListHit_spec valid running healthy split first same
    | none =>
        have fresh := unlisted (Env.find_eq_none found)
        by_cases second : (state.envs slot).secondListSize = 0
        · rw [if_pos second]
          exact replaceActiveTail_spec valid running healthy page fresh used second present
        · rw [if_neg second]
          exact replaceSecondTail_spec valid running healthy page fresh used second present
  · have some : (state.envs slot).pageWorkingSetList.length ≠ 0 := by simpa using used
    rw [if_pos some]
    by_cases full : ((state.envs slot).activeList.length : Int) = (state.envs slot).activeListSize
    · have isFull : ¬ ((state.envs slot).activeList.length : Int) ≠ (state.envs slot).activeListSize :=
        not_not.2 full
      rw [if_neg isFull]
      cases found : (state.envs slot).find (state.envs slot).secondList address with
      | some element =>
          obtain ⟨same, before, after, split, first⟩ := Env.find_eq_some found
          exact secondListHit_spec valid running healthy split first same
      | none =>
          exact placeBehindDemotion_spec valid running healthy page
            (unlisted (Env.find_eq_none found)) used full present
    · rw [if_pos full]
      -- a list that has room is followed by no second list
      have empty : (state.envs slot).secondList = [] := by
        by_contra some
        exact full (lists.order some)
      exact placeInActive_spec valid running healthy page
        (unlisted (by rw [Env.secondPages, empty]; exact List.not_mem_nil)) used full present

/-- A page table was made for the address, or the page was brought in. -/
inductive Handled (layout : BootLayout) (ram : Nat → Page) (strict tidy : Prop) (slot address : Nat)
    (state next : KernelState) : Prop
  | tabled (becomes : SpaceBecomes layout ram slot [] state [] next (state.space slot))
      (keeps : Keeps slot [] state [] next) (calm : Calm slot state next)
  | served (served : Served layout ram strict tidy slot address state next)

/-- The environment can go on. -/
theorem Handled.goesOn {address : Nat} {next : KernelState} (running : Running layout ram slot state)
    (healthy : Healthy strict tidy slot state)
    (handled : Handled layout ram strict tidy slot address state next) :
    Acts slot [] state [] next ∧ Running layout ram slot next ∧ Healthy strict tidy slot next := by
  cases handled with
  | tabled becomes keeps calm =>
      have env := calm.placed running.placed
      have leaf : next.leaf .user slot = state.leaf .user slot := congrArg Space.entry becomes.space
      have runningNext := running.stable becomes calm.toStable
      refine ⟨becomes.acts, runningNext, runningNext.live, runningNext.placed, ?_, ?_⟩
      · rw [env]
        exact healthy.lists
      · rw [env, leaf]
        exact healthy.resident
  | served served => exact ⟨served.acts, served.running, served.healthy⟩

theorem Halted.unchanged {address : Nat} (running : Running layout ram slot state)
    (healthy : Healthy strict tidy slot state) (exhausted : address < ustackTop → state.freeFrameList = []) :
    Halted layout ram tidy slot address state state where
  inv := running.inv
  acts := .refl slot [] state
  loaded := { healthy.loaded with resident := healthy.resident.weaken False.elim False.elim }
  legal _ _ := ⟨.refl slot [] state,
    { healthy.loaded with resident := healthy.resident.weaken False.elim id }⟩
  exhausted below _ := exhausted below

theorem faultHandler_spec (valid : layout.Valid) (running : Running layout ram slot state)
    (healthy : Healthy strict tidy slot state)
    (inaccessible : faultVa < userTop → ¬ Accessible (state.leaf .user slot (pageOf faultVa))) :
    wp (faultHandler faultVa)
      (fun _ next => Handled layout ram strict tidy slot (roundDown faultVa) state next)
      (onPanic (Halted layout ram tidy slot (roundDown faultVa) state)) state := by
  rw [faultHandler]
  by_cases high : ustackTop ≤ faultVa
  · rw [if_pos high]
    apply Halted.unchanged running healthy
    intro below
    have aligned : ustackTop ≤ roundDown faultVa := by
      simp only [ustackTop, userTop, uenvs, roundDown, pageSize] at high ⊢
      omega
    exact absurd below (not_lt.2 aligned)
  · have low : faultVa < userTop := by
      simp only [ustackTop, userTop] at high ⊢
      omega
    rw [if_neg high]
    simp only [wp_bind, wp_get, running.curenv]
    rw [root_eq, mem_root running.live low]
    by_cases absent : state.dirWord .user slot (pageOf faultVa / 1024) = 0
    · rw [absent, hasPerm_zero]
      simp only [Bool.false_eq_true, if_false, tableFaultHandler, staticCpt, wp_bind, wp_get, wp_pure]
      have creates := createTable_spec valid running.inv running.live low absent
      refine wp_mono creates
        (fun table next created => ?_) fun stop next => onPanic.mono fun _ stopped => ?_
      · obtain ⟨becomes, keeps, calm, -, -⟩ := created
        exact .tabled becomes keeps calm
      · obtain ⟨rfl, noFrames⟩ := stopped
        exact .unchanged running healthy fun _ => noFrames
    · rw [dirWord_present running.inv absent, if_pos rfl]
      exact wp_mono (pageFaultHandler_spec valid running healthy low absent (inaccessible low))
        (fun _ _ => .served) fun _ _ => id

end Fos.Kernel
