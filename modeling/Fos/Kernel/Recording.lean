import Fos.Kernel.Running

/-! The working-set lists while a program is loaded: one element after the other gets a
page. -/

set_option autoImplicit false

namespace Fos.Kernel

open Foundation

namespace Env

variable {env : Env} {pages : List Nat} {address limit : Nat}

/-- What `recordLoadedPage` makes of the record. -/
def record (env : Env) (address limit : Nat) : Env :=
  { env.setElement env.pageLastWSIndex ⟨address, false⟩ with
    pageWorkingSetList := env.pageWorkingSetList.erase env.pageLastWSIndex
    activeList := if env.activeList.length < limit then env.pageLastWSIndex :: env.activeList
      else env.activeList
    secondList := if env.activeList.length < limit then env.secondList
      else env.pageLastWSIndex :: env.secondList
    pageLastWSIndex := (env.pageLastWSIndex + 1) % env.pageWSMaxSize }

/-- The element of a page by the order of loading. -/
def elementOf (pages : List Nat) (index : Nat) : WorkingSetElement :=
  match pages[index]? with
  | some address => ⟨address, false⟩
  | none => ⟨0, true⟩

/-- The first elements hold the loaded pages in the order of loading. -/
structure Recorded (env : Env) (pages : List Nat) : Prop where
  fits : pages.length ≤ env.pageWSMaxSize
  size : env.pageWSMaxSize ≤ pwsMaxSize
  index : env.pageLastWSIndex = pages.length % env.pageWSMaxSize
  unused : env.pageWorkingSetList =
    (List.range' pages.length (env.pageWSMaxSize - pages.length)).reverse
  elements : ∀ index < env.pageWSMaxSize, env.ptrPageWorkingSet index = elementOf pages index
  lists : (env.activeList ++ env.secondList).Perm (List.range pages.length)

namespace Recorded

theorem index_eq (recorded : env.Recorded pages) (room : pages.length < env.pageWSMaxSize) :
    env.pageLastWSIndex = pages.length := by
  rw [recorded.index, Nat.mod_eq_of_lt room]

/-- The next element is the last of `PageWorkingSetList`. -/
theorem unused_split (recorded : env.Recorded pages) (room : pages.length < env.pageWSMaxSize) :
    env.pageWorkingSetList =
      (List.range' (pages.length + 1) (env.pageWSMaxSize - (pages.length + 1))).reverse ++
        [pages.length] := by
  have count : env.pageWSMaxSize - pages.length = env.pageWSMaxSize - (pages.length + 1) + 1 := by omega
  rw [recorded.unused, count, List.range'_succ, List.reverse_cons]

theorem record (recorded : env.Recorded pages) (room : pages.length < env.pageWSMaxSize)
    (address limit : Nat) : (env.record address limit).Recorded (pages ++ [address]) := by
  have index := recorded.index_eq room
  have length : (pages ++ [address]).length = pages.length + 1 := by simp
  refine ⟨?_, recorded.size, ?_, ?_, fun other low => ?_, ?_⟩
  · rw [length]
    exact room
  · simp only [Env.record, setElement, index, length]
  · have split := recorded.unused_split room
    have apart : pages.length ∉
        (List.range' (pages.length + 1) (env.pageWSMaxSize - (pages.length + 1))).reverse := by
      rw [List.mem_reverse, List.mem_range'_1]
      omega
    simp only [Env.record, setElement, index, length]
    rw [split, erase_last apart]
  · have sameSize : (env.record address limit).pageWSMaxSize = env.pageWSMaxSize := rfl
    rw [sameSize] at low
    simp only [Env.record, setElement, index, elementOf]
    by_cases here : other = pages.length
    · rw [if_pos here, here, List.getElem?_concat_length]
    · rw [if_neg here, recorded.elements other low, elementOf]
      by_cases before : other < pages.length
      · rw [List.getElem?_append_left before]
      · rw [List.getElem?_eq_none (by omega), List.getElem?_eq_none (by rw [length]; omega)]
  · have perm : ((env.record address limit).activeList ++ (env.record address limit).secondList).Perm
        (env.pageLastWSIndex :: (env.activeList ++ env.secondList)) := by
      simp only [Env.record, setElement]
      split
      · exact List.Perm.refl _
      · exact List.perm_middle
    refine perm.trans ?_
    rw [length, List.range_succ, index]
    exact (recorded.lists.cons _).trans (List.perm_append_singleton _ _).symm

/-- The lists hold the loaded pages, in some order. -/
theorem perm_recency (recorded : env.Recorded pages) : env.recency.Perm pages := by
  have inOrder : env.addresses (List.range pages.length) = pages := by
    refine List.ext_getElem (by simp [addresses]) fun index low below => ?_
    have element := recorded.elements index (below.trans_le recorded.fits)
    simp [addresses, element, elementOf, below]
  have perm := recorded.lists.map fun element => (env.ptrPageWorkingSet element).virtualAddress
  exact perm.trans (List.Perm.of_eq inOrder)

/-- Where the pages are distinct and `ActiveList` was filled first, the lists are as the fault
handler expects them. -/
theorem lruLists (recorded : env.Recorded pages) (distinct : pages.Nodup)
    (users : ∀ address ∈ pages, UserPage address)
    (sizes : env.activeListSize + env.secondListSize = env.pageWSMaxSize)
    (positive : 0 < env.activeListSize) (nonneg : 0 ≤ env.secondListSize)
    (front : env.activeList.length = min pages.length env.activeListSize.toNat) : env.LruLists := by
  have fits := recorded.fits
  have length : env.activeList.length + env.secondList.length = pages.length := by
    simpa using recorded.lists.length_eq
  have perm := recorded.perm_recency
  refine ⟨?_, recorded.size, sizes, positive, nonneg, ?_, ?_, fun some => ?_, perm.nodup_iff.2 distinct,
    fun address member => users address (perm.mem_iff.1 member)⟩
  · rw [recorded.unused]
    have split : List.range env.pageWSMaxSize = List.range pages.length ++
        List.range' pages.length (env.pageWSMaxSize - pages.length) := by
      have appended := @List.range'_append_1 0 pages.length (env.pageWSMaxSize - pages.length)
      rw [Nat.zero_add, Nat.add_sub_cancel' fits] at appended
      rw [List.range_eq_range', List.range_eq_range', appended]
    rw [split]
    exact ((List.reverse_perm _).append recorded.lists).trans List.perm_append_comm
  · omega
  · omega
  · have := List.length_pos_of_ne_nil some
    omega

end Recorded

end Env

variable {slot address limit : Nat} {pages : List Nat} {state : KernelState}

@[simp] theorem KernelState.setEnv_setEnv (state : KernelState) (slot : Nat) (first second : Env) :
    (state.setEnv slot first).setEnv slot second = state.setEnv slot second := by
  simp only [KernelState.setEnv, KernelState.mk.injEq, true_and, and_true]
  funext other
  split <;> rfl

/-- While there is room the next element gets the page. -/
theorem wp_recordLoadedPage (recorded : (state.envs slot).Recorded pages)
    (room : pages.length < (state.envs slot).pageWSMaxSize)
    {post : Unit → KernelState → Prop} {fail : Stop → KernelState → Prop} :
    wp (recordLoadedPage slot address limit) post fail state ↔
      post () (state.setEnv slot ((state.envs slot).record address limit)) := by
  have index := recorded.index_eq room
  have inArray : ¬ pwsMaxSize ≤ (state.envs slot).pageLastWSIndex := by
    rw [index]
    exact not_le.2 (room.trans_le recorded.size)
  have unused : (state.envs slot).pageLastWSIndex ∈ (state.envs slot).pageWorkingSetList := by
    rw [index, recorded.unused_split room]
    exact List.mem_append_right _ (List.mem_singleton.2 rfl)
  have some : ¬ (state.envs slot).pageWSMaxSize = 0 := by omega
  unfold recordLoadedPage
  rw [wp_bind, wp_get]
  simp only [if_neg inArray, not_not.2 unused, if_false]
  rw [wp_bind, wp_modifyEnv, if_neg some]
  by_cases front : (state.envs slot).activeList.length < limit
  · rw [if_pos front, wp_bind, wp_modifyEnv, wp_modifyEnv]
    simp only [KernelState.setEnv_self, KernelState.setEnv_setEnv, Env.record, Env.setElement, if_pos front]
  · rw [if_neg front, wp_bind, wp_modifyEnv, wp_modifyEnv]
    simp only [KernelState.setEnv_self, KernelState.setEnv_setEnv, Env.record, Env.setElement, if_neg front]

end Fos.Kernel
