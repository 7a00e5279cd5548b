import Fos.Kernel.FiledPages

/-! The pages in the lists of an environment and their places in the page file. -/

set_option autoImplicit false

namespace Fos.Kernel

open Foundation

variable {layout : BootLayout} {ram : Nat → Page} {slot address size : Nat} {strict tidy : Prop}
  {state next : KernelState} {event : Event}

/-- Every page in `ActiveList` or `SecondList` has a page-file frame. -/
def ListedOnDisk (state : KernelState) (slot : Nat) : Prop :=
  ∀ address ∈ (state.envs slot).recency, state.leaf .disk slot (pageOf address) ≠ 0

/-- A page that comes into a list gets a place in the page file, and none loses its place that stays in a list. -/
def FindsPlace (state : KernelState) : Event → Prop
  -- the segments do not use up the page file when the stack page is added
  | .create program _ _ => stackPage ∈ program.footprint ∨ program.footprint.ncard ≠ state.diskFreeFrameList.length
  | .fault address _ => ∀ slot, state.curenv = some slot → state.leaf .disk slot (pageOf address) ≠ 0 ∨
      state.diskFreeFrameList ≠ [] ∨ pageOf address < pageOf ustackBottom
  -- the lists are searched for the address, the page file for its page
  | .freeMem address size => ∀ slot, state.curenv = some slot → address % pageSize = 0 ∨
      ∀ listed ∈ (state.envs slot).recency, pageOf listed ∉ (rangeOf address (roundUp size / pageSize)).map pageOf
  | _ => True

theorem ListedOnDisk.undisturbed (undisturbed : Undisturbed slot state next) (listed : ListedOnDisk state slot) :
    ListedOnDisk next slot := by
  obtain ⟨status, env⟩ := undisturbed.status
  have disk : next.leaf .disk slot = state.leaf .disk slot := congrArg Space.diskFrame undisturbed.space
  intro address member
  rw [env] at member
  rw [disk]
  exact listed address member

theorem ListedOnDisk.worked (healthy : Healthy strict tidy slot state) (finds : FindsPlace state event)
    (curenv : state.curenv = some slot) (worked : Worked slot state next event) (listed : ListedOnDisk state slot) :
    ListedOnDisk next slot := by
  intro other member
  cases worked with
  | kept recency disk =>
      rw [recency] at member
      rw [disk]
      exact listed other member
  | @brought address access recency refiled =>
      rw [recency, touch] at member
      have stays (page : Nat) (before : page ∈ (state.envs slot).recency) : next.leaf .disk slot (pageOf page) ≠ 0 := by
        by_cases same : pageOf page = pageOf (roundDown address)
        · rw [same, refiled.kept (.inl (same ▸ listed page before))]
          exact same ▸ listed page before
        · rw [refiled.others _ same]
          exact listed page before
      cases List.mem_cons.1 (List.mem_of_mem_take member) with
      | inr before => exact stays other (List.mem_of_mem_erase before)
      | inl faulted =>
          rw [faulted]
          have finds := finds slot curenv
          rw [← pageOf_roundDown] at finds
          by_cases before : roundDown address ∈ (state.envs slot).recency
          · exact stays _ before
          · cases finds with
            | inl placed => exact (refiled.kept (.inl placed)).trans_ne placed
            | inr room => exact refiled.given before room
  | allocated recency kept =>
      rw [recency] at member
      exact kept _ (listed other member)
  | @freed address size recency disk =>
      rw [recency] at member
      obtain ⟨before, stays⟩ := List.mem_filter.1 member
      rw [disk, if_neg]
      · exact listed other before
      · cases finds slot curenv with
        | inr apart => exact apart other before
        | inl aligned =>
            intro removed
            obtain ⟨found, within, same⟩ := List.mem_map.1 removed
            have whole := aligned_of_mem_rangeOf aligned within
            have wholeOther := (healthy.lists.pages other before).1
            have equal : found = other := by
              simp only [pageOf, pageSize] at same whole wholeOther
              omega
            exact absurd (equal ▸ within) (of_decide_eq_true stays)

theorem ListedOnDisk.created {program : UserProgram} {pageWSSize secondListSize : Nat} {pages : List Nat}
    (vacant : state.Vacant slot) (loadable : program.Loadable)
    (finds : FindsPlace state (.create program pageWSSize secondListSize))
    (creates : Created layout ram slot program pageWSSize secondListSize pages state next) : ListedOnDisk next slot := by
  intro address member
  rw [creates.filed_iff vacant loadable.sound]
  rcases List.mem_append.1 (creates.recorded.perm_recency.mem_iff.1 member) with loaded | stack
  · obtain ⟨segment, within, touches⟩ := creates.within address loaded
    exact .inl ⟨segment, within, .inl touches⟩
  · rw [List.mem_singleton.1 stack]
    have room := creates.footprint_le vacant loadable.sound
    exact finds.imp id fun different => ⟨rfl, lt_of_le_of_ne room different⟩

private def straying : List Event := opening ++ [.freeMem 0xEEBFD001 4096]

end Fos.Kernel
