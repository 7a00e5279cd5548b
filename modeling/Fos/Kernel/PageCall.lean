import Fos.Kernel.SystemProperties

/-! The allocate-page system call as its caller sees it: the dispatcher drops what
`__sys_allocate_page` returns, and a frame is taken before the arguments are checked. -/

set_option autoImplicit false

namespace Fos.Kernel

open Foundation

variable {layout : BootLayout} {ram : Nat → Page} {slot address perm : Nat} {state : KernelState}

/-- The dispatcher's case for `SYS_allocate_page`. -/
def syscallAllocatePage (slot a1 a2 : Nat) : KernelM Int := do
  let _ ← sysAllocatePage slot a1 a2
  return 0

/-- The permissions the comment on `__sys_allocate_page` allows. -/
def DocumentedPerm (perm : Nat) : Prop :=
  perm &&& (wordSize - 1 - (permAvailable ||| permWriteable ||| permPresent)) = permUser

/-- A frame that was free is mapped at the page and holds zeros. -/
def MapsZeroFrame (slot address perm : Nat) (state next : KernelState) : Prop :=
  ∃ frame ∈ state.freeFrameList, next.leaf .user slot (pageOf address) = pageEntry frame perm ∧
    ∀ index < 1024, next.mem frame index = 0

/-- The free frames, the reference counts and the page tables are the same. -/
structure MemoryKept (state next : KernelState) : Prop where
  freeFrameList : next.freeFrameList = state.freeFrameList
  references : next.references = state.references
  tables : ∀ owner index, next.dirWord .user owner index = state.dirWord .user owner index
  entries : ∀ owner page, next.leaf .user owner page = state.leaf .user owner page

/-- The call does all that is documented, or refuses and does nothing. -/
def AllOrNothing (slot address perm : Nat) (state : KernelState) : Prop :=
  ∃ result next, syscallAllocatePage slot address perm state = .ok result next ∧
    (address < userTop ∧ address % pageSize = 0 ∧ DocumentedPerm perm →
      result = 0 ∧ MapsZeroFrame slot address perm state next) ∧
    (¬ (address < userTop ∧ address % pageSize = 0 ∧ DocumentedPerm perm) → result = eInval ∧ MemoryKept state next)

/-! ### Permissions -/

theorem testBit_documented (documented : DocumentedPerm perm) (bit : Nat) :
    (perm.testBit bit && (wordSize - 1 - (permAvailable ||| permWriteable ||| permPresent)).testBit bit) =
      permUser.testBit bit := by
  rw [← Nat.testBit_and, documented]

theorem lt_of_documented (word : perm < wordSize) (documented : DocumentedPerm perm) : perm < pageSize := by
  apply Nat.lt_pow_two_of_testBit (n := 12)
  intro bit high
  cases Nat.lt_or_ge bit 32 with
  | inl inside =>
      have both : ∀ bit < 32, 12 ≤ bit →
          (wordSize - 1 - (permAvailable ||| permWriteable ||| permPresent)).testBit bit = true ∧
            permUser.testBit bit = false := by decide
      have here := testBit_documented documented bit
      rwa [(both bit inside high).1, (both bit inside high).2, Bool.and_true] at here
  | inr outside => exact Nat.testBit_lt_two_pow (word.trans_le (Nat.pow_le_pow_right Nat.two_pos outside))

/-- What the code accepts is documented. -/
theorem AcceptedPerm.documented (accepted : AcceptedPerm perm) : DocumentedPerm perm := by
  have mask : wordSize - 1 - (permAvailable ||| permWriteable ||| permPresent) =
      (wordSize - 1 - (permAvailable ||| permWriteable)) &&& (wordSize - 1 - permPresent) := by decide
  rw [DocumentedPerm, mask, ← Nat.land_assoc, accepted]
  decide

/-! ### The call -/

/-- Frames that are free are not mapped. -/
theorem Inv.free_unmapped (inv : Inv layout ram state) {frame : Nat} (free : frame ∈ state.freeFrameList)
    (low : perm < pageSize) :
    state.leaf .user slot (pageOf address) ≠ pageEntry frame perm := by
  intro same
  have mapped : state.leaf .user slot (pageOf address) ≠ 0 := by
    rw [same]
    exact constructEntry_ne_zero _ (Nat.or_lt_two_pow (n := 12) low (by decide)) (by simp)
  have named := KernelState.names_page mapped
  rw [same, frameOf_pageEntry frame low] at named
  exact inv.exclusive.apart _ _ named free

/-- Arguments that are refused cost a frame. -/
theorem wp_sysAllocatePage_refused (inv : Inv layout ram state) (some : state.freeFrameList ≠ [])
    (why : userTop ≤ address ∨ address % pageSize ≠ 0 ∨ ¬ AcceptedPerm perm) :
    wp (sysAllocatePage slot address perm)
      (fun _ next => ∀ page, next.leaf .user slot page = state.leaf .user slot page) (fun _ _ => False) state := by
  rw [sysAllocatePage, wp_bind]
  apply wp_mono (allocateFrame_spec inv slot)
  · rintro frame next ⟨becomes, -⟩
    have leaf (page : Nat) : next.leaf .user slot page = state.leaf .user slot page := becomes.entry page
    by_cases improper : userTop ≤ address ∨ address % pageSize ≠ 0
    · rw [if_pos improper]
      exact leaf
    · have refused : perm &&& (wordSize - 1 - (permAvailable ||| permWriteable)) ≠ permUser := by
        obtain ⟨below, whole⟩ := not_or.1 improper
        exact (why.resolve_left below).resolve_left whole
      rw [if_neg improper, if_pos refused]
      exact leaf
  · intro stop next stopped
    cases stop with
    | panic message => exact some stopped.2
    | undefined access => exact stopped

/-- With two free frames, one for the page and one for a page table, the call succeeds. -/
theorem wp_sysAllocatePage_accepted (valid : layout.Valid) (inv : Inv layout ram state) (live : state.root .user slot ≠ 0)
    (free : 2 ≤ state.freeFrameList.length) (word : perm < wordSize) (low : address < userTop)
    (whole : address % pageSize = 0) (accepted : AcceptedPerm perm) :
    wp (sysAllocatePage slot address perm) (fun _ next => MapsZeroFrame slot address perm state next) (fun _ _ => False)
      state := by
  obtain ⟨lowPerm, -⟩ := permissions_accepted word accepted
  rw [sysAllocatePage, wp_bind]
  apply wp_mono (allocateFrame_spec inv slot)
  · rintro frame first ⟨becomesTake, -, calmTake, fresh, managed, unreferenced, -, taken⟩
    have inFree : frame ∈ state.freeFrameList := taken ▸ List.mem_cons_self ..
    have proper : ¬ (userTop ≤ address ∨ address % pageSize ≠ 0) := not_or.2 ⟨not_le.2 low, not_not.2 whole⟩
    have bound : frameOf (toPhysicalAddress frame) < first.numberOfFrames := by
      rw [frameOf_toPhysicalAddress, becomesTake.inv.size]
      exact (managed.pos valid).2
    have passes : ¬ perm &&& (wordSize - 1 - (permAvailable ||| permWriteable)) ≠ permUser := not_not.2 accepted
    rw [if_neg proper, if_neg passes, wp_bind, wp_staticKernelVirtualAddress bound, frameOf_toPhysicalAddress,
      wp_bind, wp_modify, wp_bind, wp_get, wp_bind, root_eq]
    obtain ⟨becomesZero, -⟩ := becomesTake.inv.writeFresh slot fresh managed (List.mem_singleton_self _) Page.zero
    have liveTake : first.root .user slot ≠ 0 := calmTake.toStable.root_user ▸ live
    apply wp_mono (mapFrame_spec valid becomesZero.inv liveTake low (fresh_writeFrame fresh _) managed unreferenced lowPerm)
    · rintro _ last ⟨becomesMap, -⟩
      have entry := becomesMap.entry (pageOf address)
      have mapped : last.leaf .user slot (pageOf address) = pageEntry frame perm := by
        rw [entry]
        exact Function.update_self ..
      have content := congrFun (congrArg Space.content becomesMap.space) (pageOf address)
      have nonzero : pageEntry frame perm ≠ 0 := constructEntry_ne_zero _ (present_lt lowPerm) (by simp)
      simp only [KernelState.space, mapped, nonzero, if_false, frameOf_pageEntry frame lowPerm, Space.map,
        Function.update_self] at content
      refine ⟨frame, inFree, mapped, fun index inside => ?_⟩
      have words := congrFun content index
      simpa [Page.words, inside, KernelState.writeFrame, Page.zero] using words
    · intro stop next stopped
      cases stop with
      | panic message =>
          obtain ⟨-, none, -⟩ := stopped
          have one : first.freeFrameList = [] := none
          rw [taken, one] at free
          exact absurd free (by simp)
      | undefined access => exact stopped
  · intro stop next stopped
    cases stop with
    | panic message =>
        rw [stopped.2] at free
        exact absurd free (by simp)
    | undefined access => exact stopped

/-- The call does what it documents exactly for arguments that `__sys_allocate_page` accepts. -/
theorem allOrNothing_iff (valid : layout.Valid) (reached : (kernel layout).Reaches Contained state)
    (curenv : state.curenv = some slot) (word : perm < wordSize) (free : 2 ≤ state.freeFrameList.length) :
    AllOrNothing slot address perm state ↔ address < userTop ∧ address % pageSize = 0 ∧ AcceptedPerm perm := by
  obtain ⟨ram, population⟩ := population_of_contained valid reached
  obtain ⟨-, running, -⟩ := population.running curenv
  constructor
  · rintro ⟨result, next, outcome, accepts, refuses⟩
    have returned : result = 0 := by
      have zero : wp (syscallAllocatePage slot address perm) (fun result _ => result = 0) (fun _ _ => True) state := by
        rw [syscallAllocatePage, wp_bind]
        unfold wp
        split <;> trivial
      exact (wp_of_ok outcome).1 zero
    by_cases documented : address < userTop ∧ address % pageSize = 0 ∧ DocumentedPerm perm
    · refine ⟨documented.1, documented.2.1, ?_⟩
      by_contra refused
      obtain ⟨-, frame, isFree, mapped, -⟩ := accepts documented
      have some : state.freeFrameList ≠ [] := List.ne_nil_of_mem isFree
      have kept : wp (syscallAllocatePage slot address perm)
          (fun _ next => ∀ page, next.leaf .user slot page = state.leaf .user slot page) (fun _ _ => False) state := by
        rw [syscallAllocatePage, wp_bind]
        exact wp_sysAllocatePage_refused running.inv some (.inr (.inr refused))
      have same := (wp_of_ok outcome).1 kept (pageOf address)
      exact running.inv.free_unmapped isFree (lt_of_documented word documented.2.2) (same.symm.trans mapped)
    · have refusal := (refuses documented).1
      rw [returned] at refusal
      cases refusal
  · rintro ⟨low, whole, accepted⟩
    have allocates : wp (syscallAllocatePage slot address perm)
        (fun result next => result = 0 ∧ MapsZeroFrame slot address perm state next) (fun _ _ => False) state := by
      rw [syscallAllocatePage, wp_bind]
      apply wp_mono (wp_sysAllocatePage_accepted valid running.inv running.live free word low whole accepted)
      · exact fun _ _ maps => ⟨rfl, maps⟩
      · exact fun _ _ never => never
    obtain ⟨result, next, outcome, holds⟩ | ⟨_, _, _, never⟩ := wp_cases allocates
    · refine ⟨result, next, outcome, fun _ => holds, fun undocumented => ?_⟩
      exact absurd ⟨low, whole, accepted.documented⟩ undocumented
    · exact never.elim

/-- A writeable page of the heap. -/
theorem allOrNothing_iff_heap : ∃ state, state.curenv = some 0 ∧ state.leaf .user 0 (pageOf 0x80000000) = 0 ∧
    AllOrNothing 0 0x80000000 (permUser ||| permWriteable) state := by
  obtain ⟨state, reached, curenv, unmapped, free⟩ := System.Reaches.exists_of_run
    (⟨_, _, rfl⟩ : (kernel .small).start cleanMachine) contained_opening
    (by decide +kernel : ∃ last ∈ (kernel .small).run cleanMachine opening,
      last.curenv = some 0 ∧ last.leaf .user 0 (pageOf 0x80000000) = 0 ∧ 2 ≤ last.freeFrameList.length)
  exact ⟨state, curenv, unmapped, (allOrNothing_iff BootLayout.small_valid reached curenv (by decide) free).2
    ⟨by decide, by decide, rfl⟩⟩

/-- A page above `USER_TOP`: the caller receives 0, and a frame is gone. -/
theorem not_allOrNothing : ∃ state, (kernel .small).Reaches Contained state ∧ state.curenv = some 0 ∧
    2 ≤ state.freeFrameList.length ∧ (∃ next, syscallAllocatePage 0 userTop permUser state = .ok 0 next ∧
      next.freeFrameList.length + 1 = state.freeFrameList.length) ∧ ¬ AllOrNothing 0 userTop permUser state := by
  obtain ⟨state, reached, curenv, free, called⟩ := System.Reaches.exists_of_run
    (⟨_, _, rfl⟩ : (kernel .small).start cleanMachine) contained_opening
    (by decide +kernel : ∃ last ∈ (kernel .small).run cleanMachine opening,
      last.curenv = some 0 ∧ 2 ≤ last.freeFrameList.length ∧
        wp (syscallAllocatePage 0 userTop permUser) (fun result next => result = 0 ∧
          next.freeFrameList.length + 1 = last.freeFrameList.length) (fun _ _ => False) last)
  obtain ⟨result, next, outcome, rfl, lost⟩ | ⟨_, _, _, never⟩ := wp_cases called
  · refine ⟨state, reached, curenv, free, ⟨next, outcome, lost⟩, ?_⟩
    rintro ⟨result, last, same, -, refuses⟩
    rw [outcome] at same
    cases same
    have refusal := (refuses fun documented => absurd documented.1 (lt_irrefl _)).1
    cases refusal
  · exact never.elim

end Fos.Kernel
