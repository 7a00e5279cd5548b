import Fos.Kernel.SystemProperties

/-! The working-set lists over runs: what they represent, and the policy that page faults and
`freeMem` follow. -/

set_option autoImplicit false

namespace Fos.Kernel

open Foundation

variable {layout : BootLayout} {ram : Nat → Page} {slot address size : Nat} {strict tidy : Prop}
  {state next : KernelState}

/-! ### The representation -/

/-- The three lists hold every element once, within their sizes, and their pages are distinct: those of
`ActiveList` are present, and those of `SecondList` have an entry that is not. -/
structure RepresentsLists (slot : Nat) (state : KernelState) : Prop where
  elements : ((state.envs slot).pageWorkingSetList ++ ((state.envs slot).activeList ++ (state.envs slot).secondList)).Perm
    (List.range (state.envs slot).pageWSMaxSize)
  activeBound : ((state.envs slot).activeList.length : Int) ≤ (state.envs slot).activeListSize
  secondBound : ((state.envs slot).secondList.length : Int) ≤ (state.envs slot).secondListSize
  order : (state.envs slot).secondList ≠ [] →
    ((state.envs slot).activeList.length : Int) = (state.envs slot).activeListSize
  distinct : (state.envs slot).recency.Nodup
  present : ∀ page ∈ (state.envs slot).activePages, hasPerm (state.leaf .user slot (pageOf page)) permPresent = true
  hidden : ∀ page ∈ (state.envs slot).secondPages, state.leaf .user slot (pageOf page) ≠ 0 ∧
    hasPerm (state.leaf .user slot (pageOf page)) permPresent = false

theorem Healthy.representsLists (healthy : Healthy True tidy slot state) : RepresentsLists slot state where
  elements := healthy.lists.elements
  activeBound := healthy.lists.activeBound
  secondBound := healthy.lists.secondBound
  order := healthy.lists.order
  distinct := healthy.lists.distinct
  present page member := (hasPerm_present _).trans (healthy.resident.accessible page member).1
  hidden page member := ⟨(healthy.resident.retained page member).ne_zero,
    (hasPerm_present _).trans (healthy.resident.hidden trivial page member)⟩

/-- The handler never takes the head or the end of a list that has none. -/
def HandlesFaults (slot : Nat) (state : KernelState) : Prop :=
  ∀ faultVa access, state.curenv = some slot →
    state.userTranslate (state.envs slot).envPageDirectory faultVa access = none →
      ∀ stop next, faultHandler faultVa state = .error stop next → ∃ message, stop = .panic message

theorem Population.handlesFaults (valid : layout.Valid) (population : Population layout ram strict tidy state) :
    HandlesFaults slot state := by
  intro faultVa access curenv faults stop next stops
  obtain ⟨-, running, healthy⟩ := population.running curenv
  have handled := (wp_of_error stops).1
    (faultHandler_spec valid running healthy (population.inaccessible curenv faults))
  cases stop with
  | panic message => exact ⟨message, rfl⟩
  | undefined access => exact handled.elim

/-- The pages of a stack are touched. -/
private def touches : List Event :=
  [.fault (stackAddress - 0x1000) .read, .fault (stackAddress - 0x2000) .read, .fault (stackAddress - 0x3000) .read,
    .fault (stackAddress - 0x4000) .read, .fault (stackAddress - 0x5000) .read]

/-! ### The policy -/

/-- `ActiveList` is the front of the sequence of pages. -/
def ActiveFirst (env : Env) : Prop := env.activePages = env.recency.take env.activeListSize.toNat

theorem Env.LruLists.activeFirst {env : Env} (lists : env.LruLists) : ActiveFirst env := by
  have length : env.activePages.length = env.activeList.length := List.length_map ..
  have bound := lists.activeBound
  rw [ActiveFirst, Env.recency_eq]
  by_cases none : env.secondList = []
  · have empty : env.secondPages = [] := by
      rw [Env.secondPages, none]
      rfl
    rw [empty, List.append_nil, List.take_of_length_le]
    omega
  · have full := lists.order none
    have size : env.activeListSize.toNat = env.activePages.length := by omega
    rw [size, List.take_left]

/-- The page moves to the front of the sequence, and what drops off its end is unmapped. -/
structure ServesByRecency (slot faultVa : Nat) (state next : KernelState) : Prop where
  recency : (next.envs slot).recency =
    (faultVa :: (state.envs slot).recency.erase faultVa).take (state.envs slot).pageWSMaxSize
  active : ActiveFirst (next.envs slot)
  sizes : (next.envs slot).activeListSize = (state.envs slot).activeListSize
  unmapped : ∀ page, state.leaf .user slot page ≠ 0 → (next.leaf .user slot page = 0 ↔
    page * pageSize ∈ (state.envs slot).recency ∧ page * pageSize ∉ (next.envs slot).recency)

theorem Served.byRecency (page : Env.UserPage address) (positive : 0 < (state.envs slot).pageWSMaxSize)
    (served : Served layout ram strict tidy slot address state next) : ServesByRecency slot address state next where
  recency := served.recency
  active := served.healthy.lists.activeFirst
  sizes := by
    obtain ⟨elements, unused, active, second, env⟩ := served.lists
    rw [env]
    rfl
  unmapped number mapped := by
    have head : address ∈ (next.envs slot).recency := by
      rw [served.recency, touch]
      cases size : (state.envs slot).pageWSMaxSize with
      | zero => omega
      | succ size => exact List.mem_cons_self ..
    have still := served.mapped number
    constructor
    · intro zero
      obtain ⟨different, gone⟩ := not_or.1 (mt still.2 (not_not.2 zero))
      have listed : number * pageSize ∈ (state.envs slot).recency := by
        by_contra unlisted
        exact gone ⟨mapped, fun member => absurd member unlisted⟩
      exact ⟨listed, fun member => gone ⟨mapped, fun _ => member⟩⟩
    · rintro ⟨listed, gone⟩
      by_contra some
      rcases still.1 some with rfl | ⟨-, kept⟩
      · exact gone ((pageOf_mul_pageSize page).symm ▸ head)
      · exact gone (kept listed)

/-- `freeMem` takes the pages of the range out of the sequence. -/
structure FreesByRecency (slot : Nat) (addresses : List Nat) (state next : KernelState) : Prop where
  recency : (next.envs slot).recency = (state.envs slot).recency.filter (· ∉ addresses)
  active : ActiveFirst (next.envs slot)

/-- Page faults and `freeMem` follow one policy. -/
structure FollowsPolicy (slot : Nat) (state : KernelState) : Prop where
  faults : ∀ faultVa access, faultVa < ustackTop →
    state.userTranslate (state.envs slot).envPageDirectory faultVa access = none →
    state.dirWord .user slot (pageOf faultVa / 1024) ≠ 0 →
    wp (pageFaultHandler slot faultVa)
      (fun _ next => ServesByRecency slot (roundDown faultVa) state next)
      (onPanic fun _ => state.Legal slot (roundDown faultVa) → state.freeFrameList = []) state
  frees : ∀ address size, address < wordSize →
    wp (freeMem slot address size)
      (fun _ next => FreesByRecency slot (rangeOf address (roundUp size / pageSize)) state next) (fun _ _ => False) state

theorem Population.followsPolicy (valid : layout.Valid) (population : Population layout ram strict tidy state)
    (curenv : state.curenv = some slot) : FollowsPolicy slot state := by
  obtain ⟨-, running, healthy⟩ := population.running curenv
  constructor
  · intro faultVa access below faults present
    have low : faultVa < userTop := below.trans (by decide)
    have positive : 0 < (state.envs slot).pageWSMaxSize := by
      have active := healthy.lists.activePositive
      have second := healthy.lists.secondNonneg
      have sizes := healthy.lists.sizes
      omega
    apply wp_mono (pageFaultHandler_spec valid running healthy low present (population.inaccessible curenv faults low))
    · intro _ next served
      exact served.byRecency ⟨roundDown_mod _, (Nat.sub_le _ _).trans_lt low⟩ positive
    · intro stop next
      apply onPanic.mono
      intro stopped halted
      exact halted.exhausted ((Nat.sub_le _ _).trans_lt below)
  · intro address size word
    apply wp_mono (freeMem_spec valid running healthy word size) _ fun _ _ => id
    rintro _ next ⟨removed, stepped, released⟩
    refine ⟨?_, released.healthy.lists.activeFirst⟩
    rw [released.recency, stepped.env]

/-- A page that stays in the sequence is unmapped, or the handler takes the end of a list that is empty. -/
private def BreaksPolicy (faultVa : Nat) (state : KernelState) : Prop :=
  state.curenv = some 0 ∧ state.userTranslate (state.envs 0).envPageDirectory faultVa .read = none ∧
    state.dirWord .user 0 (pageOf faultVa / 1024) ≠ 0 ∧
    wp (pageFaultHandler 0 faultVa)
      (fun _ next => ∃ address ∈ (next.envs 0).recency, address % pageSize = 0 ∧
        state.leaf .user 0 (pageOf address) ≠ 0 ∧ next.leaf .user 0 (pageOf address) = 0)
      (fun stop _ => stop = .undefined "LIST_LAST of an empty list") state

private instance (faultVa : Nat) (state : KernelState) : Decidable (BreaksPolicy faultVa state) :=
  inferInstanceAs (Decidable (_ ∧ _ ∧ _ ∧ wp _ _ _ _))

/-- A machine with garbage in the page table of `UENVS`: at that address the processor lets a first environment
write to the page table of its stack. -/
def garbageMachine : KernelState :=
  BootLayout.small.boot (fun frame index =>
    if frame = BootLayout.small.envsTable ∧ index = 500 then 1021 * pageSize + 7 else 0) fun _ => Page.zero

/-- A run, and an address at which the next fault breaks the policy. -/
structure UnrulyRun where
  machine : KernelState := cleanMachine
  events : List Event
  faultVa : Nat

/-- Events that are not contained. -/
def unrulyRuns : List UnrulyRun :=
  -- a segment on the page of the stack
  [{ events := [.create stackProgram 3 1, .start 0, .schedule, .fault (stackAddress - 0x1000) .read,
      .fault stackAddress .read], faultVa := stackAddress - 0x2000 },
    -- two segments on one page
    { events := [.create ⟨"twice", fun _ => 0, [⟨0, 16, 16, 0x800000⟩, ⟨0, 16, 16, 0x800100⟩]⟩ 3 1, .start 0, .schedule],
      faultVa := stackAddress - 0x1000 },
    -- no room in `ActiveList`
    { events := [.create emptyProgram 3 3, .start 0, .schedule], faultVa := stackAddress - 0x1000 },
    -- the page table of the stack is replaced where the directory shows itself
    { events := [.create emptyProgram 3 1, .start 0, .schedule, .allocateMem (uvpt + pdx stackAddress * pageSize) 4096,
      .fault stackAddress .read, .fault (stackAddress - 0x1000) .read, .fault stackAddress .read],
      faultVa := stackAddress - 0x2000 },
    -- a page of the lists loses `PERM_WRITEABLE`
    { events := [.create emptyProgram 3 1, .start 0, .schedule, .allocatePage stackAddress permUser,
      .fault stackAddress (.write 0), .fault (stackAddress - 0x1000) .read, .fault stackAddress .read],
      faultVa := stackAddress - 0x2000 },
    -- a write above `USER_TOP` clears the flags of the stack page
    { machine := garbageMachine,
      events := [.create emptyProgram 3 1, .start 0, .schedule,
        .access (uenvs + 500 * pageSize + ptx stackAddress * 4) (.write 0),
        .fault stackAddress .read, .fault (stackAddress - 0x1000) .read, .fault stackAddress .read],
      faultVa := stackAddress - 0x2000 }]

end Fos.Kernel
