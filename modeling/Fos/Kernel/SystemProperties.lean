import Fos.Kernel.BootProperties
import Fos.Kernel.Outcomes

/-! What holds in every state of every run of the kernel. -/

set_option autoImplicit false

namespace Fos.Kernel

open Foundation

variable {layout : BootLayout} {ram : Nat → Page} {slot : Nat} {strict tidy : Prop}
  {state next : KernelState}

/-! ### Programs -/

variable {program : UserProgram} {pageWSSize secondListSize : Nat} {pages : List Nat}

theorem Created.nodup (created : Created layout ram slot program pageWSSize secondListSize pages state next)
    (loadable : program.Loadable) : (pages ++ [stackAddress]).Nodup := by
  rw [List.nodup_append]
  refine ⟨created.distinct, List.nodup_singleton _, fun address member other stack same => ?_⟩
  obtain ⟨segment, isSegment, touches⟩ := created.within address member
  rw [same, List.mem_singleton.1 stack] at touches
  exact loadable.offStack segment isSegment touches

/-- An environment with room in both lists can run. -/
theorem Created.healthy (created : Created layout ram slot program pageWSSize secondListSize pages state next)
    (loadable : program.Loadable) (second : secondListSize < pageWSSize) (small : pageWSSize ≤ pwsMaxSize) :
    Healthy True True slot next := by
  have distinct := created.nodup loadable
  have secondSize : (next.envs slot).secondListSize = secondListSize := by
    rw [created.secondListSize]
    simp only [toInt32, pwsMaxSize] at small ⊢
    split <;> omega
  have activeSize : (next.envs slot).activeListSize = (pageWSSize : Int) - secondListSize := by
    rw [created.activeListSize]
    simp only [toInt32, pwsMaxSize, wordSize] at small ⊢
    split <;> omega
  have positive : 0 < (next.envs slot).activeListSize := by
    rw [activeSize]
    omega
  have front : (next.envs slot).activeList.length =
      min (pages ++ [stackAddress]).length (next.envs slot).activeListSize.toNat := by
    have limit : toUInt32 (next.envs slot).activeListSize = (next.envs slot).activeListSize.toNat := by
      simp only [toUInt32, pwsMaxSize, wordSize, activeSize] at small ⊢
      omega
    rw [created.front positive, limit, List.length_append, List.length_singleton]
  have sizes : (next.envs slot).activeListSize + (next.envs slot).secondListSize = (next.envs slot).pageWSMaxSize := by
    rw [activeSize, secondSize, created.pageWSMaxSize]
    omega
  have nonneg : 0 ≤ (next.envs slot).secondListSize := by
    rw [secondSize]
    omega
  exact ⟨created.live, created.placed,
    created.recorded.lruLists distinct created.users sizes positive nonneg front, created.resident distinct⟩

/-! ### Events -/

/-- What the kernel may be entered for if no environment is to get at the kernel's part of memory. -/
def Contained (state : KernelState) : Event → Prop
  | .create program pageWSSize secondListSize =>
      program.Loadable ∧ secondListSize < pageWSSize ∧ pageWSSize ≤ pwsMaxSize
  | .access address _ => address < userTop
  | .allocateMem address size => ∀ page ∈ rangeOf address (size / pageSize), page < userTop
  -- a page of the lists stays writeable
  | .allocatePage address perm => ∀ slot, state.curenv = some slot → address ∈ (state.envs slot).recency →
      perm.testBit 1 = true
  | .start _ | .schedule | .fault _ _ | .freeMem _ _ | .exit | .kill _ => True

/-- No system call maps a page of `SecondList`. -/
def SparesSecond (state : KernelState) : Event → Prop
  | .allocateMem address size => ∀ slot, state.curenv = some slot →
      ∀ page ∈ rangeOf address (size / pageSize), roundDown page ∉ (state.envs slot).secondPages
  | .allocatePage address _ => ∀ slot, state.curenv = some slot → address ∉ (state.envs slot).secondPages
  | _ => True

/-- No page gets into memory that is in no list. -/
def KeepsListed (state : KernelState) : Event → Prop
  | .fault address _ => address < ustackTop → ∀ slot, state.curenv = some slot → state.Legal slot (roundDown address)
  | .allocateMem address size => ∀ slot, state.curenv = some slot →
      ∀ page ∈ rangeOf address (size / pageSize), roundDown page ∈ (state.envs slot).activePages
  | .allocatePage address perm => ∀ slot, state.curenv = some slot →
      address ∈ (state.envs slot).activePages ∧ AcceptedPerm perm
  | _ => True

/-- Contained events that leave the pages of `SecondList` to the fault handler. -/
structure Discreet (state : KernelState) (event : Event) : Prop where
  contained : Contained state event
  spares : SparesSecond state event

/-- The events that keep what is known of the slots: with `strict` the pages of `SecondList` are hidden, and with
`tidy` every page in memory is in a list. -/
structure Permitted (strict tidy : Prop) (state : KernelState) (event : Event) : Prop where
  contained : Contained state event
  spares : strict → SparesSecond state event
  listed : tidy → KeepsListed state event

theorem Contained.permitted {event : Event} (contained : Contained state event) : Permitted False False state event :=
  ⟨contained, False.elim, False.elim⟩

theorem Discreet.permitted {event : Event} (discreet : Discreet state event) : Permitted True False state event :=
  ⟨discreet.contained, fun _ => discreet.spares, False.elim⟩

theorem Handled.ran {address : Nat} (population : Population layout ram strict tidy state)
    (curenv : state.curenv = some slot) (handled : Handled layout ram strict tidy slot address state next) :
    Population layout ram strict tidy next := by
  obtain ⟨-, running, healthy⟩ := population.running curenv
  obtain ⟨acts, runningNext, healthyNext⟩ := handled.goesOn running healthy
  exact population.ran acts runningNext healthyNext

theorem Population.fault (valid : layout.Valid) (population : Population layout ram strict tidy state)
    {address : Nat} {access : Access} (permitted : Permitted strict tidy state (.fault address access))
    (executes : exec state (.fault address access) = some next) : Population layout ram strict tidy next := by
  obtain ⟨slot, curenv, -, ⟨-, handled⟩ | ⟨stopped, halted, refused, rfl⟩⟩ := population.fault_outcome valid executes
  · exact handled.ran population curenv
  · apply population.stopped curenv halted.acts halted.inv
    by_cases isTidy : tidy
    · by_cases high : ustackTop ≤ address
      · rw [refused high]
        exact (population.running curenv).2.2.loaded.weaken False.elim id
      · exact (halted.legal isTidy (permitted.listed isTidy (not_le.1 high) slot curenv)).2
    · exact halted.loaded.weaken id isTidy

theorem Population.access (population : Population layout ram strict tidy state) {address : Nat} {access : Access}
    (low : address < userTop) (executes : exec state (.access address access) = some next) :
    Population layout ram strict tidy next := by
  obtain ⟨slot, curenv, outcome⟩ := population.access_outcome low executes
  obtain ⟨-, running, healthy⟩ := population.running curenv
  cases access with
  | read =>
      rw [outcome]
      exact population
  | write value =>
      obtain ⟨accessible, becomes, keeps, calm⟩ := outcome
      obtain ⟨runningNext, healthyNext⟩ := healthy.writeByte running accessible becomes calm
      exact population.ran becomes.acts runningNext healthyNext

/-- The pages of `ActiveList` are in the sequence. -/
theorem Env.active_recency {env : Env} {address : Nat} (active : address ∈ env.activePages) : address ∈ env.recency := by
  rw [Env.recency_eq]
  exact List.mem_append_left _ active

theorem Population.allocateMem (valid : layout.Valid) (population : Population layout ram strict tidy state)
    {address size : Nat} (permitted : Permitted strict tidy state (.allocateMem address size))
    (executes : exec state (.allocateMem address size) = some next) : Population layout ram strict tidy next := by
  obtain ⟨slot, curenv, allocated | ⟨stopped, panicked, rfl⟩⟩ :=
    population.allocateMem_outcome valid permitted.contained executes
  · apply population.ran allocated.acts allocated.running
    apply allocated.healthy.weaken
    · exact fun isStrict => ⟨isStrict, permitted.spares isStrict slot curenv⟩
    · exact fun isTidy => ⟨isTidy, fun page member => Env.active_recency (permitted.listed isTidy slot curenv page member)⟩
  · apply population.stopped curenv panicked.acts panicked.inv (panicked.loaded.weaken id _)
    exact fun isTidy => ⟨isTidy, fun page member => Env.active_recency (permitted.listed isTidy slot curenv page member)⟩

theorem Population.freeMem (valid : layout.Valid) (population : Population layout ram strict tidy state)
    {address size : Nat} (executes : exec state (.freeMem address size) = some next) :
    Population layout ram strict tidy next := by
  obtain ⟨slot, removed, curenv, stepped, released⟩ := population.freeMem_outcome valid executes
  exact population.ran (stepped.becomes.acts.trans released.acts) released.running released.healthy

theorem Population.allocatePage (valid : layout.Valid) (population : Population layout ram strict tidy state)
    {address perm : Nat} (permitted : Permitted strict tidy state (.allocatePage address perm))
    (executes : exec state (.allocatePage address perm) = some next) : Population layout ram strict tidy next := by
  obtain ⟨slot, curenv, granted | ⟨stopped, panicked, rfl⟩⟩ :=
    population.allocatePage_outcome valid permitted.contained executes
  · apply population.ran granted.acts granted.running
    exact granted.healthy.weaken (fun isStrict => ⟨isStrict, permitted.spares isStrict slot curenv⟩)
      fun isTidy => ⟨isTidy, Env.active_recency (permitted.listed isTidy slot curenv).1⟩
  · apply population.stopped curenv panicked.acts panicked.inv (panicked.loaded.weaken id _)
    intro isTidy
    have active := (permitted.listed isTidy slot curenv).1
    have page := (population.running curenv).2.2.resident.pages address (List.mem_append_left _ active)
    have whole : roundDown address = address := (roundDown_eq address).trans (pageOf_mul_pageSize page)
    exact ⟨isTidy, List.forall_mem_singleton.2 (whole.symm ▸ Env.active_recency active)⟩

theorem Population.create (valid : layout.Valid) (population : Population layout ram strict tidy state)
    {program : UserProgram} {pageWSSize secondListSize : Nat}
    (contained : Contained state (.create program pageWSSize secondListSize))
    (executes : exec state (.create program pageWSSize secondListSize) = some next) :
    Population layout ram strict tidy next := by
  obtain ⟨loadable, second, small⟩ := contained
  cases population.create_outcome valid loadable executes with
  | refused same =>
      rw [same]
      exact population
  | created slot pages created free creates entered =>
      rw [entered]
      apply population.arrived free creates.acts creates.inv creates.freeList
      exact (creates.healthy loadable second small).weaken (fun _ => trivial) fun _ => trivial
  | abandoned slot stopped free panics abandons stops =>
      rw [stops]
      exact population.abandoned free abandons

/-- A new environment becomes ready. -/
theorem schedStart_shuffled (member : slot ∈ state.envNewQueue) : Shuffled state (schedStart slot state) := by
  refine ⟨.of_status slot .ready rfl, ?_, rfl, rfl⟩
  have perm := (List.perm_cons_erase member).symm
  simp only [KernelState.runnable, schedStart, KernelState.setEnv]
  exact (List.perm_middle.trans (perm.append_right _))

theorem Population.start (population : Population layout ram strict tidy state)
    (executes : exec state (.start slot) = some next) : Population layout ram strict tidy next := by
  rw [exec] at executes
  obtain ⟨member, started⟩ := of_ite_some executes
  cases started
  have shuffled := schedStart_shuffled member
  refine ⟨?_, ?_⟩
  · rw [shuffled.freeList, shuffled.exitQueue]
    exact (population.toHoused.scheduled shuffled.toScheduled).perm (.refl _) shuffled.runnable (.refl _)
  · have same : (schedStart slot state).activeCr3 = state.activeCr3 :=
      activeCr3_congr rfl rfl fun current _ => shuffled.roots.cr3 current
    rw [same]
    exact population.active

theorem Population.exit (population : Population layout ram strict tidy state)
    (executes : exec state .exit = some next) : Population layout ram strict tidy next := by
  rw [exec] at executes
  obtain ⟨slot, curenv, exits⟩ := curenv_of_exec executes
  cases exits
  obtain ⟨-, -, healthy⟩ := population.running curenv
  obtain ⟨housed, outside⟩ := population.apart curenv
  exact of_envExit housed outside (healthy.loaded.weaken False.elim id)

theorem Population.kill (valid : layout.Valid) (population : Population layout ram strict tidy state)
    (executes : exec state (.kill slot) = some next) : Population layout ram strict tidy next := by
  obtain ⟨queued, freed⟩ := population.kill_outcome valid executes
  exact population.departed queued freed

/-! ### Runs -/

/-- The kernel at its first prompt has no environment. -/
theorem boot_population (valid : layout.Valid) (ram disk : Nat → Page) :
    Population layout ram strict tidy (layout.boot ram disk) where
  inv := boot_inv valid ram disk
  distinct := by
    simp [KernelState.runnable, BootLayout.boot, List.nodup_range]
  vacant slot _ := ⟨rfl, rfl, rfl, rfl, rfl⟩
  healthy slot member := by
    simp [KernelState.runnable, BootLayout.boot] at member
  loaded slot member := by
    simp [BootLayout.boot] at member
  active := rfl

theorem Population.exec (valid : layout.Valid) (population : Population layout ram strict tidy state) {event : Event}
    (permitted : Permitted strict tidy state event) (executes : exec state event = some next) :
    Population layout ram strict tidy next := by
  cases event with
  | create program pageWSSize secondListSize => exact population.create valid permitted.contained executes
  | start slot => exact population.start executes
  | schedule =>
      cases executes
      exact of_fosScheduler population.toHoused
  | fault address access => exact population.fault valid permitted executes
  | access address access => exact population.access permitted.contained executes
  | allocateMem address size => exact population.allocateMem valid permitted executes
  | freeMem address size => exact population.freeMem valid executes
  | allocatePage address perm => exact population.allocatePage valid permitted executes
  | exit => exact population.exit executes
  | kill slot => exact population.kill valid executes

/-- In every state of a run of permitted events the slots are as they should be. -/
theorem population_of_reaches (valid : layout.Valid)
    (reached : (kernel layout).Reaches (Permitted strict tidy) state) :
    ∃ ram, Population layout ram strict tidy state := by
  apply reached.invariant (fun state => ∃ ram, Population layout ram strict tidy state)
  · rintro _ ⟨ram, disk, rfl⟩
    exact ⟨ram, boot_population valid ram disk⟩
  · rintro before event after ⟨ram, population⟩ permitted executes
    exact ⟨ram, population.exec valid permitted executes⟩

theorem population_of_contained (valid : layout.Valid) (reached : (kernel layout).Reaches Contained state) :
    ∃ ram, Population layout ram False False state :=
  population_of_reaches valid (reached.mono fun _ _ => Contained.permitted)

theorem population_of_booted (valid : layout.Valid) {disk : Nat → Page}
    (reached : (bootedKernel layout ram disk).Reaches Contained state) : Population layout ram False False state := by
  apply reached.invariant (Population layout ram False False)
  · rintro _ rfl
    exact boot_population valid ram disk
  · intro before event after population contained executes
    exact population.exec valid contained.permitted executes

/-! ### A first environment -/

/-- A machine with nothing in memory and on the disk. -/
def cleanMachine : KernelState := BootLayout.small.boot (fun _ => Page.zero) fun _ => Page.zero

/-- An environment without segments runs. -/
def opening : List Event := [.create ⟨"heap", fun _ => 0, []⟩ 5 2, .start 0, .schedule]

theorem discreet_opening (state : KernelState) (event : Event) (member : event ∈ opening) : Discreet state event := by
  simp only [opening, List.mem_cons, List.not_mem_nil, or_false] at member
  rcases member with rfl | rfl | rfl
  · exact ⟨⟨UserProgram.loadable_of_nil rfl, by decide, by decide⟩, trivial⟩
  · exact ⟨trivial, trivial⟩
  · exact ⟨trivial, trivial⟩

theorem contained_opening (state : KernelState) (event : Event) (member : event ∈ opening) : Contained state event :=
  (discreet_opening state event member).contained

/-- Two pages of the heap are allocated. -/
theorem contained_allocation (state : KernelState) : Contained state (.allocateMem 0x80000000 8192) := by
  have below : ∀ page ∈ rangeOf 0x80000000 (8192 / pageSize), page < userTop := by decide
  exact below

theorem contained_allocated (state : KernelState) (event : Event)
    (member : event ∈ opening ++ [.allocateMem 0x80000000 8192]) : Contained state event :=
  (List.mem_append.1 member).elim (contained_opening state event)
    fun last => List.mem_singleton.1 last ▸ contained_allocation state

/-- A program without segments. -/
def emptyProgram : UserProgram := ⟨"empty", fun _ => 0, []⟩

/-- A program with one page of code. -/
def codeProgram : UserProgram := ⟨"code", fun _ => 0, [⟨0, 16, 16, 0x800000⟩]⟩

/-- A program with its one segment on the page of the initial stack: the page is in two elements. -/
def stackProgram : UserProgram := ⟨"stack", fun _ => 0, [⟨0, 16, 16, stackAddress⟩]⟩

/-- It touches four pages of its stack, and the first one again: while one element of that page
was evicted, the other is still in the lists. -/
def stackFaults : List Event :=
  [.fault (stackAddress - 0x1000) .read, .fault stackAddress .read, .fault (stackAddress - 0x2000) .read,
    .fault (stackAddress - 0x3000) .read, .fault stackAddress .read]

/-- Faults on the stack of a program with one page of code, where `ActiveList` has no room. -/
def crampedFaults : List Event :=
  [.fault stackAddress .read, .fault (stackAddress - 0x4000) .read, .fault (stackAddress - 0x1000) .read,
    .fault stackAddress .read]

/-! ### Runs that can be checked -/

/-- `env_create` does not panic. -/
def Completes (state : KernelState) : Event → Prop
  | .create program pageWSSize secondListSize =>
      wp (createAndSchedule program pageWSSize secondListSize) (fun _ _ => True) (fun _ _ => False) state
  | _ => True

instance {slot address : Nat} : Decidable (state.Legal slot address) :=
  inferInstanceAs (Decidable (_ ∨ _))

/-- Programs without segments that use their stack and free pages, while memory and the page file last. -/
def Modest (state : KernelState) : Event → Prop
  | .create program pageWSSize secondListSize => program.segments.isEmpty = true ∧ secondListSize < pageWSSize ∧
      pageWSSize ≤ pwsMaxSize ∧ Completes state (.create program pageWSSize secondListSize)
  | .fault address _ => state.diskFreeFrameList ≠ [] ∧
      ∀ slot ∈ state.curenv, state.Legal slot (roundDown address)
  | .access address _ => address < userTop
  | .allocateMem _ _ | .allocatePage _ _ => False
  | .start _ | .schedule | .freeMem _ _ | .exit | .kill _ => True

instance : ∀ state event, Decidable (Modest state event)
  | _, .create _ _ _ => inferInstanceAs (Decidable (_ ∧ _ ∧ _ ∧ wp _ _ _ _))
  | _, .fault _ _ => inferInstanceAs (Decidable (_ ∧ _))
  | _, .access _ _ => inferInstanceAs (Decidable (_ < _))
  | _, .allocateMem _ _ | _, .allocatePage _ _ => inferInstanceAs (Decidable False)
  | _, .start _ | _, .schedule | _, .freeMem _ _ | _, .exit | _, .kill _ => inferInstanceAs (Decidable True)

theorem Modest.contained {event : Event} (modest : Modest state event) : Contained state event := by
  cases event with
  | create program pageWSSize secondListSize =>
      exact ⟨UserProgram.loadable_of_nil (List.isEmpty_iff.1 modest.1), modest.2.1, modest.2.2.1⟩
  | access address access => exact modest
  | allocateMem address size => exact modest.elim
  | allocatePage address perm => exact modest.elim
  | fault address access => trivial
  | start slot => trivial
  | schedule => trivial
  | freeMem address size => trivial
  | exit => trivial
  | kill slot => trivial

theorem Modest.listed {event : Event} (modest : Modest state event) : KeepsListed state event := by
  cases event with
  | fault address access => exact fun _ slot curenv => modest.2 slot curenv
  | allocateMem address size => exact modest.elim
  | allocatePage address perm => exact modest.elim
  | create program pageWSSize secondListSize => trivial
  | access address access => trivial
  | start slot => trivial
  | schedule => trivial
  | freeMem address size => trivial
  | exit => trivial
  | kill slot => trivial

theorem Modest.completes {event : Event} (modest : Modest state event) : Completes state event := by
  cases event with
  | create program pageWSSize secondListSize => exact modest.2.2.2
  | start slot => trivial
  | schedule => trivial
  | fault address access => trivial
  | access address access => trivial
  | allocateMem address size => trivial
  | freeMem address size => trivial
  | allocatePage address perm => trivial
  | exit => trivial
  | kill slot => trivial

theorem exists_modest {events : List Event} {good : KernelState → Prop}
    (ran : ∃ last ∈ (kernel .small).attempt Modest cleanMachine events, good last) :
    ∃ last, (kernel .small).Reaches Modest last ∧ good last := by
  obtain ⟨last, member, holds⟩ := ran
  have initial : (kernel .small).start cleanMachine := ⟨_, _, rfl⟩
  exact ⟨last, (System.Reaches.start initial).attempt member, holds⟩

end Fos.Kernel
