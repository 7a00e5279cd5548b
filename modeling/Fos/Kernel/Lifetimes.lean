import Fos.Kernel.SystemProperties

/-! Who can run after an event, and what becomes of those it does not concern. -/

set_option autoImplicit false

namespace Fos.Kernel

open Foundation

variable {layout : BootLayout} {ram : Nat → Page} {slot owner : Nat} {strict tidy : Prop}
  {state next last : KernelState} {event : Event}

/-! ### Bystanders -/

/-- The address space of an environment is the same, and so is its record but for the status. -/
structure Undisturbed (slot : Nat) (state next : KernelState) : Prop where
  status : ∃ status, next.envs slot = { state.envs slot with envStatus := status }
  tables : ∀ side index, next.dirWord side slot index = state.dirWord side slot index
  space : next.space slot = state.space slot

namespace Undisturbed

theorem trans (first : Undisturbed slot state next) (second : Undisturbed slot next last) :
    Undisturbed slot state last where
  status := by
    obtain ⟨before, first⟩ := first.status
    obtain ⟨after, second⟩ := second.status
    exact ⟨after, by rw [second, first]⟩
  tables side index := (second.tables side index).trans (first.tables side index)
  space := second.space.trans first.space

theorem of_scheduled (scheduled : Scheduled state next) : Undisturbed slot state next where
  status := ⟨_, scheduled.status slot⟩
  tables side index := scheduled.dirWord side slot index
  space := scheduled.space slot

/-- The kernel works for another environment. -/
theorem of_acts (ledger : Ledger layout state) (acts : Acts owner [] state [] next) (different : slot ≠ owner) :
    Undisturbed slot state next where
  status := ⟨(state.envs slot).envStatus, acts.envs slot different⟩
  tables side index := acts.dirWord_other ledger (List.forall_mem_nil _) different side index
  space := acts.space_other ledger (List.forall_mem_nil _) different

end Undisturbed

/-- Those that can run could run before, and nothing has happened to them. -/
def Remain (state next : KernelState) : Prop :=
  ∀ slot ∈ next.runnable, slot ∈ state.runnable ∧ Undisturbed slot state next

namespace Remain

theorem of_scheduled (scheduled : Scheduled state next) (subset : next.runnable ⊆ state.runnable) : Remain state next :=
  fun _ member => ⟨subset member, .of_scheduled scheduled⟩

theorem refl (state : KernelState) : Remain state state := of_scheduled (.refl state) (List.Subset.refl _)

theorem trans (first : Remain state next) (second : Remain next last) : Remain state last := by
  intro slot member
  obtain ⟨between, after⟩ := second slot member
  obtain ⟨start, before⟩ := first slot between
  exact ⟨start, before.trans after⟩

theorem of_shuffled (shuffled : Shuffled state next) : Remain state next :=
  of_scheduled shuffled.toScheduled shuffled.runnable.subset

end Remain

/-- The running environment is not among those that wait. -/
theorem waiting_of_envExit (state : KernelState) (member : owner ∈ (envExit slot state).runnable) :
    owner ∈ state.envNewQueue ++ state.envReadyQueue ∧ Undisturbed owner state (envExit slot state) := by
  have exits : Scheduled state { state.setEnv slot { state.envs slot with envStatus := .exit } with
      envExitQueue := slot :: state.envExitQueue
      curenv := none } := .of_status slot .exit rfl
  obtain ⟨shuffled, -⟩ := fosScheduler_shuffled { state.setEnv slot { state.envs slot with envStatus := .exit } with
      envExitQueue := slot :: state.envExitQueue
      curenv := none }
  obtain ⟨before, undisturbed⟩ := Remain.of_shuffled shuffled owner member
  refine ⟨?_, (Undisturbed.of_scheduled exits).trans undisturbed⟩
  simpa [KernelState.runnable, KernelState.setEnv] using before

theorem remain_envExit (state : KernelState) : Remain state (envExit slot state) := by
  intro owner member
  obtain ⟨waits, undisturbed⟩ := waiting_of_envExit state member
  refine ⟨?_, undisturbed⟩
  rw [KernelState.runnable, ← List.append_assoc]
  exact List.mem_append_left _ waits

theorem remain_afterPanic (state : KernelState) : Remain state (afterPanic state) := by
  unfold afterPanic
  split
  · exact remain_envExit state
  · exact .of_shuffled (fosScheduler_shuffled state).1

namespace Population

/-- The kernel panicked while it worked for the running environment. -/
theorem remain_stopped (population : Population layout ram strict tidy state) (curenv : state.curenv = some slot)
    (acts : Acts slot [] state [] next) : Remain state (afterPanic next) := by
  have quiet := acts.quiet
  obtain ⟨-, outside⟩ := population.apart curenv
  rw [afterPanic, quiet.curenv, curenv]
  intro owner member
  obtain ⟨waits, undisturbed⟩ := waiting_of_envExit next member
  rw [quiet.newQueue, quiet.readyQueue] at waits
  have different : owner ≠ slot := by
    rintro rfl
    exact outside (List.mem_append_right _ (List.mem_append_left _ waits))
  refine ⟨?_, (Undisturbed.of_acts population.inv.toLedger acts different).trans undisturbed⟩
  rw [KernelState.runnable, ← List.append_assoc]
  exact List.mem_append_left _ waits

/-- The kernel worked for a free slot. -/
theorem remain_free (population : Population layout ram strict tidy state) (free : slot ∈ state.envFreeList)
    (acts : Acts slot [] state [] next) : Remain state next := by
  have quiet := acts.quiet
  obtain ⟨-, outside⟩ := population.free_apart free
  intro owner member
  rw [KernelState.runnable, quiet.newQueue, quiet.readyQueue, quiet.curenv] at member
  refine ⟨member, .of_acts population.inv.toLedger acts ?_⟩
  rintro rfl
  exact outside (List.mem_append_right _ (List.mem_append_left _ member))

theorem remain_abandoned (population : Population layout ram strict tidy state) (free : slot ∈ state.envFreeList)
    (abandoned : Abandoned layout ram slot state next) : Remain state (afterPanic next) := by
  have machine : SameMachine ((next.setEnvFreeList state.envFreeList).setCr3 state.cr3) next := rfl
  have worked := population.remain_free free abandoned.acts
  exact (worked.trans (.of_scheduled (.of_same machine) (List.Subset.refl _))).trans (remain_afterPanic next)

theorem remain_kill (valid : layout.Valid) (population : Population layout ram strict tidy state)
    (executes : Kernel.exec state (.kill slot) = some next) : Remain state next := by
  obtain ⟨queued, freed⟩ := population.kill_outcome valid executes
  obtain ⟨housed, outside, -, -⟩ := population.removed queued
  have quiet := freed.acts.quiet
  have scheduled : Scheduled state (schedRemove slot state) := .of_status slot .unknown rfl
  have machine : SameMachine (next.setEnvFreeList (schedRemove slot state).envFreeList) next := rfl
  have runnable : next.runnable = (schedRemove slot state).runnable := by
    have newQueue : next.envNewQueue = (schedRemove slot state).envNewQueue := quiet.newQueue
    have readyQueue : next.envReadyQueue = (schedRemove slot state).envReadyQueue := quiet.readyQueue
    have curenv : next.curenv = (schedRemove slot state).curenv := quiet.curenv
    simp only [KernelState.runnable, newQueue, readyQueue, curenv]
  intro owner member
  rw [runnable] at member
  have different : owner ≠ slot := by
    rintro rfl
    exact outside (List.mem_append_right _ (List.mem_append_left _ member))
  have worked := Undisturbed.of_acts housed.inv.toLedger freed.acts different
  refine ⟨?_, ((Undisturbed.of_scheduled scheduled).trans worked).trans (.of_scheduled (.of_same machine))⟩
  simp only [KernelState.runnable, schedRemove, List.mem_append] at member ⊢
  rcases member with isNew | isReady | running
  · exact .inl (List.mem_of_mem_erase isNew)
  · exact .inr (.inl (List.mem_of_mem_erase isReady))
  · exact .inr (.inr running)

end Population

/-! ### What an event is to the environments -/

/-- The code of a fault or a call came back to the environment. -/
inductive Works (slot : Nat) (state next : KernelState) : Event → Prop
  | fault {address : Nat} {access : Access}
      (faults : state.userTranslate (state.envs slot).envPageDirectory address access = none)
      (returns : faultHandler address state = .ok () next) : Works slot state next (.fault address access)
  | access {address : Nat} {access : Access}
      (accesses : userAccess (state.envs slot).envPageDirectory address access state = some next) :
      Works slot state next (.access address access)
  | allocateMem {address size : Nat} (returns : allocateMem slot address size state = .ok () next) :
      Works slot state next (.allocateMem address size)
  | freeMem {address size : Nat} (word : address < wordSize) (returns : freeMem slot address size state = .ok () next) :
      Works slot state next (.freeMem address size)
  | allocatePage {address perm : Nat} {result : Int} (word : perm < wordSize)
      (returns : sysAllocatePage slot address perm state = .ok result next) :
      Works slot state next (.allocatePage address perm)

/-- An event is work for the running environment, brings a new one, or neither. -/
inductive Passage (layout : BootLayout) (ram : Nat → Page) (state next : KernelState) (event : Event) : Prop
  | works (slot : Nat) (curenv : state.curenv = some slot) (goesOn : next.curenv = some slot)
      (acts : Acts slot [] state [] next) (works : Works slot state next event)
  | arrives (slot : Nat) (program : UserProgram) (pageWSSize secondListSize : Nat) (pages : List Nat)
      (created : KernelState) (free : slot ∈ state.envFreeList) (isCreate : event = .create program pageWSSize secondListSize)
      (creates : Created layout ram slot program pageWSSize secondListSize pages state created)
      (entered : next = schedInsertNew slot created)
  | remains (remain : Remain state next)

/-- The new environment is the only one that comes in. -/
theorem Created.runnable {program : UserProgram} {pageWSSize secondListSize : Nat} {pages : List Nat} {created : KernelState}
    (creates : Created layout ram slot program pageWSSize secondListSize pages state created) :
    (schedInsertNew slot created).runnable = slot :: state.runnable := by
  have newQueue : created.envNewQueue = state.envNewQueue := creates.acts.quiet.newQueue
  have readyQueue : created.envReadyQueue = state.envReadyQueue := creates.acts.quiet.readyQueue
  have curenv : created.curenv = state.curenv := creates.acts.quiet.curenv
  simp only [KernelState.runnable, schedInsertNew, KernelState.setEnv, newQueue, readyQueue, curenv, List.cons_append]

namespace Population

/-- Code that ran for the running environment and acted for it came back, or the environment is gone. -/
theorem passage_of_settle {Result : Type} {code : KernelM Result} {post : Result → KernelState → Prop}
    {fail : Stop → KernelState → Prop} (population : Population layout ram strict tidy state)
    (curenv : state.curenv = some slot) (holds : wp code post fail state) (settles : settle (code state) = some next)
    (returned : ∀ result last, post result last → Acts slot [] state [] last)
    (panicked : ∀ message last, fail (.panic message) last → Acts slot [] state [] last)
    (works : ∀ result last, code state = .ok result last → Works slot state last event) :
    Passage layout ram state next event := by
  rcases settle_cases holds settles with ⟨result, outcome, meets⟩ | ⟨message, stopped, -, failed, rfl⟩
  · have acts := returned result next meets
    exact .works slot curenv (acts.quiet.curenv.trans curenv) acts (works result next outcome)
  · exact .remains (population.remain_stopped curenv (panicked message stopped failed))

theorem passage (valid : layout.Valid) (population : Population layout ram strict tidy state)
    (contained : Contained state event) (executes : Kernel.exec state event = some next) :
    Passage layout ram state next event := by
  cases event with
  | create program pageWSSize secondListSize =>
      cases population.create_outcome valid contained.1 executes with
      | refused same =>
          rw [same]
          exact .remains (.refl state)
      | created slot pages created free creates entered =>
          exact .arrives slot program pageWSSize secondListSize pages created free rfl creates entered
      | abandoned slot stopped free panics abandons stops =>
          rw [stops]
          exact .remains (population.remain_abandoned free abandons)
  | start slot =>
      rw [Kernel.exec] at executes
      obtain ⟨member, started⟩ := of_ite_some executes
      cases started
      exact .remains (.of_shuffled (schedStart_shuffled member))
  | schedule =>
      cases executes
      exact .remains (.of_shuffled (fosScheduler_shuffled state).1)
  | fault address access =>
      rw [Kernel.exec] at executes
      obtain ⟨slot, curenv, executes⟩ := curenv_of_exec executes
      obtain ⟨⟨-, faults⟩, settles⟩ := of_ite_some executes
      obtain ⟨-, running, healthy⟩ := population.running curenv
      have handles := faultHandler_spec valid running healthy (population.inaccessible curenv faults)
      refine population.passage_of_settle curenv handles settles ?_ ?_ fun _ _ returns => .fault faults returns
      · rintro _ last handled
        cases handled with
        | tabled becomes => exact becomes.acts
        | served served => exact served.acts
      · exact fun _ _ halted => halted.acts
  | access address access =>
      rw [Kernel.exec] at executes
      obtain ⟨slot, curenv, outcome⟩ := population.access_outcome contained executes
      obtain ⟨slot', curenv', executes⟩ := curenv_of_exec executes
      obtain ⟨-, accesses⟩ := of_ite_some executes
      obtain rfl := Option.some_inj.1 (curenv.symm.trans curenv')
      have acts : Acts slot [] state [] next := by
        cases access with
        | read => exact outcome ▸ .refl slot [] state
        | write value => exact outcome.2.1.acts
      exact .works slot curenv (acts.quiet.curenv.trans curenv) acts (.access accesses)
  | allocateMem address size =>
      rw [Kernel.exec] at executes
      obtain ⟨slot, curenv, executes⟩ := curenv_of_exec executes
      obtain ⟨-, settles⟩ := of_ite_some executes
      obtain ⟨-, running, healthy⟩ := population.running curenv
      have allocates : wp (Kernel.allocateMem slot address size) _ _ state :=
        allocatePages_spec valid running healthy (size / pageSize) contained
      exact population.passage_of_settle curenv allocates settles
        (fun _ _ allocated => allocated.acts) (fun _ _ panicked => panicked.acts) fun _ _ returns => .allocateMem returns
  | freeMem address size =>
      rw [Kernel.exec] at executes
      obtain ⟨slot, curenv, executes⟩ := curenv_of_exec executes
      obtain ⟨⟨word, -⟩, settles⟩ := of_ite_some executes
      obtain ⟨-, running, healthy⟩ := population.running curenv
      have frees : wp (Kernel.freeMem slot address size) _ (fun _ _ => False) state :=
        freeMem_spec valid running healthy word size
      refine population.passage_of_settle curenv frees settles ?_ (fun _ _ never => never.elim) fun _ _ returns =>
        .freeMem word returns
      rintro _ last ⟨removed, stepped, released⟩
      exact stepped.becomes.acts.trans released.acts
  | allocatePage address perm =>
      rw [Kernel.exec] at executes
      obtain ⟨slot, curenv, executes⟩ := curenv_of_exec executes
      obtain ⟨⟨-, word⟩, settles⟩ := of_ite_some executes
      obtain ⟨-, running, healthy⟩ := population.running curenv
      exact population.passage_of_settle curenv (sysAllocatePage_spec valid running healthy word (contained slot curenv))
        settles (fun _ _ granted => granted.acts) (fun _ _ panicked => panicked.acts) fun _ _ returns =>
        .allocatePage word returns
  | exit =>
      rw [Kernel.exec] at executes
      obtain ⟨slot, curenv, exits⟩ := curenv_of_exec executes
      cases exits
      exact .remains (remain_envExit state)
  | kill slot => exact .remains (population.remain_kill valid executes)

/-- What holds of every environment that can run, when an event keeps it for those the event
concerns. -/
theorem forall_runnable {good : KernelState → Nat → Prop} (population : Population layout ram strict tidy state)
    (passage : Passage layout ram state next event)
    (undisturbed : ∀ {state next : KernelState} {slot : Nat}, Undisturbed slot state next → good state slot → good next slot)
    (works : ∀ slot, state.curenv = some slot → Works slot state next event → good state slot → good next slot)
    (arrives : ∀ slot program pageWSSize secondListSize pages created, event = .create program pageWSSize secondListSize →
      slot ∈ state.envFreeList → Created layout ram slot program pageWSSize secondListSize pages state created →
          good created slot)
    (before : ∀ slot ∈ state.runnable, good state slot) : ∀ slot ∈ next.runnable, good next slot := by
  intro other member
  cases passage with
  | works slot curenv goesOn acts worked =>
      have quiet := acts.quiet
      rw [KernelState.runnable, quiet.newQueue, quiet.readyQueue, quiet.curenv] at member
      by_cases own : other = slot
      · subst own
        exact works other curenv worked (before other member)
      · exact undisturbed (.of_acts population.inv.toLedger acts own) (before other member)
  | arrives slot program pageWSSize secondListSize pages created free isCreate creates entered =>
      have enters : Scheduled created (schedInsertNew slot created) := .of_status slot .new rfl
      have machine : SameMachine (created.setEnvFreeList state.envFreeList) created := rfl
      rw [entered] at member ⊢
      apply undisturbed (.of_scheduled enters)
      rcases List.mem_cons.1 (creates.runnable ▸ member) with rfl | old
      · exact arrives other program pageWSSize secondListSize pages created isCreate free creates
      · have different : other ≠ slot := by
          rintro rfl
          obtain ⟨-, outside⟩ := population.free_apart free
          exact outside (List.mem_append_right _ (List.mem_append_left _ old))
        have worked := Undisturbed.of_acts population.inv.toLedger creates.acts different
        exact undisturbed (worked.trans (.of_scheduled (.of_same machine))) (before other old)
  | remains remain =>
      obtain ⟨old, same⟩ := remain other member
      exact undisturbed same (before other old)

/-- A slot that was free and can run is the one of the new environment. -/
theorem exists_created {program : UserProgram} {pageWSSize secondListSize : Nat}
    (population : Population layout ram strict tidy state)
    (passage : Passage layout ram state next (.create program pageWSSize secondListSize)) (free : slot ∈ state.envFreeList)
    (runnable : slot ∈ next.runnable) : ∃ pages created,
      Created layout ram slot program pageWSSize secondListSize pages state created ∧ Undisturbed slot created next := by
  have isNew : slot ∉ state.runnable := fun old =>
    (population.free_apart free).2 (List.mem_append_right _ (List.mem_append_left _ old))
  cases passage with
  | works owner curenv goesOn acts works => cases works
  | arrives owner program pageWSSize secondListSize pages created free isCreate creates entered =>
      cases isCreate
      rw [entered] at runnable ⊢
      cases List.mem_cons.1 (creates.runnable ▸ runnable) with
      | inl own => exact ⟨pages, created, own ▸ creates, .of_scheduled (.of_status owner .new rfl)⟩
      | inr old => exact absurd old isNew
  | remains remain => exact absurd (remain slot runnable).1 isNew

end Population

/-- What holds of every environment that can run, over runs of contained events. -/
theorem runnable_of_reaches {good : KernelState → Nat → Prop} {allowed : KernelState → Event → Prop}
    (valid : layout.Valid) (contains : ∀ state event, allowed state event → Contained state event)
    (undisturbed : ∀ {state next : KernelState} {slot : Nat}, Undisturbed slot state next → good state slot → good next slot)
    (works : ∀ ram state event next slot, Population layout ram False False state → allowed state event →
      state.curenv = some slot → Works slot state next event → good state slot → good next slot)
    (arrives : ∀ ram slot program pageWSSize secondListSize pages state created, Population layout ram False False state →
      allowed state (.create program pageWSSize secondListSize) → slot ∈ state.envFreeList →
      Created layout ram slot program pageWSSize secondListSize pages state created → good created slot)
    (reached : (kernel layout).Reaches allowed state) :
    ∃ ram, Population layout ram False False state ∧ ∀ slot ∈ state.runnable, good state slot := by
  apply reached.invariant fun state => ∃ ram, Population layout ram False False state ∧ ∀ slot ∈ state.runnable, good state slot
  · rintro _ ⟨ram, disk, rfl⟩
    refine ⟨ram, boot_population valid ram disk, fun slot member => ?_⟩
    simp [KernelState.runnable, BootLayout.boot] at member
  · rintro state event next ⟨ram, population, before⟩ allows executes
    have contained := contains state event allows
    refine ⟨ram, population.exec valid contained.permitted executes, ?_⟩
    apply population.forall_runnable (population.passage valid contained executes) undisturbed _ _ before
    · exact fun slot curenv worked => works ram state event next slot population allows curenv worked
    · rintro slot program pageWSSize secondListSize pages created rfl free creates
      exact arrives ram slot program pageWSSize secondListSize pages state created population allows free creates

end Fos.Kernel
