import Fos.Sched.ScheduleProperties

/-! The ready queue is served in the order in which it is entered. -/

set_option autoImplicit false

namespace Fos.Sched

/-! ### Order in a queue -/

section Order

variable {Element : Type} {queue kept fresh : List Element} {first second : Element}

/-- In a queue that is taken from its end, `first` is taken before `second`. -/
def Ahead (first second : Element) (queue : List Element) : Prop :=
  ∃ front back, queue = front ++ back ∧ second ∈ front ∧ first ∈ back

theorem Ahead.sublist (ahead : Ahead first second queue) (nodup : queue.Nodup) (sublist : kept.Sublist queue)
    (keepsFirst : first ∈ kept) (keepsSecond : second ∈ kept) : Ahead first second kept := by
  obtain ⟨front, back, rfl, inFront, inBack⟩ := ahead
  obtain ⟨keptFront, keptBack, rfl, subFront, subBack⟩ := List.sublist_append_iff.1 sublist
  have apart := (List.nodup_append.1 nodup).2.2
  refine ⟨keptFront, keptBack, rfl, ?_, ?_⟩
  · cases List.mem_append.1 keepsSecond with
    | inl here => exact here
    | inr there => exact absurd rfl (apart second inFront second (subBack.mem there))
  · cases List.mem_append.1 keepsFirst with
    | inl there => exact absurd rfl (apart first (subFront.mem there) first inBack)
    | inr here => exact here

theorem Ahead.append (ahead : Ahead first second kept) : Ahead first second (fresh ++ kept) := by
  obtain ⟨front, back, rfl, inFront, inBack⟩ := ahead
  exact ⟨fresh ++ front, back, (List.append_assoc ..).symm, List.mem_append_right _ inFront, inBack⟩

/-- The end of the queue is not behind another element. -/
theorem Ahead.getLast_ne (ahead : Ahead first second queue) (nodup : queue.Nodup) :
    queue.getLast? ≠ some second := by
  obtain ⟨front, back, rfl, inFront, inBack⟩ := ahead
  intro last
  rw [List.getLast?_append_of_ne_nil _ (List.ne_nil_of_mem inBack)] at last
  exact (List.nodup_append.1 nodup).2.2 second inFront second (List.mem_of_getLast? last) rfl

theorem erase_getLast [DecidableEq Element] {last : Element} (nodup : queue.Nodup) (isLast : queue.getLast? = some last) :
    queue.erase last = queue.dropLast := by
  obtain ⟨front, rfl⟩ := List.getLast?_eq_some_iff.1 isLast
  have notFront : last ∉ front := fun member =>
    (List.nodup_append.1 nodup).2.2 last member last (List.mem_singleton_self last) rfl
  rw [List.erase_append_right _ notFront, List.dropLast_concat]
  simp

end Order

namespace Schedule

variable {schedule next middle : Schedule} {env : Slot} {queue source target : EnvList} {first second : Slot}
  {fresh kept : List Slot}

def ready (schedule : Schedule) : List Slot := schedule.list .envReadyQueue

/-- Of those that waited some still do, in their order, and those that are new are behind them. -/
structure Joins (schedule : Schedule) (fresh kept : List Slot) : Prop where
  waited : kept.Sublist schedule.ready
  entered : ∀ env ∈ fresh, env ∉ schedule.ready
  nodup : (fresh ++ kept).Nodup

/-- What happens to the ready queue: some join and leave it, and then the environment at its end
may be dispatched. -/
inductive Evolves (schedule next : Schedule) : Prop where
  | waits (fresh kept : List Slot) (joins : schedule.Joins fresh kept) (ready : next.ready = fresh ++ kept)
      (curenv : next.curenv = schedule.curenv)
  | dispatches (fresh kept : List Slot) (joins : schedule.Joins fresh kept)
      (ready : next.ready = (fresh ++ kept).dropLast) (curenv : next.curenv = (fresh ++ kept).getLast?)

/-- The second environment will not be dispatched before the first. -/
structure Behind (schedule : Schedule) (first second : Slot) : Prop where
  waits : first ∈ schedule.ready
  notRunning : schedule.curenv ≠ some second
  ahead : second ∈ schedule.ready → Ahead first second schedule.ready

theorem Joins.ahead (joins : schedule.Joins fresh kept) (nodup : schedule.ready.Nodup)
    (behind : schedule.Behind first second) (stays : first ∈ fresh ++ kept) (isThere : second ∈ fresh ++ kept) :
    Ahead first second (fresh ++ kept) := by
  have firstKept : first ∈ kept := by
    cases List.mem_append.1 stays with
    | inl new => exact absurd behind.waits (joins.entered first new)
    | inr old => exact old
  cases List.mem_append.1 isThere with
  | inl new => exact ⟨fresh, kept, rfl, new, firstKept⟩
  | inr old => exact ((behind.ahead (joins.waited.mem old)).sublist nodup joins.waited firstKept old).append

/-- As long as the first environment waits, the second is not dispatched. -/
theorem Evolves.behind (evolves : schedule.Evolves next) (nodup : schedule.ready.Nodup)
    (behind : schedule.Behind first second) (stays : first ∈ next.ready) : next.Behind first second := by
  cases evolves with
  | waits fresh kept joins ready curenv =>
      refine ⟨stays, ?_, fun isThere => ?_⟩
      · rw [curenv]
        exact behind.notRunning
      · rw [ready] at stays isThere ⊢
        exact joins.ahead nodup behind stays isThere
  | dispatches fresh kept joins ready curenv =>
      have sublist : next.ready.Sublist (fresh ++ kept) := ready ▸ List.dropLast_sublist _
      refine ⟨stays, fun dispatched => ?_, fun isThere => ?_⟩
      · rw [curenv] at dispatched
        have ahead := joins.ahead nodup behind (sublist.mem stays) (List.mem_of_getLast? dispatched)
        exact ahead.getLast_ne joins.nodup dispatched
      · exact (joins.ahead nodup behind (sublist.mem stays) (sublist.mem isThere)).sublist joins.nodup sublist
          stays isThere

/-- Those that come into the queue are behind those that were there. -/
theorem Evolves.order (evolves : schedule.Evolves next) :
    ∃ fresh kept, next.ready = fresh ++ kept ∧ kept.Sublist schedule.ready ∧ ∀ env ∈ fresh, env ∉ schedule.ready := by
  cases evolves with
  | waits fresh kept joins ready curenv => exact ⟨fresh, kept, ready, joins.waited, joins.entered⟩
  | dispatches fresh kept joins ready curenv =>
      cases kept with
      | nil =>
          rw [List.append_nil] at ready
          exact ⟨fresh.dropLast, [], by simp [ready], List.nil_sublist _,
            fun env member => joins.entered env (List.dropLast_subset _ member)⟩
      | cons head rest =>
          rw [List.dropLast_append_of_ne_nil (List.cons_ne_nil _ _)] at ready
          exact ⟨fresh, _, ready, (List.dropLast_sublist _).trans joins.waited, joins.entered⟩

/-! ### The events -/

theorem dispatch_ready (nodup : schedule.ready.Nodup) (idle : schedule.curenv = none) :
    schedule.dispatch.ready = schedule.ready.dropLast ∧ schedule.dispatch.curenv = schedule.ready.getLast? := by
  simp only [ready] at nodup ⊢
  cases last : (schedule.list .envReadyQueue).getLast? with
  | none =>
      rw [List.getLast?_eq_none_iff] at last
      simp [dispatch, last, idle]
  | some nextEnv => simp [dispatch, last, erase_getLast nodup last]

/-- Rescheduling after some have come into the queue. -/
theorem Sound.evolves_reschedule (sound : middle.Sound) (ready : middle.ready = fresh ++ kept)
    (waited : kept.Sublist schedule.ready) (entered : ∀ env ∈ fresh, env ∉ schedule.ready)
    (running : ∀ env, middle.curenv = some env → env ∉ schedule.ready) : schedule.Evolves middle.reschedule := by
  have preempted : middle.preempt.ready = middle.curenv.toList ++ (fresh ++ kept) := by
    rw [← ready]
    cases current : middle.curenv with
    | none => rw [Schedule.preempt, current]; rfl
    | some env => simp [Schedule.preempt, current, Schedule.ready]
  obtain ⟨isReady, isCurenv⟩ := dispatch_ready (sound.preempt.nodup _) preempt_curenv
  rw [preempted, ← List.append_assoc] at isReady isCurenv
  refine .dispatches (middle.curenv.toList ++ fresh) kept ⟨waited, fun env member => ?_, ?_⟩ isReady isCurenv
  · cases List.mem_append.1 member with
    | inl isRunning => exact running env (Option.mem_toList.1 isRunning)
    | inr new => exact entered env new
  · rw [List.append_assoc, ← preempted]
    exact sound.preempt.nodup _

/-- No environment that waits is running. -/
theorem Sound.notRunning (sound : schedule.Sound) (running : schedule.curenv = some env) (queue : EnvList) :
    env ∉ schedule.list queue := by
  intro waits
  cases ((sound.lies_running running).1.list queue).1 waits

theorem Sound.evolves_startIfStopped (sound : middle.Sound) (before : schedule.Sound)
    (ready : middle.ready = fresh ++ kept) (waited : kept.Sublist schedule.ready)
    (entered : ∀ env ∈ fresh, env ∉ schedule.ready) (curenv : middle.curenv = schedule.curenv) :
    schedule.Evolves middle.startIfStopped := by
  unfold Schedule.startIfStopped
  split
  · exact sound.evolves_reschedule ready waited entered fun env isRunning =>
      before.notRunning (curenv ▸ isRunning) _
  · exact .waits fresh kept ⟨waited, entered, ready ▸ sound.nodup _⟩ ready curenv

/-- What no step of a loop changes, the loop does not change. -/
theorem foldl_frame {Field : Type} {step : Schedule → Slot → Schedule} (field : Schedule → Field)
    (frame : ∀ schedule env, field (step schedule env) = field schedule) (rest : List Slot) (schedule : Schedule) :
    field (rest.foldl step schedule) = field schedule := by
  induction rest generalizing schedule with
  | nil => rfl
  | cons env rest ih => exact (ih _).trans (frame schedule env)

theorem moveAll_target (different : source ≠ target) (status : Kernel.EnvStatus) :
    (schedule.moveAll source target status).list target = (schedule.list source).reverse ++ schedule.list target := by
  have loop : ∀ (rest : List Slot) (schedule : Schedule),
      (rest.foldl (fun schedule env => schedule.move source target status env) schedule).list target =
        rest.reverse ++ schedule.list target := by
    intro rest
    induction rest with
    | nil => exact fun _ => rfl
    | cons env rest ih =>
        intro schedule
        rw [List.foldl_cons, ih, List.reverse_cons, List.append_assoc]
        congr 1
        exact transfer_target different
  exact loop _ _

theorem moveAll_source (different : source ≠ target) (status : Kernel.EnvStatus) :
    (schedule.moveAll source target status).list source = [] :=
  foldl_source fun _ _ _ content => transfer_source different content

theorem moveAll_curenv (status : Kernel.EnvStatus) :
    (schedule.moveAll source target status).curenv = schedule.curenv := by
  apply foldl_frame Schedule.curenv
  exact fun _ _ => rfl

theorem freeAll_curenv : (schedule.freeAll source).curenv = schedule.curenv := by
  apply foldl_frame Schedule.curenv
  exact fun _ _ => rfl

theorem freeAll_source (different : source ≠ .envFreeList) : (schedule.freeAll source).list source = [] :=
  foldl_source fun _ _ _ content => transfer_source different content

theorem freeAll_other (notSource : queue ≠ source) (notFree : queue ≠ .envFreeList) :
    (schedule.freeAll source).list queue = schedule.list queue :=
  foldl_frame (fun schedule => schedule.list queue) (fun _ _ => transfer_other notSource notFree) _ _

/-- Every event leaves those that wait in their order. -/
theorem Sound.evolves (sound : schedule.Sound) (event : SchedEvent) : schedule.Evolves (schedule.after event) := by
  have unchanged {next : Schedule} (ready : next.ready = schedule.ready) (curenv : next.curenv = schedule.curenv) :
      schedule.Evolves next :=
    .waits [] schedule.ready ⟨List.Sublist.refl _, List.forall_mem_nil _, sound.nodup _⟩ ready curenv
  have elsewhere {env : Slot} {queue : EnvList} (member : env ∈ schedule.list queue) (different : queue ≠ .envReadyQueue) :
      env ∉ schedule.ready := by
    intro waits
    cases ((sound.lies member).1.list .envReadyQueue).1 waits
    exact different rfl
  have notRunning {next : Schedule} (curenv : next.curenv = schedule.curenv) (env : Slot)
      (running : next.curenv = some env) : env ∉ schedule.ready := sound.notRunning (curenv ▸ running) _
  have new : ∀ env ∈ schedule.list .envNewQueue, env ∉ schedule.ready := fun env member =>
    elsewhere member (by decide)
  cases event with
  | create known =>
      change schedule.Evolves (schedule.create known)
      unfold Schedule.create
      split
      · exact unchanged (transfer_other (by decide) (by decide)) rfl
      · exact unchanged rfl rfl
      · exact unchanged rfl rfl
  | runEnv envId =>
      change schedule.Evolves (schedule.run envId)
      unfold Schedule.run
      split
      · exact unchanged rfl rfl
      · next env found =>
          have member := find_mem found
          have moved := sound.move member ready_fits (sound.used member (by decide)) (by decide)
          have isReady : (schedule.move .envNewQueue .envReadyQueue .ready env).ready = [env] ++ schedule.ready :=
            transfer_target (by decide)
          apply moved.evolves_startIfStopped sound isReady (List.Sublist.refl _) _ rfl
          exact List.forall_mem_singleton.2 (new env member)
  | runAll =>
      have moved := sound.moveAll (by decide) ready_fits (by decide : EnvList.envNewQueue ≠ .envFreeList) (by decide)
      apply moved.evolves_startIfStopped sound (moveAll_target (by decide) _) (List.Sublist.refl _) _ (moveAll_curenv _)
      exact fun env member => new env (List.mem_reverse.1 member)
  | clockInterrupt =>
      exact sound.evolves_reschedule (List.nil_append _).symm (List.Sublist.refl _) (List.forall_mem_nil _)
        (notRunning rfl)
  | exit =>
      cases running : schedule.curenv with
      | none =>
          rw [Schedule.after, running]
          exact unchanged rfl rfl
      | some current =>
          rw [Schedule.after, running]
          have exited := sound.exit running
          have isReady : (schedule.exit current).ready = [] ++ schedule.ready := by simp [Schedule.exit, Schedule.ready]
          apply exited.evolves_reschedule isReady (List.Sublist.refl _) (List.forall_mem_nil _)
          exact fun _ impossible => absurd impossible.symm (Option.some_ne_none _)
  | exitAllReadyEnvs =>
      exact .waits [] [] ⟨List.nil_sublist _, List.forall_mem_nil _, List.nodup_nil⟩ (moveAll_source (by decide) _)
        (moveAll_curenv _)
  | killEnv envId =>
      change schedule.Evolves (schedule.kill envId)
      unfold Schedule.kill
      split
      · exact unchanged (transfer_other (by decide) (by decide)) rfl
      · next env _ _ =>
          have isReady : (schedule.free .envReadyQueue env).ready = [] ++ schedule.ready.erase env := by
            simp [Schedule.free, Schedule.ready]
          exact .waits [] _ ⟨List.erase_sublist, List.forall_mem_nil _, (sound.nodup _).erase _⟩ isReady rfl
      · exact unchanged (transfer_other (by decide) (by decide)) rfl
      · exact unchanged rfl rfl
  | killAll =>
      have freed := (((sound.freeAll (by decide : EnvList.envNewQueue ≠ _)).freeAll
        (by decide : EnvList.envReadyQueue ≠ _)).freeAll (by decide : EnvList.envExitQueue ≠ _))
      apply freed.evolves_reschedule _ (List.nil_sublist _) (List.forall_mem_nil _)
        (notRunning ?_)
      · exact (freeAll_other (by decide) (by decide)).trans (freeAll_source (by decide))
      · rw [freeAll_curenv, freeAll_curenv, freeAll_curenv]

end Schedule

end Fos.Sched
