import Fos.Foundation.Waiting
import Fos.Sched.ExitAndKill

/-! An environment in the ready queue is dispatched after as many scheduling decisions as environments are ahead
of it, and clock interrupts alone give every environment its turn. -/

set_option autoImplicit false

namespace Fos.Sched

open Foundation

variable {state : Scheduler} {schedule middle : Schedule} {env : Slot} {ahead : Nat} {fresh : List Slot}

/-- `fos_scheduler` takes an environment from the queue. -/
def SchedEvent.decides : SchedEvent → Bool
  | .clockInterrupt | .exit => true
  | .create _ | .runEnv _ | .runAll | .exitAllReadyEnvs | .killEnv _ | .killAll => false

/-- The event takes the environment out of the ready queue. -/
def SchedEvent.Removes (state : Scheduler) (env : Slot) : SchedEvent → Prop
  | .exitAllReadyEnvs | .killAll => True
  | .killEnv envId => state.hasId env envId
  | .create _ | .runEnv _ | .runAll | .clockInterrupt | .exit => False

namespace Schedule

/-- So many environments are ahead of one in the ready queue. -/
structure Queued (schedule : Schedule) (env : Slot) (ahead : Nat) : Prop where
  split : ∃ front back, schedule.ready = front ++ env :: back ∧ back.length = ahead

/-- The environment runs, or not more are ahead of it, and one less after a decision. -/
def Advances (next : Schedule) (env : Slot) (ahead decisions : Nat) : Prop :=
  next.curenv = some env ∨ ∃ later, next.Queued env later ∧ later + decisions ≤ ahead

theorem Queued.of_ready {next : Schedule} (queued : schedule.Queued env ahead) (ready : next.ready = fresh ++ schedule.ready) :
    next.Queued env ahead := by
  obtain ⟨front, back, content, size⟩ := queued.split
  refine ⟨fresh ++ front, back, ?_, size⟩
  rw [ready, content, List.append_assoc]

theorem Queued.advances (queued : schedule.Queued env ahead) : schedule.Advances env ahead 0 :=
  .inr ⟨ahead, queued, le_refl _⟩

/-- What a decision does to the queue and the processor. -/
theorem Sound.reschedule_ready (sound : schedule.Sound) :
    schedule.reschedule.ready = (schedule.curenv.toList ++ schedule.ready).dropLast ∧
      schedule.reschedule.curenv = (schedule.curenv.toList ++ schedule.ready).getLast? := by
  have preempted : schedule.preempt.ready = schedule.curenv.toList ++ schedule.ready := by
    cases current : schedule.curenv with
    | none =>
        rw [Schedule.preempt, current]
        rfl
    | some env => simp [Schedule.preempt, current, Schedule.ready]
  rw [← preempted]
  exact dispatch_ready (sound.preempt.nodup _) preempt_curenv

theorem Queued.reschedule (queued : schedule.Queued env ahead) (sound : schedule.Sound) :
    schedule.reschedule.Advances env ahead 1 := by
  obtain ⟨ready, curenv⟩ := sound.reschedule_ready
  obtain ⟨front, back, content, size⟩ := queued.split
  rw [content, ← List.append_assoc] at ready curenv
  cases eq : back using List.reverseRecOn with
  | nil =>
      rw [eq, List.getLast?_append_of_ne_nil _ (List.cons_ne_nil _ _)] at curenv
      exact .inl curenv
  | append_singleton rest last _ =>
      rw [eq, List.length_append, List.length_singleton] at size
      refine .inr ⟨rest.length, ⟨schedule.curenv.toList ++ front, rest, ?_, rfl⟩, size.le⟩
      rw [ready, eq, ← List.cons_append, ← List.append_assoc, List.dropLast_concat]

theorem Queued.startIfStopped (queued : schedule.Queued env ahead) (sound : schedule.Sound) :
    schedule.startIfStopped.Advances env ahead 0 := by
  unfold Schedule.startIfStopped
  split
  · cases queued.reschedule sound with
    | inl runs => exact .inl runs
    | inr waits =>
        obtain ⟨later, queued, fewer⟩ := waits
        exact .inr ⟨later, queued, (Nat.le_succ later).trans fewer⟩
  · exact queued.advances

theorem Queued.erase {next : Schedule} {other : Slot} (queued : schedule.Queued env ahead) (different : other ≠ env)
    (ready : next.ready = schedule.ready.erase other) : next.Advances env ahead 0 := by
  obtain ⟨front, back, content, size⟩ := queued.split
  rw [content] at ready
  cases Classical.em (other ∈ front) with
  | inl inFront =>
      rw [List.erase_append_left _ inFront] at ready
      exact .inr ⟨ahead, ⟨front.erase other, back, ready, size⟩, le_refl _⟩
  | inr notFront =>
      rw [List.erase_append_right _ notFront, List.erase_cons_tail (by simpa using different.symm)] at ready
      refine .inr ⟨(back.erase other).length, ⟨front, back.erase other, ready, rfl⟩, ?_⟩
      rw [← size]
      exact List.erase_sublist.length_le

/-- Of an environment that waits, an event that does not take it out of the queue makes it wait no longer. -/
theorem Queued.after (queued : schedule.Queued env ahead) (sound : schedule.Sound) (stands : state.Stands schedule)
    {event : SchedEvent} (proper : event.Proper state) (stays : ¬ event.Removes state env) :
    (schedule.after event).Advances env ahead (if event.decides then 1 else 0) := by
  have unchanged {next : Schedule} (ready : next.ready = schedule.ready) : next.Advances env ahead 0 :=
    have isReady : next.ready = [] ++ schedule.ready := ready
    (queued.of_ready isReady).advances
  cases event with
  | create known =>
      change (schedule.create known).Advances env ahead 0
      unfold Schedule.create
      split
      · exact unchanged (transfer_other (by decide) (by decide))
      · exact unchanged rfl
      · exact unchanged rfl
  | runEnv envId =>
      change (schedule.run envId).Advances env ahead 0
      unfold Schedule.run
      split
      · exact unchanged rfl
      · next other found =>
          have member := find_mem found
          have moved := sound.move member ready_fits (sound.used member (by decide)) (by decide)
          have isReady : (schedule.move .envNewQueue .envReadyQueue .ready other).ready = [other] ++ schedule.ready :=
            transfer_target (by decide)
          exact (queued.of_ready isReady).startIfStopped moved
  | runAll =>
      have moved := sound.moveAll (by decide) ready_fits (by decide : EnvList.envNewQueue ≠ .envFreeList) (by decide)
      exact (queued.of_ready (moveAll_target (by decide) _)).startIfStopped moved
  | clockInterrupt => exact queued.reschedule sound
  | exit =>
      cases running : schedule.curenv with
      | none =>
          exact absurd (stands.curenv.trans running) proper
      | some current =>
          rw [Schedule.after, running]
          have isReady : (schedule.exit current).ready = [] ++ schedule.ready := by simp [Schedule.exit, Schedule.ready]
          exact (queued.of_ready isReady).reschedule (sound.exit running)
  | exitAllReadyEnvs => exact absurd trivial stays
  | killEnv envId =>
      change (schedule.kill envId).Advances env ahead 0
      unfold Schedule.kill
      split
      · exact unchanged (transfer_other (by decide) (by decide))
      · next other _ found =>
          have different : other ≠ env := by
            intro same
            apply stays
            rw [SchedEvent.Removes, Scheduler.hasId, stands.envs, ← same]
            exact schedule.find_hasId found
          exact queued.erase different (by simp [Schedule.free, Schedule.ready])
      · exact unchanged (transfer_other (by decide) (by decide))
      · exact unchanged rfl
  | killAll => exact absurd trivial stays

end Schedule

/-! ### Bounded waiting -/

/-- The sequences the scheduler stands for, with an environment that waits. -/
structure Scheduler.Queued (state : Scheduler) (env : Slot) (ahead : Nat) : Prop where
  stands : ∃ schedule : Schedule, state.Stands schedule ∧ schedule.Sound ∧ schedule.Queued env ahead

/-- The event puts the environment on the processor or takes it out of the ready queue. -/
def Scheduler.Serves (env : Slot) (state : Scheduler) (event : SchedEvent) (next : Scheduler) : Prop :=
  next.curenv = some env ∨ event.Removes state env

theorem Scheduler.Queued.step (queued : state.Queued env ahead) {event : SchedEvent} {next : Scheduler}
    (proper : event.Proper state) (executes : scheduler.exec state event = some next) :
    Scheduler.Serves env state event next ∨
      ∃ later, next.Queued env later ∧ later + (if event.decides then 1 else 0) ≤ ahead := by
  obtain ⟨schedule, stands, sound, queued⟩ := queued.stands
  obtain ⟨after, executed, result⟩ := exec_stands stands sound proper
  cases executed.symm.trans executes
  cases Classical.em (event.Removes state env) with
  | inl removes => exact .inl (.inr removes)
  | inr stays =>
      cases queued.after sound stands proper stays with
      | inl dispatched => exact .inl (.inl (result.curenv.trans dispatched))
      | inr waits =>
          obtain ⟨later, waits, fewer⟩ := waits
          exact .inr ⟨later, ⟨_, result, sound.after event, waits⟩, fewer⟩

theorem Scheduler.queued_of_represents (reached : scheduler.Reaches (fun state event => event.Proper state) state)
    {front back : List Slot} (isReady : state.queues.Represents .envReadyQueue (front ++ env :: back)) :
    state.Queued env back.length := by
  obtain ⟨schedule, stands, sound⟩ := reached_stands reached
  exact ⟨schedule, stands, sound, ⟨front, back, (stands.represents .envReadyQueue).unique isReady, rfl⟩⟩

/-- An environment in the ready queue with `back` ahead of it is dispatched, or taken out of the queue, before
the scheduler has decided more than `back.length` times, whatever else happens. -/
theorem scheduler_boundedWaiting (reached : scheduler.Reaches (fun state event => event.Proper state) state)
    {front back : List Slot} (isReady : state.queues.Represents .envReadyQueue (front ++ env :: back))
    {events : List SchedEvent} {last : Scheduler}
    (runs : scheduler.Runs (fun state event => event.Proper state) state events last)
    (long : back.length < events.countP SchedEvent.decides) :
    scheduler.Ends (fun state event => event.Proper state) SchedEvent.decides (Scheduler.Serves env) state events last
      back.length :=
  runs.ends (Scheduler.Queued · env ·) (fun _ _ _ _ queued => queued.step)
    (Scheduler.queued_of_represents reached isReady) long

theorem Scheduler.Stands.clockInterrupt (stands : state.Stands schedule) (sound : schedule.Sound) :
    ∃ next, scheduler.exec state .clockInterrupt = some next ∧ next.Stands schedule.reschedule := by
  have proper : SchedEvent.clockInterrupt.Proper state := trivial
  exact exec_stands stands sound proper

/-- Three clock interrupts, of which the last dispatches the environment that had two ahead of it. -/
theorem scheduler_boundedWaiting_four : ∃ state last : Scheduler,
    state.queues.Represents .envReadyQueue [0, 1, 2] ∧ scheduler.Ends (fun state event => event.Proper state)
      SchedEvent.decides (Scheduler.Serves 0) state (List.replicate 3 .clockInterrupt) last 2 := by
  obtain ⟨state, reached, stands, sound⟩ := booted_run fourReady fourReady_proper
  have content : (fourReady.foldl Schedule.after Schedule.boot).list .envReadyQueue = [0, 1, 2] := by decide
  have isReady : state.queues.Represents .envReadyQueue ([] ++ 0 :: [1, 2]) := content ▸ stands.represents _
  obtain ⟨first, ranFirst, standsFirst⟩ := stands.clockInterrupt sound
  obtain ⟨second, ranSecond, standsSecond⟩ := standsFirst.clockInterrupt sound.reschedule
  obtain ⟨third, ranThird, -⟩ := standsSecond.clockInterrupt sound.reschedule.reschedule
  have runs : scheduler.Runs (fun state event => event.Proper state) state (List.replicate 3 .clockInterrupt) third :=
    .cons trivial ranFirst (.cons trivial ranSecond (.cons trivial ranThird (.nil third)))
  exact ⟨state, third, isReady, scheduler_boundedWaiting reached isReady runs (by decide)⟩

/-! ### Fair shares -/

namespace Schedule

/-- The environment that runs and those that wait. -/
def active (schedule : Schedule) : List Slot := schedule.curenv.toList ++ schedule.ready

/-- A clock interrupt puts the last of the active environments in front. -/
theorem Sound.rotate_active (sound : schedule.Sound) : schedule.reschedule.active.rotate 1 = schedule.active := by
  obtain ⟨ready, curenv⟩ := sound.reschedule_ready
  change schedule.reschedule.ready = schedule.active.dropLast at ready
  change schedule.reschedule.curenv = schedule.active.getLast? at curenv
  rw [active, ready, curenv]
  cases schedule.active using List.reverseRecOn with
  | nil => rfl
  | append_singleton rest last _ => simp

theorem Sound.active_nodup (sound : schedule.Sound) : schedule.active.Nodup := by
  rw [active, List.nodup_append]
  refine ⟨?_, sound.nodup _, ?_⟩
  · cases schedule.curenv with
    | none => exact List.nodup_nil
    | some current => exact List.nodup_singleton current
  · rintro current running waiting waits rfl
    exact sound.notRunning (Option.mem_toList.1 running) _ waits

end Schedule

/-- The states after so many clock interrupts, as long as these return. -/
def Scheduler.ticked (state : Scheduler) : Nat → Scheduler
  | 0 => state
  | ticks + 1 => (scheduler.exec (state.ticked ticks) .clockInterrupt).getD (state.ticked ticks)

theorem Scheduler.Stands.ticked (stands : state.Stands schedule) (sound : schedule.Sound) (ticks : Nat) :
    (state.ticked ticks).Stands (Schedule.reschedule^[ticks] schedule) ∧
      (Schedule.reschedule^[ticks] schedule).Sound := by
  induction ticks with
  | zero => exact ⟨stands, sound⟩
  | succ ticks ih =>
      obtain ⟨next, executed, after⟩ := ih.1.clockInterrupt ih.2
      rw [Function.iterate_succ_apply', Scheduler.ticked, executed]
      exact ⟨after, ih.2.reschedule⟩

theorem Scheduler.Stands.exec_ticked (stands : state.Stands schedule) (sound : schedule.Sound) (ticks : Nat) :
    scheduler.exec (state.ticked ticks) .clockInterrupt = some (state.ticked (ticks + 1)) := by
  obtain ⟨stands, sound⟩ := stands.ticked sound ticks
  obtain ⟨next, executed, -⟩ := stands.clockInterrupt sound
  rw [Scheduler.ticked, executed, Option.getD_some]

namespace Schedule.Sound

variable (sound : schedule.Sound) (ticks : Nat)
include sound

theorem iterate : (Schedule.reschedule^[ticks] schedule).Sound := by
  induction ticks with
  | zero => exact sound
  | succ ticks ih =>
      rw [Function.iterate_succ_apply']
      exact ih.reschedule

theorem turns : Turns fun ticks => (Schedule.reschedule^[ticks] schedule).active where
  rotate ticks := by
    rw [Function.iterate_succ_apply']
    exact (sound.iterate ticks).rotate_active
  nodup := sound.active_nodup

/-- Clock interrupts do not make a processor idle that is not. -/
theorem running_iterate (running : schedule.curenv ≠ none) : (Schedule.reschedule^[ticks] schedule).curenv ≠ none := by
  induction ticks with
  | zero => exact running
  | succ ticks ih =>
      rw [Function.iterate_succ_apply', (sound.iterate ticks).reschedule_ready.2]
      intro idle
      apply ih
      have nobody := (List.append_eq_nil_iff.1 (List.getLast?_eq_none_iff.1 idle)).1
      exact Option.toList_eq_nil_iff.1 nobody

theorem head?_active (running : schedule.curenv ≠ none) :
    (Schedule.reschedule^[ticks] schedule).active.head? = (Schedule.reschedule^[ticks] schedule).curenv := by
  obtain ⟨current, isCurrent⟩ := Option.ne_none_iff_exists'.1 (sound.running_iterate ticks running)
  rw [active, isCurrent]
  rfl

end Schedule.Sound

/-- In every state in which an environment runs, as many clock interrupts as there are active environments give
each of them the processor exactly once, and nobody else has it. -/
theorem scheduler_fairShare (reached : scheduler.Reaches (fun state event => event.Proper state) state)
    {current : Slot} {ready : List Slot} (running : state.curenv = some current)
    (isReady : state.queues.Represents .envReadyQueue ready) :
    (∀ ticks, scheduler.exec (state.ticked ticks) .clockInterrupt = some (state.ticked (ticks + 1))) ∧
      (∀ ticks, ∃ env ∈ current :: ready, (state.ticked ticks).curenv = some env) ∧
      ∀ env ∈ current :: ready, ∀ start, ∃! ticks, (start ≤ ticks ∧ ticks < start + (ready.length + 1)) ∧
        (state.ticked ticks).curenv = some env := by
  obtain ⟨schedule, stands, sound⟩ := reached_stands reached
  have active : schedule.active = current :: ready := by
    rw [Schedule.active, ← stands.curenv, running, Schedule.ready, (stands.represents .envReadyQueue).unique isReady]
    rfl
  have runs : schedule.curenv ≠ none := by
    rw [← stands.curenv, running]
    exact Option.some_ne_none _
  have turn (ticks : Nat) : (state.ticked ticks).curenv = (Schedule.reschedule^[ticks] schedule).active.head? :=
    (stands.ticked sound ticks).1.curenv.trans (sound.head?_active ticks runs).symm
  refine ⟨stands.exec_ticked sound, fun ticks => ?_, fun env member start => ?_⟩
  · obtain ⟨env, isRunning⟩ := Option.ne_none_iff_exists'.1 (sound.running_iterate ticks runs)
    refine ⟨env, ?_, (stands.ticked sound ticks).1.curenv.trans isRunning⟩
    rw [← active]
    apply (sound.turns.perm ticks).mem_iff.1
    apply List.mem_of_head?
    rw [sound.head?_active ticks runs, isRunning]
  · have once := sound.turns.existsUnique_head? (active ▸ member : env ∈ schedule.active) start
    simp only [Function.iterate_zero, id_eq, active, List.length_cons] at once
    simpa only [turn] using once

/-- Three of four environments wait. -/
theorem scheduler_fairShare_four : ∃ state : Scheduler, state.curenv = some 3 ∧
    ∀ env ∈ ([3, 0, 1, 2] : List Slot), ∀ start, ∃! ticks, (start ≤ ticks ∧ ticks < start + 4) ∧
      (state.ticked ticks).curenv = some env := by
  obtain ⟨state, reached, stands, sound⟩ := booted_run fourReady fourReady_proper
  have content : (fourReady.foldl Schedule.after Schedule.boot).list .envReadyQueue = [0, 1, 2] := by decide
  have isReady : state.queues.Represents .envReadyQueue [0, 1, 2] := content ▸ stands.represents _
  have running : state.curenv = some 3 := stands.curenv.trans (by decide)
  exact ⟨state, running, (scheduler_fairShare reached running isReady).2.2⟩

end Fos.Sched
