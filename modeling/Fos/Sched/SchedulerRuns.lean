import Fos.Sched.SchedulerProperties
import Mathlib.Logic.Relation

/-! Runs of the scheduler from boot on: every environment is in one place, and the ready queue is
served in order. -/

set_option autoImplicit false

namespace Fos.Sched

open Foundation Queue
open Kernel (EnvStatus nenv)

variable {state next : Scheduler} {schedule : Schedule} {env : Slot}

/-! ### Boot -/

/-- The scheduler after boot. -/
def Schedule.boot : Schedule where
  list
    | .envFreeList => List.finRange nenv
    | _ => []
  envs _ := ⟨0, .free⟩
  curenv := none
  schedulerStatus := .stopped

theorem Schedule.boot_sound : Schedule.boot.Sound where
  nodup queue := by
    cases queue with
    | envFreeList => exact List.nodup_finRange nenv
    | envNewQueue | envReadyQueue | envExitQueue => exact List.nodup_nil
  placed env := by
    refine ⟨.inList .envFreeList, ⟨fun queue => ?_, iff_of_false nofun nofun⟩, rfl⟩
    cases queue with
    | envFreeList => exact iff_of_true (List.mem_finRange env) rfl
    | envNewQueue | envReadyQueue | envExitQueue => exact iff_of_false List.not_mem_nil nofun
  identified env := rfl

/-- `env_init` puts the environments on the free list one by one. -/
private theorem envInit_loop (slots : List Slot) : ∀ (done : List Slot) (state : Scheduler),
    (slots.reverse ++ done).Nodup →
    Lists.Sound ⟨state.queues, Function.update (fun _ => none) .envFreeList (some done)⟩ →
    (∀ env ∈ done, state.envs env = ⟨0, .free⟩) →
    wp (slots.forM fun env => do
        modify (·.setEnv env ⟨0, .free⟩)
        modifyQueues (·.listInsertHead .envFreeList env))
      (fun _ next =>
        Lists.Sound ⟨next.queues, Function.update (fun _ => none) .envFreeList (some (slots.reverse ++ done))⟩ ∧
          (∀ env ∈ slots.reverse ++ done, next.envs env = ⟨0, .free⟩) ∧ next.curenv = state.curenv)
      (fun _ _ => False) state := by
  induction slots with
  | nil => exact fun done state _ sound envs => ⟨sound, envs, rfl⟩
  | cons env rest ih =>
      intro done state nodup sound envs
      rw [List.reverse_cons, List.append_assoc] at nodup ⊢
      have fresh : env ∉ done := (List.nodup_cons.1 (List.nodup_append.1 nodup).2.1).1
      have proper : (Call.insertHead EnvList.envFreeList env).Proper
          ⟨state.queues, Function.update (fun _ => none) .envFreeList (some done)⟩ := by
        refine ⟨fun queue elements content => ?_, by simp⟩
        cases queue with
        | envFreeList =>
            simp only [Function.update_self, Option.some.injEq] at content
            exact content ▸ fresh
        | envNewQueue | envReadyQueue | envExitQueue => cases content
      have inserted := sound.changes (sound.run proper)
      simp only [Call.list, Function.update_self, Option.getD_some, Call.effect, Function.update_idem] at inserted
      apply wp_mono (ih (env :: done) _ nodup inserted _) (fun _ _ after => after) fun _ _ failed => failed
      intro other member
      cases decEq other env with
      | isTrue same => simp [same]
      | isFalse different =>
          simp [different, envs other ((List.mem_cons.1 member).resolve_left different)]

/-- Boot leaves every environment free, whatever was in memory. -/
theorem boot_stands {blank : Scheduler} (idle : blank.curenv = none)
    (zero : blank.queues.heads .envFreeList = ⟨none, none, none, 0⟩) :
    wp (envInit *> schedInit) (fun _ next => next.Stands Schedule.boot) (fun _ _ => False) blank := by
  have start : Lists.Sound ⟨blank.queues, Function.update (fun _ => none) EnvList.envFreeList (some [])⟩ := by
    apply Lists.reached_sound
    apply System.Reaches.start
    intro queue elements content
    cases queue with
    | envFreeList =>
        simp only [Function.update_self, Option.some.injEq] at content
        exact ⟨content.symm, congrArg ListHead.lhFirst zero, congrArg ListHead.lhLast zero, congrArg ListHead.size zero⟩
    | envNewQueue | envReadyQueue | envExitQueue => cases content
  have loop := envInit_loop (List.finRange nenv).reverse [] blank (by simp [List.nodup_finRange]) start
    (List.forall_mem_nil _)
  have both : envInit *> schedInit = envInit >>= fun _ => schedInit := rfl
  rw [both, wp_bind]
  apply wp_mono loop _ fun _ _ failed => failed
  rintro _ middle ⟨sound, envs, curenv⟩
  rw [List.reverse_reverse, List.append_nil] at sound envs
  simp only [schedInit, modifyQueues, wp_bind, wp_modify]
  have initialised {lists : Lists EnvList Slot} (sound : lists.Sound) (queue : EnvList) :
      Lists.Sound ⟨lists.memory.listInit queue, Function.update lists.contents queue (some [])⟩ := by
    have proper : (Call.init queue : Call EnvList Slot).Proper lists := trivial
    exact sound.changes (sound.run proper)
  have all := initialised (initialised (initialised sound .envReadyQueue) .envNewQueue) .envExitQueue
  have same : Function.update (Function.update (Function.update (Function.update (fun _ => none) EnvList.envFreeList
      (some (List.finRange nenv))) .envReadyQueue (some [])) .envNewQueue (some [])) .envExitQueue (some []) =
      fun queue => some (Schedule.boot.list queue) := by
    funext queue
    cases queue <;> rfl
  rw [same] at all
  exact ⟨all, funext fun env => envs env (List.mem_finRange env), curenv.trans idle, rfl⟩

/-! ### Runs -/

/-- Every state of a run stands for sequences in which every environment has its place. -/
theorem reached_stands (reached : scheduler.Reaches (fun state event => event.Proper state) state) :
    ∃ schedule : Schedule, state.Stands schedule ∧ schedule.Sound := by
  apply reached.invariant
  · rintro state ⟨blank, idle, zero, booted⟩
    have holds := boot_stands idle zero
    rw [wp_of_ok booted] at holds
    exact ⟨Schedule.boot, holds, Schedule.boot_sound⟩
  · rintro state event next ⟨schedule, stands, sound⟩ proper executes
    obtain ⟨after, executed, result⟩ := exec_stands stands sound proper
    cases executed.symm.trans executes
    exact ⟨schedule.after event, result, sound.after event⟩

theorem Scheduler.Stands.represents (stands : state.Stands schedule) (queue : EnvList) :
    state.queues.Represents queue (schedule.list queue) := by
  have holds := stands.lists.holds queue
  apply holds.represents
  have bound := holds.nodup.length_le_card
  rw [Fintype.card_fin] at bound
  exact bound.trans_lt (by decide)

/-- An environment is in a place. -/
def Place.Holds (curenv : Option Slot) (contents : EnvList → List Slot) (env : Slot) : Place → Prop
  | .inList queue => env ∈ contents queue
  | .running => curenv = some env

/-- Each list in memory is a sequence without repetition, every environment is in exactly one of
them or running, and its status says in which. -/
structure Scheduler.Partitioned (state : Scheduler) (contents : EnvList → List Slot) : Prop where
  lists : ∀ queue, state.queues.Represents queue (contents queue)
  nodup : ∀ queue, (contents queue).Nodup
  once : ∀ env, ∃! place : Place, place.Holds state.curenv contents env
  free : ∀ env, (state.envs env).envStatus = .free ↔ env ∈ contents .envFreeList
  new : ∀ env, (state.envs env).envStatus = .new ↔ env ∈ contents .envNewQueue
  exit : ∀ env, (state.envs env).envStatus = .exit ↔ env ∈ contents .envExitQueue
  active : ∀ env, env ∈ contents .envReadyQueue ∨ state.curenv = some env →
    (state.envs env).envStatus = .ready ∨ (state.envs env).envStatus = .runnable

/-- A status tells the place apart from the others. -/
theorem Place.Fits.status_iff {place : Place} {status : EnvStatus} (fits : place.Fits status) :
    (status = .free ↔ place = .inList .envFreeList) ∧ (status = .new ↔ place = .inList .envNewQueue) ∧
      (status = .exit ↔ place = .inList .envExitQueue) ∧
      (place = .inList .envReadyQueue ∨ place = .running → status = .ready ∨ status = .runnable) := by
  cases place with
  | running =>
      cases fits with
      | inl isReady => simp [isReady]
      | inr isRunnable => simp [isRunnable]
  | inList queue =>
      cases queue with
      | envFreeList | envNewQueue | envExitQueue => cases fits; simp
      | envReadyQueue =>
          cases fits with
          | inl isReady => simp [isReady]
          | inr isRunnable => simp [isRunnable]

theorem Scheduler.Stands.partitioned (stands : state.Stands schedule) (sound : schedule.Sound) :
    state.Partitioned schedule.list where
  lists := stands.represents
  nodup := sound.nodup
  once env := by
    obtain ⟨place, lies, -⟩ := sound.placed env
    refine ⟨place, ?_, fun other holds => ?_⟩
    · cases place with
      | inList queue => exact (lies.list queue).2 rfl
      | running => exact stands.curenv.trans (lies.running.2 rfl)
    · cases other with
      | inList queue => exact ((lies.list queue).1 holds).symm
      | running => exact (lies.running.1 (stands.curenv ▸ holds)).symm
  free env := by
    obtain ⟨place, lies, fits⟩ := sound.placed env
    rw [stands.envs, fits.status_iff.1, lies.list]
  new env := by
    obtain ⟨place, lies, fits⟩ := sound.placed env
    rw [stands.envs, fits.status_iff.2.1, lies.list]
  exit env := by
    obtain ⟨place, lies, fits⟩ := sound.placed env
    rw [stands.envs, fits.status_iff.2.2.1, lies.list]
  active env active := by
    obtain ⟨place, lies, fits⟩ := sound.placed env
    rw [stands.envs]
    rw [lies.list, stands.curenv, lies.running] at active
    exact fits.status_iff.2.2.2 active

/-- In every state of every run the environments are partitioned among the lists and the processor,
and no operation fails there. -/
theorem scheduler_partitioned (reached : scheduler.Reaches (fun state event => event.Proper state) state) :
    (∃ contents, state.Partitioned contents) ∧
      ∀ event : SchedEvent, event.Proper state → (scheduler.exec state event).isSome := by
  obtain ⟨schedule, stands, sound⟩ := reached_stands reached
  refine ⟨⟨schedule.list, stands.partitioned sound⟩, fun event proper => ?_⟩
  obtain ⟨next, executed, -⟩ := exec_stands stands sound proper
  rw [executed]
  rfl

/-- A run of events that can always occur. -/
theorem booted_run (events : List SchedEvent) :
    (∀ state, ∀ event ∈ events, event.Proper state) →
    ∃ state, scheduler.Reaches (fun state event => event.Proper state) state ∧
      state.Stands (events.foldl Schedule.after Schedule.boot) ∧ (events.foldl Schedule.after Schedule.boot).Sound := by
  induction events using List.reverseRecOn with
  | nil =>
      intro _
      let blank : Scheduler := {
        queues := { heads := fun _ => ⟨none, none, none, 0⟩, links := fun _ => ⟨none, none⟩ }
        envs := fun _ => ⟨7, .unknown⟩
        curenv := none
        schedulerStatus := .started }
      cases wp_cases (@boot_stands blank rfl rfl) with
      | inl returns =>
          obtain ⟨⟨⟩, state, booted, stands⟩ := returns
          exact ⟨state, .start ⟨blank, rfl, rfl, booted⟩, stands, Schedule.boot_sound⟩
      | inr fails =>
          obtain ⟨_, _, -, failed⟩ := fails
          exact failed.elim
  | append_singleton events event ih =>
      intro proper
      obtain ⟨state, reached, stands, sound⟩ := ih fun state event member =>
        proper state event (List.mem_append_left _ member)
      have permitted := proper state event (List.mem_append_right _ (List.mem_singleton_self _))
      obtain ⟨next, executed, after⟩ := exec_stands stands sound permitted
      rw [List.foldl_append]
      exact ⟨next, reached.step event permitted executed, after, sound.after event⟩

/-- Four environments are made and put in the ready queue. -/
def fourReady : List SchedEvent := [.create true, .create true, .create true, .create true, .runAll]

theorem fourReady_proper (state : Scheduler) : ∀ event ∈ fourReady, event.Proper state := by
  simp [fourReady, SchedEvent.Proper]

/-- Four environments that are ready, of which the first one runs and can exit. -/
theorem scheduler_partitioned_four : ∃ state contents, state.Partitioned contents ∧ state.curenv = some 3 ∧
    (scheduler.exec state .exit).isSome := by
  obtain ⟨state, reached, stands, -⟩ := booted_run fourReady fourReady_proper
  obtain ⟨⟨contents, partitioned⟩, runs⟩ := scheduler_partitioned reached
  have running : state.curenv = some 3 := stands.curenv.trans (by decide)
  refine ⟨state, contents, partitioned, running, runs .exit ?_⟩
  rw [SchedEvent.Proper, running]
  exact Option.some_ne_none _

/-! ### Round robin -/

/-- An environment is in the ready queue. -/
def Scheduler.Waits (state : Scheduler) (env : Slot) : Prop :=
  ∃ ready, state.queues.Represents .envReadyQueue ready ∧ env ∈ ready

/-- One event after which the environment still waits. -/
def Scheduler.StepsWhile (env : Slot) (state next : Scheduler) : Prop :=
  next.Waits env ∧ ∃ event : SchedEvent, event.Proper state ∧ scheduler.exec state event = some next

/-- An environment is not dispatched before one that is ahead of it in the ready queue has been
dispatched or removed, and those that come into the queue come behind those that wait. -/
theorem scheduler_roundRobin (reached : scheduler.Reaches (fun state event => event.Proper state) state)
    {ready : List Slot} (isReady : state.queues.Represents .envReadyQueue ready) :
    (∀ first second, Ahead first second ready →
      ∀ later, Relation.ReflTransGen (Scheduler.StepsWhile first) state later → later.curenv ≠ some second) ∧
    ∀ (event : SchedEvent) next, event.Proper state → scheduler.exec state event = some next →
      ∃ fresh kept, next.queues.Represents .envReadyQueue (fresh ++ kept) ∧ kept.Sublist ready ∧
        ∀ env ∈ fresh, env ∉ ready := by
  obtain ⟨schedule, stands, sound⟩ := reached_stands reached
  have same : schedule.ready = ready := (stands.represents .envReadyQueue).unique isReady
  constructor
  · intro first second ahead later runs
    suffices ∃ schedule : Schedule, later.Stands schedule ∧ schedule.Sound ∧ schedule.Behind first second by
      obtain ⟨schedule, stands, -, behind⟩ := this
      rw [stands.curenv]
      exact behind.notRunning
    induction runs with
    | refl =>
        rw [← same] at ahead
        obtain ⟨front, back, content, inFront, inBack⟩ := ahead
        refine ⟨schedule, stands, sound, content ▸ List.mem_append_right _ inBack, fun running => ?_,
          fun _ => ⟨front, back, content, inFront, inBack⟩⟩
        have waits : second ∈ schedule.ready := content ▸ List.mem_append_left _ inFront
        exact sound.notRunning running _ waits
    | tail _ step ih =>
        obtain ⟨schedule, stands, sound, behind⟩ := ih
        obtain ⟨⟨ready, isReady, stays⟩, event, proper, executes⟩ := step
        obtain ⟨next, executed, after⟩ := exec_stands stands sound proper
        cases executed.symm.trans executes
        refine ⟨_, after, sound.after event, (sound.evolves event).behind (sound.nodup _) behind ?_⟩
        rwa [← (after.represents .envReadyQueue).unique isReady] at stays
  · intro event next proper executes
    obtain ⟨after, executed, result⟩ := exec_stands stands sound proper
    cases executed.symm.trans executes
    obtain ⟨fresh, kept, content, sublist, entered⟩ := (sound.evolves event).order
    rw [same] at sublist entered
    exact ⟨fresh, kept, content ▸ result.represents .envReadyQueue, sublist, entered⟩

/-- A clock interrupt with three environments waiting: the one that came last is not dispatched. -/
theorem scheduler_roundRobin_four : ∃ state next : Scheduler, state.curenv = some 3 ∧
    state.queues.Represents .envReadyQueue [0, 1, 2] ∧ scheduler.exec state .clockInterrupt = some next ∧
    next.curenv ≠ some 0 ∧ ∃ fresh kept, next.queues.Represents .envReadyQueue (fresh ++ kept) ∧
      kept.Sublist [0, 1, 2] ∧ ∀ env ∈ fresh, env ∉ [0, 1, 2] := by
  obtain ⟨state, reached, stands, sound⟩ := booted_run fourReady fourReady_proper
  have content : (fourReady.foldl Schedule.after Schedule.boot).list .envReadyQueue = [0, 1, 2] := by decide
  have isReady : state.queues.Represents .envReadyQueue [0, 1, 2] := content ▸ stands.represents _
  have proper : SchedEvent.clockInterrupt.Proper state := trivial
  obtain ⟨next, executed, after⟩ := exec_stands stands sound proper
  obtain ⟨inOrder, behind⟩ := scheduler_roundRobin reached isReady
  refine ⟨state, next, stands.curenv.trans (by decide), isReady, executed, ?_, behind _ next proper executed⟩
  apply inOrder 1 0 ⟨[0], [1, 2], rfl, by decide, by decide⟩ next
  apply Relation.ReflTransGen.single
  exact ⟨⟨_, after.represents .envReadyQueue, by decide⟩, _, proper, executed⟩

end Fos.Sched
