import Fos.Sched.SchedulerRuns

/-! What `sched_exit_env` and `sched_kill_env` do to the environment that has the id, wherever it
is, and where they go wrong. -/

set_option autoImplicit false

namespace Fos.Sched

open Foundation Queue
open Kernel (EnvStatus nenv)

variable {state next : Scheduler} {schedule change : Schedule} {env current : Slot} {queue : EnvList} {envId : Nat}

namespace Schedule

variable (schedule envId)

/-- The running environment, if it has the id. -/
def runningNamed : Option Slot := schedule.curenv.filter (schedule.hasId · envId)

/-- The environment that has the id exits, if it waits or runs. -/
def exitNamed : Schedule :=
  match schedule.runningNamed envId, schedule.find .envNewQueue envId, schedule.find .envReadyQueue envId with
  | some current, _, _ => schedule.exit current
  | none, some env, _ => schedule.move .envNewQueue .envExitQueue .exit env
  | none, none, some env => schedule.move .envReadyQueue .envExitQueue .exit env
  | none, none, none => schedule

/-- The running environment is freed. -/
def freeRunning (current : Slot) : Schedule :=
  { (schedule.setEnv current ⟨0, .free⟩).insert .envFreeList current with curenv := none }

/-- The environment that has the id is freed, wherever it is. -/
def killNamed : Schedule :=
  match schedule.runningNamed envId with
  | some current => schedule.freeRunning current
  | none => schedule.kill envId

end Schedule

/-- The program makes the change; then it returns, or the scheduler picks another environment if the
running one has the id. -/
def Scheduler.Performs (state : Scheduler) (schedule : Schedule) (envId : Nat) (program : SchedM Unit)
    (change : Schedule) : Prop :=
  wp program (fun _ next => schedule.runningNamed envId = none ∧ next.Stands change)
    (fun leave next => schedule.runningNamed envId ≠ none ∧ Left change.reschedule leave next) state

/-! ### Names -/

theorem Schedule.runningNamed_some (running : schedule.curenv = some current) (has : schedule.hasId current envId) :
    schedule.runningNamed envId = some current := by
  rw [runningNamed, running, Option.filter_some, if_pos has]

theorem Schedule.runningNamed_another (running : schedule.curenv = some current)
    (another : ¬ schedule.hasId current envId) : schedule.runningNamed envId = none := by
  rw [runningNamed, running, Option.filter_some, if_neg another]

theorem Schedule.runningNamed_idle (idle : schedule.curenv = none) : schedule.runningNamed envId = none := by
  rw [runningNamed, idle, Option.filter_none]

theorem Schedule.find_hasId (found : schedule.find queue envId = some env) : schedule.hasId env envId := by
  exact List.find?_some (p := fun env => schedule.hasId env envId) found

/-- An id that is found in a list is not the one of the running environment. -/
theorem Schedule.Sound.another_of_find (sound : schedule.Sound) (found : schedule.find queue envId = some env)
    (used : queue ≠ .envFreeList) (running : schedule.curenv = some current) : ¬ schedule.hasId current envId := by
  intro has
  have absent := sound.find_running running has used
  rw [found] at absent
  cases absent

theorem Schedule.find_none_iff : schedule.find queue envId = none ↔
    ∀ env ∈ schedule.list queue, ¬ schedule.hasId env envId := List.find?_eq_none

/-! ### Outcomes that are not the change -/

/-- A null pointer is followed. -/
theorem Scheduler.not_performs_undefined {program : SchedM Unit} {access : String}
    (fails : wp program (fun _ _ => False) (fun leave _ => leave = .undefined access) state) :
    ¬ state.Performs schedule envId program change := by
  intro performs
  cases wp_cases fails with
  | inl returned =>
      obtain ⟨_, _, -, never⟩ := returned
      exact never
  | inr left =>
      obtain ⟨leave, next, outcome, rfl⟩ := left
      rw [Performs, wp_of_error outcome] at performs
      obtain ⟨-, way | way, -⟩ := performs
      · cases way
      · cases way

/-- An environment has another status than it should. -/
theorem Scheduler.Stands.status_ne {other : Schedule} (stands : next.Stands other)
    (different : (other.envs env).envStatus ≠ (change.envs env).envStatus) : ¬ next.Stands change := by
  intro expected
  apply different
  rw [← stands.envs, expected.envs]

/-! ### The named environment exits -/

/-- The search of the new queue takes the environment out, and leaves no trace of it. -/
theorem searchNew_spec (stands : state.Stands schedule) (sound : schedule.Sound) :
    wp (searchQueue .envNewQueue envId false fun env => schedRemoveNew env)
      (fun searched next => match schedule.find .envNewQueue envId with
        | none => searched = (none, false) ∧ next.Stands schedule
        | some env => searched = (none, true) ∧ next.Stands ((schedule.remove .envNewQueue env).setStatus env .unknown))
      (fun _ _ => False) state := by
  apply searchQueue_spec (fun env => (schedule.remove .envNewQueue env).setStatus env .unknown) false stands sound
    (by decide)
  · intro env member state stands
    simp only [schedRemoveNew, schedRemove, modifyQueues, wp_bind, wp_modify]
    exact ⟨(stands.listRemove member).setStatus, by simp⟩
  · intro env member
    simp
  · intro env member other different
    simp [different]

/-- The search of the ready queue keeps the environment it takes out. -/
theorem searchReady_spec (stands : state.Stands schedule) (sound : schedule.Sound) :
    wp (searchReady envId (fun env => modifyQueues (·.listRemove .envReadyQueue env)) (none, false))
      (fun searched next => match schedule.find .envReadyQueue envId with
        | none => searched = (none, false) ∧ next.Stands schedule
        | some env => searched = (some env, true) ∧ next.Stands (schedule.remove .envReadyQueue env))
      (fun _ _ => False) state := by
  apply wp_searchReady stands
  · apply searchQueue_spec (fun env => schedule.remove .envReadyQueue env) true stands sound (by decide)
    · intro env member state stands
      simp only [modifyQueues, wp_modify]
      exact ⟨stands.listRemove member, by simp⟩
    · intro env member
      simp
    · exact fun _ _ _ _ => rfl
  · intro absent
    rw [absent]
    exact ⟨rfl, stands⟩

/-- An environment of the new queue is taken out, and is in no list then. -/
theorem schedExitEnv_new (stands : state.Stands schedule) (sound : schedule.Sound) (running : schedule.curenv = some current)
    (found : schedule.find .envNewQueue envId = some env) :
    wp (schedExitEnv envId) (fun _ next => next.Stands ((schedule.remove .envNewQueue env).setStatus env .unknown))
      (fun _ _ => False) state := by
  have another := sound.another_of_find found (by decide) running
  have different : current ≠ env := fun same => another (same ▸ schedule.find_hasId found)
  simp only [schedExitEnv, wp_bind]
  apply wp_mono_returns (searchNew_spec stands sound)
  rw [found]
  rintro _ next ⟨rfl, stands⟩
  have still : ((schedule.remove .envNewQueue env).setStatus env .unknown).hasId current envId =
      schedule.hasId current envId := by
    simp [Schedule.hasId, different]
  simp only [searchReady, searchCurenv, exitFound, schedInsertExit, schedInsert, not_true_eq_false, false_and, if_false,
    if_true, wp_bind, wp_get, wp_pure, stands.curenv, Schedule.setStatus_curenv, Schedule.remove_curenv, running,
    stands.hasId, still, another]
  exact stands

/-- An environment of the ready queue goes to the exit queue. -/
theorem schedExitEnv_ready (stands : state.Stands schedule) (sound : schedule.Sound) (running : schedule.curenv = some current)
    (isNew : schedule.find .envNewQueue envId = none) (found : schedule.find .envReadyQueue envId = some env) :
    wp (schedExitEnv envId) (fun _ next => next.Stands (schedule.move .envReadyQueue .envExitQueue .exit env))
      (fun _ _ => False) state := by
  have another := sound.another_of_find found (by decide) running
  simp only [schedExitEnv, wp_bind]
  apply wp_mono_returns (searchNew_spec stands sound)
  rw [isNew]
  rintro _ second ⟨rfl, stands⟩
  apply wp_mono_returns (searchReady_spec stands sound)
  rw [found]
  rintro _ last ⟨rfl, removed⟩
  have curenv : last.curenv = some current := removed.curenv.trans running
  have still : last.hasId current envId = schedule.hasId current envId := removed.hasId
  simp only [searchCurenv, exitFound, schedInsertExit, schedInsert, enqueue, modifyQueues, if_true, wp_bind, wp_get,
    wp_modify, wp_pure, Scheduler.editQueues_curenv, Scheduler.setStatus_curenv, Scheduler.editQueues_hasId,
    Scheduler.setStatus_hasId, curenv, still, another]
  exact removed.setStatus.insertHead (stands.unlinked (Schedule.find_mem found))

/-- Nothing happens for an id that no environment has. -/
theorem schedExitEnv_none (stands : state.Stands schedule) (running : schedule.curenv = some current)
    (another : ¬ schedule.hasId current envId) (isNew : schedule.find .envNewQueue envId = none)
    (isReady : schedule.find .envReadyQueue envId = none) :
    wp (schedExitEnv envId) (fun _ next => next.Stands schedule) (fun _ _ => False) state := by
  simp only [schedExitEnv, wp_bind]
  apply wp_mono_returns (searchQueue_none false stands isNew)
  rintro _ second ⟨rfl, stands⟩
  apply wp_mono_returns (searchReady_none stands isReady)
  rintro _ last ⟨rfl, stands⟩
  simp only [searchCurenv, if_false, wp_bind, wp_get, wp_pure, stands.curenv, running, stands.hasId, another,
    Bool.false_eq_true]
  exact stands

/-- Without a running environment a null pointer is followed, whatever was found. -/
theorem schedExitEnv_idle (stands : state.Stands schedule) (sound : schedule.Sound) (idle : schedule.curenv = none) :
    wp (schedExitEnv envId) (fun _ _ => False) (fun leave _ => leave = .undefined "curenv->env_id") state := by
  simp only [schedExitEnv, wp_bind]
  apply wp_mono_returns (searchNew_spec stands sound)
  intro searched second after
  cases isNew : schedule.find .envNewQueue envId with
  | some env =>
      rw [isNew] at after
      obtain ⟨rfl, stands⟩ := after
      simp [searchReady, searchCurenv, exitFound, schedInsertExit, schedInsert, stands.curenv, idle]
  | none =>
      rw [isNew] at after
      obtain ⟨rfl, stands⟩ := after
      apply wp_mono_returns (searchReady_spec stands sound)
      intro searched last after
      cases isReady : schedule.find .envReadyQueue envId with
      | some env =>
          rw [isReady] at after
          obtain ⟨rfl, removed⟩ := after
          simp [searchCurenv, exitFound, schedInsertExit, schedInsert, enqueue, modifyQueues, removed.curenv, idle]
      | none =>
          rw [isReady] at after
          obtain ⟨rfl, stands⟩ := after
          simp [searchCurenv, stands.curenv, idle]

/-- An environment of the new queue does not come into the exit queue. -/
theorem not_exitsNamed_of_new (stands : state.Stands schedule) (sound : schedule.Sound)
    (found : schedule.find .envNewQueue envId = some env) :
    ¬ state.Performs schedule envId (schedExitEnv envId) (schedule.exitNamed envId) := by
  cases running : schedule.curenv with
  | none => exact Scheduler.not_performs_undefined (schedExitEnv_idle stands sound running)
  | some current =>
      have isOther := schedule.runningNamed_another running (sound.another_of_find found (by decide) running)
      have expected : ((schedule.exitNamed envId).envs env).envStatus = .exit := by
        simp [Schedule.exitNamed, isOther, found, Schedule.move]
      intro performs
      cases wp_cases (schedExitEnv_new stands sound running found) with
      | inr failed =>
          obtain ⟨_, _, -, never⟩ := failed
          exact never
      | inl returned =>
          obtain ⟨⟨⟩, next, outcome, lost⟩ := returned
          rw [Scheduler.Performs, wp_of_ok outcome] at performs
          apply lost.status_ne _ performs.2
          · exact env
          · rw [expected]
            simp

/-- The named environment, and no other one, exits exactly if some environment runs and the named one
is not in the new queue. -/
theorem exitsNamed_iff (stands : state.Stands schedule) (sound : schedule.Sound) (envId : Nat) :
    state.Performs schedule envId (schedExitEnv envId) (schedule.exitNamed envId) ↔
      state.curenv ≠ none ∧ ∀ env ∈ schedule.list .envNewQueue, ¬ schedule.hasId env envId := by
  rw [stands.curenv]
  constructor
  · intro performs
    refine ⟨fun idle => ?_, fun env member has => ?_⟩
    · exact Scheduler.not_performs_undefined (schedExitEnv_idle stands sound idle) performs
    · cases found : schedule.find .envNewQueue envId with
      | none => exact Schedule.find_none_iff.1 found env member has
      | some first => exact not_exitsNamed_of_new stands sound found performs
  · rintro ⟨runs, absent⟩
    obtain ⟨current, running⟩ := Option.ne_none_iff_exists'.1 runs
    have isNew := Schedule.find_none_iff.2 absent
    cases has : schedule.hasId current envId with
    | true =>
        have named := schedule.runningNamed_some running has
        rw [Schedule.exitNamed, named]
        apply wp_mono_fails (schedExitEnv_running stands sound running has)
        exact fun _ _ left => ⟨named ▸ Option.some_ne_none _, left⟩
    | false =>
        have another : ¬ schedule.hasId current envId := by simp [has]
        have isOther := schedule.runningNamed_another running another
        cases isReady : schedule.find .envReadyQueue envId with
        | some env =>
            rw [Schedule.exitNamed, isOther, isNew, isReady]
            apply wp_mono_returns (schedExitEnv_ready stands sound running isNew isReady)
            exact fun _ _ after => ⟨isOther, after⟩
        | none =>
            rw [Schedule.exitNamed, isOther, isNew, isReady]
            apply wp_mono_returns (schedExitEnv_none stands running another isNew isReady)
            exact fun _ _ after => ⟨isOther, after⟩

private def newFifth : List SchedEvent := fourReady ++ [.create true]

private theorem newFifth_proper (state : Scheduler) : ∀ event ∈ newFifth, event.Proper state := by
  simp [newFifth, fourReady, SchedEvent.Proper]

/-- The first of four environments exits from the ready queue. -/
theorem exitsNamed_iff_ready : ∃ (state : Scheduler) (schedule : Schedule), state.Stands schedule ∧ schedule.Sound ∧
    schedule.find .envReadyQueue 0x1000 = some 0 ∧
    state.Performs schedule 0x1000 (schedExitEnv 0x1000) (schedule.exitNamed 0x1000) := by
  obtain ⟨state, -, stands, sound⟩ := booted_run newFifth newFifth_proper
  refine ⟨state, _, stands, sound, by decide, (exitsNamed_iff stands sound 0x1000).2 ⟨?_, by decide⟩⟩
  rw [stands.curenv]
  decide

/-- The fifth environment is in the new queue, and does not come into the exit queue. -/
theorem not_exitsNamed : ∃ (state : Scheduler) (schedule : Schedule), state.Stands schedule ∧ schedule.Sound ∧
    schedule.curenv = some 3 ∧ schedule.list .envNewQueue = [4] ∧ schedule.hasId 4 0x1004 ∧
    ¬ state.Performs schedule 0x1004 (schedExitEnv 0x1004) (schedule.exitNamed 0x1004) := by
  obtain ⟨state, -, stands, sound⟩ := booted_run newFifth newFifth_proper
  have found : (newFifth.foldl Schedule.after Schedule.boot).find .envNewQueue 0x1004 = some 4 := by decide
  exact ⟨state, _, stands, sound, by decide, by decide, by decide, not_exitsNamed_of_new stands sound found⟩

/-! ### The named environment is killed -/

theorem Schedule.Sound.freeRunning (sound : schedule.Sound) (running : schedule.curenv = some current) :
    (schedule.freeRunning current).Sound := sound.leave running rfl rfl

/-- A panic makes the running environment exit, or wait. -/
theorem schedPanic_keeps (stands : state.Stands schedule) (sound : schedule.Sound) (running : schedule.curenv = some current) :
    wp schedPanic (fun _ _ => False)
      (fun leave next => ∃ other : Schedule, (other.envs current).envStatus ≠ .free ∧ Left other leave next) state := by
  simp only [schedPanic, wp_bind, wp_get, stands.curenv, running, wp_ite, stands.envs]
  constructor
  · intro _
    apply wp_mono_fails (envExit_spec stands sound running)
    intro leave next left
    refine ⟨_, fun isFree => ?_, left⟩
    rw [(sound.exit running).reschedule_free] at isFree
    simp [Schedule.exit] at isFree
  · intro _
    apply wp_mono_fails (fosScheduler_spec stands sound)
    intro leave next left
    refine ⟨_, fun isFree => ?_, left⟩
    rw [sound.reschedule_free] at isFree
    exact sound.used_running running isFree

/-- The assertion about the running environment compares its id with a status, which no id is. -/
theorem killCurenv_keeps (stands : state.Stands schedule) (sound : schedule.Sound) (running : schedule.curenv = some current)
    (has : schedule.hasId current envId) :
    wp (killCurenv envId) (fun _ _ => False)
      (fun leave next => ∃ other : Schedule, (other.envs current).envStatus ≠ .free ∧ Left other leave next) state := by
  have identified := sound.identified current
  rw [SchedEnv.Identified, if_neg (sound.used_running running)] at identified
  have notStatus : (schedule.envs current).envId ≠ 2 := by omega
  simp only [killCurenv, wp_bind, wp_get, stands.curenv, running, stands.hasId, has, if_true, stands.envs, ne_eq, notStatus,
    not_false_eq_true]
  exact wp_mono_fails (schedPanic_keeps stands sound running) fun _ _ kept => kept

/-- The running environment is not freed. -/
theorem not_killsNamed_of_running (stands : state.Stands schedule) (sound : schedule.Sound)
    (running : schedule.curenv = some current) (has : schedule.hasId current envId) :
    ¬ state.Performs schedule envId (schedKillEnv envId) (schedule.killNamed envId) := by
  have kept : wp (schedKillEnv envId) (fun _ _ => False)
      (fun leave next => ∃ other : Schedule, (other.envs current).envStatus ≠ .free ∧ Left other leave next) state := by
    apply wp_schedKillEnv stands sound
    · intro queue used env found
      exact absurd has (sound.another_of_find found used running)
    · exact fun _ next stands => killCurenv_keeps stands sound running has
  intro performs
  cases wp_cases kept with
  | inl returned =>
      obtain ⟨_, _, -, never⟩ := returned
      exact never
  | inr left =>
      obtain ⟨leave, next, outcome, other, notFree, -, stands⟩ := left
      rw [Scheduler.Performs, wp_of_error outcome] at performs
      obtain ⟨-, -, expected⟩ := performs
      rw [Schedule.killNamed, schedule.runningNamed_some running has] at expected
      apply notFree
      rw [← stands.envs, expected.envs, (sound.freeRunning running).reschedule_free]
      simp [Schedule.freeRunning]

/-- Without a running environment a null pointer is followed when the id is in no list. -/
theorem schedKillEnv_idle (stands : state.Stands schedule) (sound : schedule.Sound) (idle : schedule.curenv = none)
    (absent : ∀ queue, queue ≠ .envFreeList → schedule.find queue envId = none) :
    wp (schedKillEnv envId) (fun _ _ => False) (fun leave _ => leave = .undefined "curenv->env_id") state := by
  apply wp_schedKillEnv stands sound
  · intro queue used env found
    rw [absent queue used] at found
    cases found
  · intro _ next stands
    simp only [killCurenv, wp_bind, wp_get, stands.curenv, idle, wp_throw]

/-- The named environment, and no other one, is freed exactly if it is in a list or some other
environment runs. -/
theorem killsNamed_iff (stands : state.Stands schedule) (sound : schedule.Sound) (envId : Nat) :
    state.Performs schedule envId (schedKillEnv envId) (schedule.killNamed envId) ↔
      (∃ queue, queue ≠ .envFreeList ∧ ∃ env ∈ schedule.list queue, schedule.hasId env envId) ∨
        ∃ current, state.curenv = some current ∧ ¬ schedule.hasId current envId := by
  rw [stands.curenv]
  constructor
  · intro performs
    by_contra neither
    obtain ⟨inNone, runs⟩ := not_or.1 neither
    have absent (queue : EnvList) (used : queue ≠ .envFreeList) : schedule.find queue envId = none :=
      Schedule.find_none_iff.2 fun env member has => inNone ⟨queue, used, env, member, has⟩
    cases running : schedule.curenv with
    | none => exact Scheduler.not_performs_undefined (schedKillEnv_idle stands sound running absent) performs
    | some current =>
        have has := not_not.1 fun another => runs ⟨current, running, another⟩
        exact not_killsNamed_of_running stands sound running has performs
  · intro condition
    have isOther : schedule.runningNamed envId = none := by
      cases running : schedule.curenv with
      | none => exact schedule.runningNamed_idle running
      | some current =>
          apply schedule.runningNamed_another running
          intro has
          obtain ⟨queue, used, env, member, envHas⟩ | ⟨other, same, another⟩ := condition
          · exact Schedule.find_none_iff.1 (sound.find_running running has used) env member envHas
          · cases running.symm.trans same
            exact another has
    rw [Schedule.killNamed, isOther]
    apply wp_schedKillEnv stands sound
    · exact fun _ _ _ _ next after => ⟨isOther, after⟩
    · intro absent next after
      obtain ⟨queue, used, env, member, has⟩ | ⟨current, running, another⟩ := condition
      · exact absurd has (Schedule.find_none_iff.1 (absent queue used) env member)
      · simp only [killCurenv, wp_bind, wp_get, after.curenv, running, after.hasId, another, Schedule.kill_none absent]
        exact ⟨isOther, after⟩

/-- The fifth environment is killed in the new queue. -/
theorem killsNamed_iff_new : ∃ (state : Scheduler) (schedule : Schedule), state.Stands schedule ∧ schedule.Sound ∧
    schedule.list .envNewQueue = [4] ∧
    state.Performs schedule 0x1004 (schedKillEnv 0x1004) (schedule.killNamed 0x1004) := by
  obtain ⟨state, -, stands, sound⟩ := booted_run newFifth newFifth_proper
  refine ⟨state, _, stands, sound, by decide, (killsNamed_iff stands sound 0x1004).2 (.inl ?_)⟩
  exact ⟨.envNewQueue, by decide, 4, by decide, by decide⟩

/-- The running environment is named, and is not freed. -/
theorem not_killsNamed : ∃ (state : Scheduler) (schedule : Schedule), state.Stands schedule ∧ schedule.Sound ∧
    schedule.curenv = some 3 ∧ schedule.hasId 3 0x1003 ∧
    ¬ state.Performs schedule 0x1003 (schedKillEnv 0x1003) (schedule.killNamed 0x1003) := by
  obtain ⟨state, -, stands, sound⟩ := booted_run fourReady fourReady_proper
  have running : (fourReady.foldl Schedule.after Schedule.boot).curenv = some 3 := by decide
  have has : (fourReady.foldl Schedule.after Schedule.boot).hasId 3 0x1003 := by decide
  exact ⟨state, _, stands, sound, running, has, not_killsNamed_of_running stands sound running has⟩

end Fos.Sched
