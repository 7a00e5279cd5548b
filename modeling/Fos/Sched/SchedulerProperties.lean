import Fos.Sched.RoundRobin

/-! The scheduler over links does what the one over sequences does. -/

set_option autoImplicit false

namespace Fos.Sched

open Foundation Queue
open Kernel (EnvStatus nenv)

variable {state next : Scheduler} {schedule : Schedule} {env : Slot} {queue source target : EnvList} {value : SchedEnv}
  {status : EnvStatus} {envId : Nat}

/-- The lists in memory are these sequences, and the rest is the same. -/
structure Scheduler.Stands (state : Scheduler) (schedule : Schedule) : Prop where
  lists : state.queues.Holding schedule.list
  envs : state.envs = schedule.envs
  curenv : state.curenv = schedule.curenv
  schedulerStatus : state.schedulerStatus = schedule.schedulerStatus

namespace Scheduler.Stands

variable (stands : state.Stands schedule)
include stands

theorem insertHead (unlinked : ∀ queue, env ∉ schedule.list queue) :
    (state.editQueues (·.listInsertHead queue env)).Stands (schedule.insert queue env) :=
  ⟨stands.lists.insertHead _ unlinked, stands.envs, stands.curenv, stands.schedulerStatus⟩

theorem listRemove (member : env ∈ schedule.list queue) :
    (state.editQueues (·.listRemove queue env)).Stands (schedule.remove queue env) :=
  ⟨stands.lists.remove member, stands.envs, stands.curenv, stands.schedulerStatus⟩

theorem setEnv : (state.setEnv env value).Stands (schedule.setEnv env value) :=
  ⟨stands.lists, congrArg (fun envs : Slot → SchedEnv => Function.update envs env value) stands.envs, stands.curenv,
      stands.schedulerStatus⟩

theorem setStatus : (state.setStatus env status).Stands (schedule.setStatus env status) := by
  rw [Scheduler.setStatus, stands.envs]
  exact stands.setEnv

theorem setCurenv (current : Option Slot) :
    { state with curenv := current }.Stands { schedule with curenv := current } :=
  ⟨stands.lists, stands.envs, rfl, stands.schedulerStatus⟩

theorem setPtrNext (saved : Option Slot) : (state.editQueues (·.setPtrNext queue saved)).Stands schedule :=
  ⟨stands.lists.setPtrNext saved, stands.envs, stands.curenv, stands.schedulerStatus⟩

theorem hasId : state.hasId env envId = schedule.hasId env envId := by
  rw [Scheduler.hasId, Schedule.hasId, stands.envs]

theorem first (queue : EnvList) : state.queues.first queue = (schedule.list queue).head? := (stands.lists.holds queue).first

/-- An environment that was taken out of its list is in none. -/
theorem unlinked (member : env ∈ schedule.list source) : ∀ queue, env ∉ (schedule.remove source env).list queue := by
  intro queue inQueue
  obtain ⟨stays, elsewhere⟩ := (Schedule.mem_remove (stands.lists.nodup source)).1 inQueue
  cases decEq queue source with
  | isTrue same => exact elsewhere ⟨same, rfl⟩
  | isFalse different => exact stands.lists.apart (Ne.symm different) member stays

/-- From one list to another. -/
theorem transfer (member : env ∈ schedule.list source) {next : Scheduler}
    (queues : next.queues = (state.queues.listRemove source env).listInsertHead target env)
    (envs : next.envs = Function.update state.envs env value) (curenv : next.curenv = state.curenv)
    (status : next.schedulerStatus = state.schedulerStatus) :
    next.Stands (schedule.transfer source target value env) where
  lists := queues ▸ (stands.lists.remove member).insertHead _ (stands.unlinked member)
  envs := envs.trans (congrArg (fun envs => Function.update envs env value) stands.envs)
  curenv := curenv.trans stands.curenv
  schedulerStatus := status.trans stands.schedulerStatus

/-- From a list to the free list, with zeros written over the links. -/
theorem free (member : env ∈ schedule.list source) {next : Scheduler}
    (queues : next.queues = ((state.queues.listRemove source env).clearLinks env).listInsertHead .envFreeList env)
    (envs : next.envs = Function.update state.envs env ⟨0, .free⟩) (curenv : next.curenv = state.curenv)
    (status : next.schedulerStatus = state.schedulerStatus) :
    next.Stands (schedule.free source env) where
  lists := queues ▸ ((stands.lists.remove member).clearLinks (stands.unlinked member)).insertHead _
    (stands.unlinked member)
  envs := envs.trans (congrArg (fun envs : Slot → SchedEnv => Function.update envs env _) stands.envs)
  curenv := curenv.trans stands.curenv
  schedulerStatus := status.trans stands.schedulerStatus

end Scheduler.Stands

/-! ### Rescheduling -/

/-- Control has left the kernel code, in the state given. -/
def Left (schedule : Schedule) (leave : Leave) (next : Scheduler) : Prop :=
  (leave = .envRun ∨ leave = .commandPrompt) ∧ next.Stands schedule

/-- `fos_scheduler` from the point where the running environment, if any, is in the ready queue. -/
private theorem dispatch_spec (lists : state.queues.Holding schedule.list) (envs : state.envs = schedule.envs)
    (idle : schedule.curenv = none) (started : state.schedulerStatus = .started) :
    wp (do
        match ← dequeue .envReadyQueue with
        | some nextEnv => envRun nextEnv
        | none =>
            modify fun state => { state with curenv := none, schedulerStatus := .stopped }
            throw .commandPrompt)
      (fun _ _ => False) (Left schedule.dispatch) state := by
  simp only [dequeue, wp_bind, wp_get, (lists.holds .envReadyQueue).last]
  cases waits : (schedule.list .envReadyQueue).getLast? with
  | none =>
      simp only [wp_pure, wp_bind, wp_modify, wp_throw, Schedule.dispatch, waits]
      exact ⟨.inr rfl, lists, envs, idle.symm, rfl⟩
  | some nextEnv =>
      have removed := lists.remove (List.mem_of_getLast? waits)
      have ran : (state.setStatus nextEnv .runnable).envs = (schedule.setStatus nextEnv .runnable).envs := by
        rw [Scheduler.setStatus, envs]
        exact congrArg (fun envs : Slot → SchedEnv => Function.update envs nextEnv _) envs
      simp only [modifyQueues, envRun, wp_bind, wp_modify, wp_pure, wp_get, wp_throw, wp_ite, Schedule.dispatch, waits]
      constructor
      · exact fun _ => ⟨.inl rfl, removed, ran, rfl, started⟩
      · exact fun same => ⟨.inl rfl, removed, ran, not_not.1 same, started⟩

/-- `fos_scheduler` does not return. -/
theorem fosScheduler_spec (stands : state.Stands schedule) (sound : schedule.Sound) :
    wp fosScheduler (fun _ _ => False) (Left schedule.reschedule) state := by
  have preempted : schedule.preempt.curenv = none := Schedule.preempt_curenv
  simp only [fosScheduler, wp_bind, wp_modify, wp_get, stands.curenv, Schedule.reschedule]
  cases running : schedule.curenv with
  | none =>
      rw [Schedule.preempt, running] at preempted ⊢
      simp only [ne_eq, not_true_eq_false, if_false]
      exact dispatch_spec stands.lists stands.envs preempted rfl
  | some current =>
      rw [Schedule.preempt, running] at preempted ⊢
      simp only [ne_eq, reduceCtorEq, not_false_eq_true, if_true, enqueue, modifyQueues]
      rw [wp_bind, wp_modify]
      exact dispatch_spec (stands.lists.insertHead _ (sound.notRunning running)) stands.envs preempted rfl

theorem invokeIfStopped_spec (stands : state.Stands schedule) (sound : schedule.Sound) :
    wp invokeIfStopped (fun _ next => next.Stands schedule.startIfStopped) (Left schedule.startIfStopped) state := by
  simp only [invokeIfStopped, wp_bind, wp_get, wp_ite, stands.schedulerStatus, Schedule.startIfStopped]
  constructor
  · intro stopped
    rw [if_pos stopped]
    exact wp_mono_fails (fosScheduler_spec stands sound) fun _ _ left => left
  · intro running
    rw [if_neg running]
    exact stands

/-! ### Loops -/

section Loops

variable {Local : Type} {locals : Local} {body : Slot → Local → SchedM (ForInStep Local)}
  {post : Option Slot × Local → Scheduler → Prop} {fail : Leave → Scheduler → Prop}

/-- The body visits the environments that are still to come, and may take the one it visits out of
the list. -/
theorem wp_foreachEnv (invariant : List Slot → Local → Schedule → Prop) (stands : state.Stands schedule)
    (initially : invariant (schedule.list queue) locals schedule)
    (visit : ∀ front env rest locals (state : Scheduler) schedule, state.Stands schedule →
      schedule.list queue = front ++ env :: rest → invariant (env :: rest) locals schedule →
      wp (body env locals) (fun step next => match step with
        | .done locals => post (some env, locals) next
        | .yield locals => (∃ schedule front, next.Stands schedule ∧ schedule.list queue = front ++ rest ∧
            invariant rest locals schedule) ∧ (next.queues.heads queue).ptrNext = (state.queues.heads queue).ptrNext)
        fail state)
    (ends : ∀ locals (state : Scheduler) schedule, state.Stands schedule → invariant [] locals schedule →
      post (none, locals) state) :
    wp (foreachEnv queue locals body) post fail state := by
  simp only [foreachEnv, wp_bind, wp_get, stands.first]
  let remaining : List Slot → Local → Scheduler → Prop := fun rest locals state => ∃ schedule front,
    state.Stands schedule ∧ schedule.list queue = front ++ rest ∧ invariant rest locals schedule
  apply wp_listForeach remaining
  · exact fun _ _ => rfl
  · rintro env rest locals state ⟨schedule, front, stands, content, -⟩
    exact stands.lists.next_eq content
  · rintro rest locals state saved ⟨schedule, front, stands, content, holds⟩
    exact ⟨schedule, front, stands.setPtrNext saved, content, holds⟩
  · rintro env rest locals state ⟨schedule, front, stands, content, holds⟩ saved
    apply wp_mono (visit front env rest locals state schedule stands content holds) _ fun _ _ failed => failed
    intro step next after
    cases step with
    | done locals => exact after
    | yield locals => exact ⟨after.1, after.2.trans saved⟩
  · rintro locals state ⟨schedule, front, stands, -, holds⟩
    exact ends locals state schedule stands holds
  · have bound := (stands.lists.nodup queue).length_le_card
    rw [Fintype.card_fin] at bound
    exact Nat.lt_succ_of_le bound
  · exact ⟨schedule, [], stands, rfl, initially⟩

/-- A loop that empties the list it goes through. -/
theorem wp_foreachEnv_all {body : Slot → Unit → SchedM (ForInStep Unit)} (step : Schedule → Slot → Schedule)
    (stands : state.Stands schedule)
    (takes : ∀ (schedule : Schedule) env rest, schedule.list queue = env :: rest →
      (step schedule env).list queue = rest)
    (visit : ∀ env (state : Scheduler) schedule, state.Stands schedule → env ∈ schedule.list queue →
      wp (body env ()) (fun result next => result = .yield () ∧ next.Stands (step schedule env) ∧
        (next.queues.heads queue).ptrNext = (state.queues.heads queue).ptrNext) (fun _ _ => False) state) :
    wp (foreachEnv queue () body) (fun _ next => next.Stands ((schedule.list queue).foldl step schedule))
      (fun _ _ => False) state := by
  apply wp_foreachEnv (fun rest _ middle => middle.list queue = rest ∧
    rest.foldl step middle = (schedule.list queue).foldl step schedule) stands
  · exact ⟨rfl, rfl⟩
  · rintro front env rest ⟨⟩ state middle stands - ⟨content, result⟩
    have member : env ∈ middle.list queue := content ▸ List.mem_cons_self ..
    apply wp_mono (visit env state middle stands member) _ fun _ _ failed => failed
    rintro _ next ⟨rfl, after, saved⟩
    have rest := takes middle env rest content
    exact ⟨⟨step middle env, [], after, rest, rest, result⟩, saved⟩
  · rintro ⟨⟩ state middle stands ⟨-, result⟩
    rw [← result]
    exact stands

end Loops

/-! ### Operations that come back -/

theorem schedNewEnv_create_spec (stands : state.Stands schedule) (known : Bool) :
    wp (do schedNewEnv (← createEnv known)) (fun _ next => next.Stands (schedule.create known)) (fun _ _ => False)
      state := by
  cases known with
  | false => exact stands
  | true =>
      simp only [createEnv, if_true, allocateEnv, wp_bind, wp_get, stands.first, Schedule.create]
      cases isFree : schedule.list .envFreeList with
      | nil => exact stands
      | cons env rest =>
          have member : env ∈ schedule.list .envFreeList := isFree ▸ List.mem_cons_self ..
          simp only [List.head?_cons, completeEnv, schedNewEnv, schedInsertNew, schedInsert, enqueue, modifyQueues,
            wp_bind, wp_get, wp_modify, wp_pure]
          refine stands.transfer member rfl ?_ rfl rfl
          simp [Schedule.nextId, stands.envs]

set_option linter.unusedSimpArgs false in
/-- The loop of `sched_run_all`. -/
theorem readyAll_spec (stands : state.Stands schedule) :
    wp (foreachEnv .envNewQueue () fun env _ => do
        schedRemoveNew env
        schedInsertReady env
        return .yield ())
      (fun _ next => next.Stands (schedule.moveAll .envNewQueue .envReadyQueue .ready)) (fun _ _ => False) state := by
  apply wp_foreachEnv_all _ stands
  · exact fun _ _ _ content => Schedule.transfer_source (by decide) content
  · intro env state schedule stands member
    simp only [schedRemoveNew, schedRemove, schedInsertReady, schedInsert, enqueue, modifyQueues, wp_bind, wp_modify,
      wp_pure, true_and]
    refine ⟨stands.transfer member rfl ?_ rfl rfl, ?_⟩ <;>
      simp [stands.envs]

theorem schedRunAll_spec (stands : state.Stands schedule) (sound : schedule.Sound) :
    wp schedRunAll (fun _ next => next.Stands (schedule.after .runAll)) (Left (schedule.after .runAll)) state := by
  have moved := sound.moveAll (by decide) Schedule.ready_fits (by decide : EnvList.envNewQueue ≠ .envFreeList) (by decide)
  simp only [schedRunAll, wp_bind]
  apply wp_mono_returns (readyAll_spec stands)
  exact fun _ next after => invokeIfStopped_spec after moved

set_option linter.unusedSimpArgs false in
theorem schedExitAllReadyEnvs_spec (stands : state.Stands schedule) :
    wp schedExitAllReadyEnvs (fun _ next => next.Stands (schedule.after .exitAllReadyEnvs)) (fun _ _ => False)
      state := by
  simp only [schedExitAllReadyEnvs, wp_bind, wp_get, stands.first, wp_ite]
  constructor
  · intro some
    apply wp_foreachEnv_all _ stands
    · exact fun _ _ _ content => Schedule.transfer_source (by decide) content
    · intro env state schedule stands member
      simp only [schedInsertExit, schedInsert, enqueue, modifyQueues, wp_bind, wp_modify, wp_pure, true_and]
      refine ⟨stands.transfer member rfl ?_ rfl rfl, ?_⟩ <;>
        simp [stands.envs]
  · intro none
    have empty : schedule.list .envReadyQueue = [] := List.head?_eq_none_iff.1 (not_not.1 none)
    have same : schedule.after .exitAllReadyEnvs = schedule := by
      simp only [Schedule.after, Schedule.moveAll, empty, List.foldl_nil]
    rw [same]
    exact stands

/-- Taking an environment out of a list, before it is freed. -/
def TakesOut (queue : EnvList) (remove : Slot → SchedM Unit) : Prop :=
  ∀ env state, wp (remove env) (fun _ next => next.queues = state.queues.listRemove queue env ∧
    (∀ other, other ≠ env → next.envs other = state.envs other) ∧ next.curenv = state.curenv ∧
    next.schedulerStatus = state.schedulerStatus) (fun _ _ => False) state

theorem schedRemove_takesOut (queue : EnvList) : TakesOut queue fun env => schedRemove queue env := by
  intro env state
  simp only [schedRemove, modifyQueues, wp_bind, wp_modify]
  refine ⟨rfl, fun other different => ?_, rfl, rfl⟩
  simp [different]

theorem listRemove_takesOut (queue : EnvList) :
    TakesOut queue fun env => modifyQueues (·.listRemove queue env) := by
  intro env state
  simp only [modifyQueues, wp_modify]
  exact ⟨rfl, fun _ _ => rfl, rfl, rfl⟩

/-- Taking an environment out of its list and freeing it. -/
theorem TakesOut.free {remove : Slot → SchedM Unit} (takesOut : TakesOut queue remove) (stands : state.Stands schedule)
    (member : env ∈ schedule.list queue) :
    wp (do
        remove env
        startEnvFree env)
      (fun _ next => next.Stands (schedule.free queue env) ∧
        (next.queues.heads queue).ptrNext = (state.queues.heads queue).ptrNext) (fun _ _ => False) state := by
  rw [wp_bind]
  apply wp_mono (takesOut env state) _ fun _ _ failed => failed
  rintro _ middle ⟨queues, others, curenv, status⟩
  simp only [startEnvFree, freeEnvironment, modifyQueues, wp_bind, wp_modify]
  refine ⟨stands.free member ?_ ?_ curenv status, ?_⟩
  · simp [queues]
  · funext other
    cases decEq other env with
    | isTrue same =>
        subst same
        simp
    | isFalse different => simp [different, others]
  · simp [queues, Memory.clearLinks]

theorem killQueue_spec {remove : Slot → SchedM Unit} (takesOut : TakesOut queue remove) (stands : state.Stands schedule)
    (used : queue ≠ .envFreeList) :
    wp (killQueue queue remove) (fun _ next => next.Stands (schedule.freeAll queue)) (fun _ _ => False) state := by
  simp only [killQueue, wp_bind, wp_get, stands.first, wp_ite]
  constructor
  · intro some
    apply wp_foreachEnv_all _ stands
    · exact fun _ _ _ content => Schedule.transfer_source used content
    · intro env state schedule stands member
      have freed := takesOut.free stands member
      rw [wp_bind] at freed
      simp only [wp_bind, wp_pure, true_and]
      exact freed
  · intro none
    have empty : schedule.list queue = [] := List.head?_eq_none_iff.1 (not_not.1 none)
    have same : schedule.freeAll queue = schedule := by simp only [Schedule.freeAll, empty, List.foldl_nil]
    rw [same]
    exact stands

theorem schedKillAll_spec (stands : state.Stands schedule) (sound : schedule.Sound) (prompt : schedule.curenv = none) :
    wp schedKillAll (fun _ _ => False) (Left (schedule.after .killAll)) state := by
  have freed := ((sound.freeAll (by decide : EnvList.envNewQueue ≠ _)).freeAll
    (by decide : EnvList.envReadyQueue ≠ _)).freeAll (by decide : EnvList.envExitQueue ≠ _)
  simp only [schedKillAll, wp_bind]
  apply wp_mono_returns (killQueue_spec (schedRemove_takesOut _) stands (by decide))
  intro _ second stands
  apply wp_mono_returns (killQueue_spec (listRemove_takesOut _) stands (by decide))
  intro _ third stands
  apply wp_mono_returns (killQueue_spec (schedRemove_takesOut _) stands (by decide))
  intro _ last stands
  rw [wp_modify]
  apply fosScheduler_spec _ freed
  have idle := stands.setCurenv none
  have same : ∀ {schedule : Schedule}, schedule.curenv = none → { schedule with curenv := none } = schedule := by
    rintro ⟨list, envs, curenv, status⟩ rfl
    rfl
  rwa [same] at idle
  rw [Schedule.freeAll_curenv, Schedule.freeAll_curenv, Schedule.freeAll_curenv, prompt]

/-! ### Searches -/

/-- A search of a list of environments that are not free. -/
theorem searchQueue_spec {take : Slot → SchedM Unit} (effect : Slot → Schedule) (breaks : Bool)
    (stands : state.Stands schedule) (sound : schedule.Sound) (used : queue ≠ .envFreeList)
    (takes : ∀ env ∈ schedule.list queue, ∀ state : Scheduler, state.Stands schedule →
      wp (take env) (fun _ next => next.Stands (effect env) ∧
        (next.queues.heads queue).ptrNext = (state.queues.heads queue).ptrNext) (fun _ _ => False) state)
    (leaves : ∀ env ∈ schedule.list queue, (effect env).list queue = (schedule.list queue).erase env)
    (others : ∀ env ∈ schedule.list queue, ∀ other, other ≠ env → (effect env).envs other = schedule.envs other) :
    wp (searchQueue queue envId breaks take) (fun result next => match schedule.find queue envId with
      | none => result = (none, false) ∧ next.Stands schedule
      | some env => result = (if breaks then some env else none, true) ∧ next.Stands (effect env))
      (fun _ _ => False) state := by
  -- Either nothing was found so far, or one environment, and no other one can have the id.
  apply wp_foreachEnv (fun rest found middle =>
    (found = false ∧ middle = schedule ∧ rest.find? (schedule.hasId · envId) = schedule.find queue envId) ∨
      (found = true ∧ breaks = false ∧ ∃ env ∈ schedule.list queue, schedule.find queue envId = some env ∧
        middle = effect env ∧ ∀ other ∈ rest, other ≠ env ∧ schedule.hasId other envId = false)) stands
  · exact .inl ⟨rfl, rfl, rfl⟩
  · rintro front env rest found state middle inLoop content (⟨rfl, rfl, remains⟩ | ⟨rfl, walks, last, inQueue, found, rfl, apart⟩)
    · have member : env ∈ middle.list queue := content ▸ List.mem_append_right _ (List.mem_cons_self ..)
      simp only [wp_bind, wp_get, wp_ite, inLoop.hasId]
      constructor
      · intro has
        have found : middle.find queue envId = some env := by
          rw [← remains, List.find?_cons_of_pos (by exact has)]
        apply wp_mono (takes env member state inLoop) _ fun _ _ failed => failed
        rintro _ next ⟨after, saved⟩
        rw [wp_pure]
        cases breaks with
        | true => simpa [found] using after
        | false =>
            have nodup := inLoop.lists.nodup queue
            rw [content] at nodup
            have notFront := (List.nodup_middle.1 nodup)
            rw [List.nodup_cons, List.mem_append, not_or] at notFront
            refine ⟨⟨effect env, front, after, ?_, .inr ⟨rfl, rfl, env, member, found, rfl, fun other inRest => ?_⟩⟩, saved⟩
            · rw [leaves env member, content, erase_append notFront.1.1]
            · have different : other ≠ env := fun same => notFront.1.2 (same ▸ inRest)
              have otherMember : other ∈ middle.list queue :=
                content ▸ List.mem_append_right _ (List.mem_cons_of_mem _ inRest)
              refine ⟨different, ?_⟩
              by_contra otherHas
              exact different (sound.unique (sound.used otherMember used) (sound.used member used)
                (Bool.not_eq_false _ ▸ otherHas) has)
      · intro hasNot
        rw [wp_pure]
        refine ⟨⟨middle, front ++ [env], inLoop, by rw [content, List.append_assoc]; rfl, .inl ⟨rfl, rfl, ?_⟩⟩, rfl⟩
        rw [← remains, List.find?_cons_of_neg (by exact hasNot)]
    · obtain ⟨different, hasNot⟩ := apart env (List.mem_cons_self ..)
      have same : (effect last).hasId env envId = false := by
        rw [Schedule.hasId, others last inQueue env different]
        exact hasNot
      simp only [wp_bind, wp_get, inLoop.hasId, same, Bool.false_eq_true, if_false, wp_pure]
      exact ⟨⟨effect last, front ++ [env], inLoop, by rw [content, List.append_assoc]; rfl, .inr ⟨trivial, walks, last, inQueue,
        found, rfl, fun other member => apart other (List.mem_cons_of_mem _ member)⟩⟩, trivial⟩
  · rintro found state middle inLoop (⟨rfl, rfl, remains⟩ | ⟨rfl, rfl, last, -, found, rfl, -⟩)
    · rw [← remains]
      exact ⟨rfl, inLoop⟩
    · rw [found]
      exact ⟨rfl, inLoop⟩

/-- A search for an id that no environment of the list has. -/
theorem searchQueue_none {take : Slot → SchedM Unit} (breaks : Bool) (stands : state.Stands schedule)
    (absent : schedule.find queue envId = none) :
    wp (searchQueue queue envId breaks take) (fun result next => result = (none, false) ∧ next.Stands schedule)
      (fun _ _ => False) state := by
  have lacks (env : Slot) (member : env ∈ schedule.list queue) : ¬ schedule.hasId env envId = true :=
    List.find?_eq_none.1 absent env member
  apply wp_foreachEnv (fun _ found middle => found = false ∧ middle = schedule) stands
  · exact ⟨rfl, rfl⟩
  · rintro front env rest found state middle inLoop content ⟨rfl, rfl⟩
    have hasNot := lacks env (content ▸ List.mem_append_right _ (List.mem_cons_self ..))
    simp only [wp_bind, wp_get, inLoop.hasId, hasNot]
    exact ⟨⟨middle, front ++ [env], inLoop, by rw [content, List.append_assoc]; rfl, rfl, rfl⟩, rfl⟩
  · rintro found state middle inLoop ⟨rfl, rfl⟩
    exact ⟨rfl, inLoop⟩

theorem schedRunEnv_spec (stands : state.Stands schedule) (sound : schedule.Sound) (envId : Nat) :
    wp (schedRunEnv envId) (fun _ next => next.Stands (schedule.run envId)) (Left (schedule.run envId)) state := by
  simp only [schedRunEnv, wp_bind]
  apply wp_foreachEnv (fun rest _ middle => middle = schedule ∧
    rest.find? (schedule.hasId · envId) = schedule.find .envNewQueue envId) stands
  · exact ⟨rfl, rfl⟩
  · rintro front env rest ⟨⟩ state middle inLoop content ⟨rfl, remains⟩
    have member : env ∈ middle.list .envNewQueue := content ▸ List.mem_append_right _ (List.mem_cons_self ..)
    simp only [wp_bind, wp_get, wp_ite, inLoop.hasId]
    constructor
    · intro has
      have found : middle.find .envNewQueue envId = some env := by
        rw [← remains, List.find?_cons_of_pos (by exact has)]
      have moved := sound.move member Schedule.ready_fits (sound.used member (by decide)) (by decide)
      simp only [Schedule.run, found, schedRemoveNew, schedRemove, schedInsertReady, schedInsert, enqueue, modifyQueues,
        wp_bind, wp_modify, wp_pure]
      apply invokeIfStopped_spec _ moved
      refine inLoop.transfer member rfl ?_ rfl rfl
      simp [inLoop.envs]
    · intro hasNot
      rw [wp_pure]
      refine ⟨⟨middle, front ++ [env], inLoop, by rw [content, List.append_assoc]; rfl, rfl, ?_⟩, rfl⟩
      rw [← remains, List.find?_cons_of_neg (by exact hasNot)]
  · rintro ⟨⟩ state middle inLoop ⟨rfl, remains⟩
    simpa [Schedule.run, ← remains] using inLoop

/-- Only the running environment has its id among those that are not on the free or exit list. -/
theorem Schedule.Sound.find_running (sound : schedule.Sound) {current : Slot} (running : schedule.curenv = some current)
    (has : schedule.hasId current envId) (used : queue ≠ .envFreeList) : schedule.find queue envId = none := by
  rw [Schedule.find, List.find?_eq_none]
  intro env member envHas
  have same := sound.unique (sound.used member used) (sound.used_running running) envHas has
  exact sound.notRunning running queue (same ▸ member)

/-- The ready queue is searched unless it is empty. -/
theorem wp_searchReady {take : Slot → SchedM Unit} {post : Option Slot × Bool → Scheduler → Prop}
    {fail : Leave → Scheduler → Prop} (stands : state.Stands schedule)
    (searches : wp (searchQueue .envReadyQueue envId true take) post fail state)
    (skips : schedule.find .envReadyQueue envId = none → post (none, false) state) :
    wp (searchReady envId take (none, false)) post fail state := by
  simp only [searchReady, wp_bind, wp_get, wp_ite]
  constructor
  · exact fun _ => searches
  · intro empty
    rw [stands.first] at empty
    simp only [Bool.false_eq_true, not_false_eq_true, true_and, not_not, List.head?_eq_none_iff] at empty
    apply skips
    rw [Schedule.find, empty]
    rfl

theorem searchReady_none {take : Slot → SchedM Unit} (stands : state.Stands schedule)
    (absent : schedule.find .envReadyQueue envId = none) :
    wp (searchReady envId take (none, false)) (fun result next => result = (none, false) ∧ next.Stands schedule)
      (fun _ _ => False) state :=
  wp_searchReady stands (searchQueue_none true stands absent) fun _ => ⟨rfl, stands⟩

/-- The running environment is named to `sched_exit_env`. -/
theorem schedExitEnv_running (stands : state.Stands schedule) (sound : schedule.Sound) {current : Slot}
    (running : schedule.curenv = some current) (has : schedule.hasId current envId) :
    wp (schedExitEnv envId) (fun _ _ => False) (Left (schedule.exit current).reschedule) state := by
  have absent (queue : EnvList) (used : queue ≠ .envFreeList) := sound.find_running running has used
  simp only [schedExitEnv, wp_bind]
  apply wp_mono_returns (searchQueue_none false stands (absent .envNewQueue (by decide)))
  rintro _ second ⟨rfl, stands⟩
  apply wp_mono_returns (searchReady_none stands (absent .envReadyQueue (by decide)))
  rintro _ last ⟨rfl, stands⟩
  simp only [searchCurenv, exitFound, schedInsertExit, schedInsert, enqueue, modifyQueues, Bool.false_eq_true, if_false,
    wp_bind, wp_get, wp_modify, stands.curenv, running, stands.hasId, has, if_true, wp_pure,
    Scheduler.editQueues_curenv, Scheduler.setStatus_curenv, Scheduler.editQueues_hasId, Scheduler.setStatus_hasId]
  apply wp_mono_fails (fosScheduler_spec _ (sound.exit running)) fun _ _ left => left
  exact ((stands.setStatus).insertHead (sound.notRunning running)).setCurenv none

theorem envExit_spec (stands : state.Stands schedule) (sound : schedule.Sound) {current : Slot}
    (running : schedule.curenv = some current) :
    wp envExit (fun _ _ => False) (Left (schedule.exit current).reschedule) state := by
  have has : schedule.hasId current (toUInt32 (schedule.envs current).envId) := by simp [Schedule.hasId]
  simp only [envExit, wp_bind, wp_get, stands.curenv, running, stands.envs]
  exact wp_mono_fails (schedExitEnv_running stands sound running has) fun _ _ left => left

/-- What a search for an id leaves when what it finds is freed. -/
def Freed (schedule : Schedule) (queue : EnvList) (envId : Nat) (breaks : Bool) (searched : Option Slot × Bool)
    (next : Scheduler) : Prop :=
  match schedule.find queue envId with
  | none => searched = (none, false) ∧ next.Stands schedule
  | some env => searched = (if breaks then some env else none, true) ∧ next.Stands (schedule.free queue env)

theorem searchQueue_freed {remove : Slot → SchedM Unit} (takesOut : TakesOut queue remove) (breaks : Bool)
    (stands : state.Stands schedule) (sound : schedule.Sound) (used : queue ≠ .envFreeList) :
    wp (searchQueue queue envId breaks fun env => do
        remove env
        startEnvFree env)
      (Freed schedule queue envId breaks) (fun _ _ => False) state := by
  apply searchQueue_spec (schedule.free queue) breaks stands sound used
  · exact fun env member state stands => takesOut.free stands member
  · intro env member
    simp [Schedule.free, used]
  · intro env member other different
    simp [Schedule.free, different]

theorem searchReady_freed (stands : state.Stands schedule) (sound : schedule.Sound) :
    wp (searchReady envId (fun env => do
        modifyQueues (·.listRemove .envReadyQueue env)
        startEnvFree env) (none, false))
      (Freed schedule .envReadyQueue envId true) (fun _ _ => False) state := by
  apply wp_searchReady stands (searchQueue_freed (listRemove_takesOut _) true stands sound (by decide))
  intro absent
  rw [Freed, absent]
  exact ⟨rfl, stands⟩

/-- An environment with the id is freed that is in a list; otherwise the running one is looked at. -/
theorem wp_schedKillEnv {post : Unit → Scheduler → Prop} {fail : Leave → Scheduler → Prop} (stands : state.Stands schedule)
    (sound : schedule.Sound)
    (found : ∀ queue, queue ≠ .envFreeList → ∀ env, schedule.find queue envId = some env →
      ∀ next : Scheduler, next.Stands (schedule.kill envId) → post () next)
    (unfound : (∀ queue, queue ≠ .envFreeList → schedule.find queue envId = none) →
      ∀ next : Scheduler, next.Stands schedule → wp (killCurenv envId) post fail next) :
    wp (schedKillEnv envId) post fail state := by
  simp only [schedKillEnv, wp_bind]
  apply wp_mono_returns (searchQueue_freed (schedRemove_takesOut _) false stands sound (by decide))
  intro searched second freed
  unfold Freed at freed
  split at freed
  · next newAbsent =>
      obtain ⟨rfl, stands⟩ := freed
      apply wp_mono_returns (searchReady_freed stands sound)
      intro searched third freed
      unfold Freed at freed
      split at freed
      · next readyAbsent =>
          obtain ⟨rfl, stands⟩ := freed
          simp only [Bool.false_eq_true, not_false_eq_true, if_true, wp_bind]
          apply wp_mono_returns (searchQueue_freed (schedRemove_takesOut _) false stands sound (by decide))
          intro searched last freed
          unfold Freed at freed
          split at freed
          · next exitAbsent =>
              obtain ⟨rfl, stands⟩ := freed
              apply unfound _ last stands
              intro queue used
              cases queue with
              | envFreeList => exact absurd rfl used
              | envNewQueue => exact newAbsent
              | envReadyQueue => exact readyAbsent
              | envExitQueue => exact exitAbsent
          · next env exitFound =>
              obtain ⟨rfl, stands⟩ := freed
              apply found _ (by decide) env exitFound
              simpa [Schedule.kill, newAbsent, readyAbsent, exitFound] using stands
      · next env readyFound =>
          obtain ⟨rfl, stands⟩ := freed
          apply found _ (by decide) env readyFound
          simpa [Schedule.kill, newAbsent, readyFound] using stands
  · next env newFound =>
      obtain ⟨rfl, stands⟩ := freed
      apply found _ (by decide) env newFound
      simpa [searchReady, Schedule.kill, newFound] using stands

theorem Schedule.kill_none (absent : ∀ queue, queue ≠ .envFreeList → schedule.find queue envId = none) :
    schedule.kill envId = schedule := by
  simp only [kill, absent .envNewQueue (by decide), absent .envReadyQueue (by decide), absent .envExitQueue (by decide)]

/-- The environment that has the id, if there is one, is freed. -/
theorem schedKillEnv_spec (stands : state.Stands schedule) (sound : schedule.Sound) {current : Slot}
    (running : schedule.curenv = some current) (another : ¬ schedule.hasId current envId) :
    wp (schedKillEnv envId) (fun _ next => next.Stands (schedule.kill envId)) (fun _ _ => False) state := by
  apply wp_schedKillEnv stands sound
  · exact fun _ _ _ _ _ after => after
  · intro absent next stands
    simp only [killCurenv, wp_bind, wp_get, stands.curenv, running, stands.hasId, another, Schedule.kill_none absent]
    exact stands

/-! ### Runs -/

/-- An event of the scheduler over links is the one of the scheduler over sequences. -/
theorem exec_stands (stands : state.Stands schedule) (sound : schedule.Sound) {event : SchedEvent}
    (proper : event.Proper state) :
    ∃ next, scheduler.exec state event = some next ∧ next.Stands (schedule.after event) := by
  have comes {program : SchedM Unit}
      (holds : wp program (fun _ next => next.Stands (schedule.after event)) (Left (schedule.after event)) state) :
      ∃ next, leave (program state) = some next ∧ next.Stands (schedule.after event) := by
    cases wp_cases holds with
    | inl returns =>
        obtain ⟨result, next, outcome, after⟩ := returns
        exact ⟨next, by rw [outcome, leave], after⟩
    | inr leaves =>
        obtain ⟨how, next, outcome, way, after⟩ := leaves
        refine ⟨next, ?_, after⟩
        rw [outcome]
        cases way with
        | inl resumed => rw [resumed, leave]
        | inr prompt => rw [prompt, leave]
  apply comes
  cases event with
  | create known => exact wp_mono_returns (schedNewEnv_create_spec stands known) (fun _ _ after => after)
  | runEnv envId => exact schedRunEnv_spec stands sound envId
  | runAll => exact schedRunAll_spec stands sound
  | clockInterrupt => exact wp_mono_fails (fosScheduler_spec stands sound) fun _ _ left => left
  | exit =>
      obtain ⟨current, running⟩ := Option.ne_none_iff_exists'.1 proper
      rw [stands.curenv] at running
      rw [Schedule.after, running]
      exact wp_mono_fails (envExit_spec stands sound running) fun _ _ left => left
  | exitAllReadyEnvs => exact wp_mono_returns (schedExitAllReadyEnvs_spec stands) (fun _ _ after => after)
  | killEnv envId =>
      obtain ⟨current, running, another⟩ := proper
      rw [stands.curenv] at running
      rw [stands.hasId] at another
      exact wp_mono_returns (schedKillEnv_spec stands sound running another) (fun _ _ after => after)
  | killAll =>
      exact wp_mono_fails (schedKillAll_spec stands sound (stands.curenv ▸ proper)) fun _ _ left => left

end Fos.Sched
