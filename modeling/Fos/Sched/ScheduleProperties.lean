import Fos.Sched.Schedule

/-! Every operation of the scheduler leaves every environment in one place, and the ready queue
in the order in which its environments came. -/

set_option autoImplicit false

namespace Fos.Sched

open Kernel (EnvStatus nenv)

namespace Schedule

variable {schedule next : Schedule} {env other : Slot} {queue source target : EnvList} {place : Place}
  {value : SchedEnv} {status : EnvStatus} {envId : Nat}

/-! ### Membership -/

theorem mem_insert : other ∈ (schedule.insert queue env).list source ↔
    (source = queue ∧ other = env) ∨ other ∈ schedule.list source := by
  cases decEq source queue with
  | isTrue same =>
      subst same
      simp
  | isFalse different => simp [different]

theorem mem_remove (nodup : (schedule.list queue).Nodup) :
    other ∈ (schedule.remove queue env).list source ↔
      other ∈ schedule.list source ∧ ¬ (source = queue ∧ other = env) := by
  cases decEq source queue with
  | isTrue same =>
      subst same
      simp [nodup.mem_erase_iff, and_comm]
  | isFalse different => simp [different]

theorem mem_transfer (nodup : (schedule.list source).Nodup) :
    other ∈ (schedule.transfer source target value env).list queue ↔
      (queue = target ∧ other = env) ∨ other ∈ schedule.list queue ∧ ¬ (queue = source ∧ other = env) := by
  rw [transfer, mem_insert]
  exact or_congr_right (mem_remove nodup)

theorem nodup_insert (nodup : ∀ queue, (schedule.list queue).Nodup) (fresh : env ∉ schedule.list target) :
    ((schedule.insert target env).list queue).Nodup := by
  cases decEq queue target with
  | isTrue same =>
      subst same
      simp [fresh, nodup]
  | isFalse different => simp [different, nodup]

theorem nodup_remove (nodup : ∀ queue, (schedule.list queue).Nodup) :
    ((schedule.remove source env).list queue).Nodup := by
  cases decEq queue source with
  | isTrue same =>
      subst same
      simp [(nodup queue).erase]
  | isFalse different => simp [different, nodup]

/-! ### The operations keep environments in their places -/

/-- One environment is put elsewhere. -/
theorem Sound.relocate (sound : schedule.Sound) (env : Slot) (place : Place)
    (nodup : ∀ queue, (next.list queue).Nodup)
    (list : ∀ other, other ≠ env → ∀ queue, other ∈ next.list queue ↔ other ∈ schedule.list queue)
    (running : ∀ other, other ≠ env → (next.curenv = some other ↔ schedule.curenv = some other))
    (envs : ∀ other, other ≠ env → next.envs other = schedule.envs other)
    (lies : next.Lies env place) (fits : place.Fits (next.envs env).envStatus)
    (identified : (next.envs env).Identified env) : next.Sound where
  nodup := nodup
  placed other := by
    cases decEq other env with
    | isTrue same =>
        subst same
        exact ⟨place, lies, fits⟩
    | isFalse different =>
        obtain ⟨place, was, fitted⟩ := sound.placed other
        refine ⟨place, ⟨fun queue => ?_, ?_⟩, ?_⟩
        · exact (list other different queue).trans (was.list queue)
        · exact (running other different).trans was.running
        · rwa [envs other different]
  identified other := by
    cases decEq other env with
    | isTrue same =>
        subst same
        exact identified
    | isFalse different =>
        rw [envs other different]
        exact sound.identified other

/-- The place of an environment in a list. -/
theorem Sound.lies (sound : schedule.Sound) (member : env ∈ schedule.list queue) :
    schedule.Lies env (.inList queue) ∧ (Place.inList queue).Fits (schedule.envs env).envStatus := by
  obtain ⟨place, lies, fits⟩ := sound.placed env
  have here := (lies.list queue).1 member
  subst here
  exact ⟨lies, fits⟩

theorem Sound.lies_running (sound : schedule.Sound) (running : schedule.curenv = some env) :
    schedule.Lies env .running ∧ Place.running.Fits (schedule.envs env).envStatus := by
  obtain ⟨place, lies, fits⟩ := sound.placed env
  have here := lies.running.1 running
  subst here
  exact ⟨lies, fits⟩

theorem Sound.transfer (sound : schedule.Sound) (member : env ∈ schedule.list source)
    (fits : (Place.inList target).Fits value.envStatus) (identified : value.Identified env) :
    (schedule.transfer source target value env).Sound := by
  have lies := (sound.lies member).1
  have own (queue : EnvList) (inQueue : env ∈ schedule.list queue) : queue = source := by
    cases (lies.list queue).1 inQueue
    rfl
  apply sound.relocate env (.inList target)
  · intro queue
    apply nodup_insert fun queue => nodup_remove sound.nodup
    intro again
    obtain ⟨inTarget, elsewhere⟩ := (mem_remove (sound.nodup source)).1 again
    exact elsewhere ⟨own target inTarget, rfl⟩
  · intro other different queue
    rw [mem_transfer (sound.nodup source)]
    simp [different]
  · exact fun _ _ => Iff.rfl
  · intro other different
    simp [different]
  · constructor
    · intro queue
      rw [mem_transfer (sound.nodup source)]
      constructor
      · rintro (⟨rfl, -⟩ | ⟨inQueue, elsewhere⟩)
        · rfl
        · exact absurd ⟨own queue inQueue, rfl⟩ elsewhere
      · intro here
        cases here
        exact .inl ⟨rfl, rfl⟩
    · rw [transfer_curenv, lies.running]
      simp
  · simpa using fits
  · simpa using identified

theorem Sound.move (sound : schedule.Sound) (member : env ∈ schedule.list source)
    (fits : (Place.inList target).Fits status) (used : (schedule.envs env).envStatus ≠ .free) (notFree : status ≠ .free) :
    (schedule.move source target status env).Sound := by
  apply sound.transfer member fits
  have identified := sound.identified env
  rw [SchedEnv.Identified, if_neg used] at identified
  rw [SchedEnv.Identified, if_neg notFree, identified]

theorem Sound.free (sound : schedule.Sound) (member : env ∈ schedule.list source) :
    (schedule.free source env).Sound :=
  sound.transfer member rfl rfl

/-- An environment that is not on the free list is not free. -/
theorem Sound.used (sound : schedule.Sound) (member : env ∈ schedule.list queue) (notFree : queue ≠ .envFreeList) :
    (schedule.envs env).envStatus ≠ .free := by
  have fits := (sound.lies member).2
  intro isFree
  rw [isFree] at fits
  cases queue with
  | envFreeList => exact notFree rfl
  | envNewQueue => cases fits
  | envReadyQueue => cases fits with
    | inl ready => cases ready
    | inr runnable => cases runnable
  | envExitQueue => cases fits

theorem Sound.preempt (sound : schedule.Sound) : schedule.preempt.Sound := by
  cases running : schedule.curenv with
  | none => rwa [Schedule.preempt, running]
  | some current =>
      obtain ⟨lies, fits⟩ := sound.lies_running running
      have nowhere (queue : EnvList) : current ∉ schedule.list queue := by
        intro inQueue
        cases (lies.list queue).1 inQueue
      rw [Schedule.preempt, running]
      apply sound.relocate current (.inList .envReadyQueue)
      · exact fun queue => nodup_insert sound.nodup (nowhere _)
      · intro other different queue
        rw [mem_insert]
        simp [different]
      · intro other different
        rw [running, Option.some.injEq]
        exact iff_of_false nofun fun same => different same.symm
      · exact fun _ _ => rfl
      · constructor
        · intro queue
          rw [mem_insert, Place.inList.injEq]
          simp [nowhere, eq_comm]
        · exact iff_of_false nofun nofun
      · exact fits
      · exact sound.identified current

theorem preempt_curenv : schedule.preempt.curenv = none := by
  cases running : schedule.curenv with
  | none => rw [preempt, running]; exact running
  | some current => rw [preempt, running]

theorem Sound.dispatch (sound : schedule.Sound) (idle : schedule.curenv = none) : schedule.dispatch.Sound := by
  cases waits : (schedule.list .envReadyQueue).getLast? with
  | none =>
      rw [Schedule.dispatch, waits]
      exact ⟨sound.nodup, fun env => (sound.placed env).imp fun _ there => ⟨⟨there.1.list, there.1.running⟩, there.2⟩,
        sound.identified⟩
  | some nextEnv =>
      have member := List.mem_of_getLast? waits
      have lies := (sound.lies member).1
      rw [Schedule.dispatch, waits]
      apply sound.relocate nextEnv .running
      · exact fun queue => nodup_remove sound.nodup
      · intro other different queue
        refine (mem_remove (sound.nodup .envReadyQueue)).trans ?_
        simp [different]
      · intro other different
        rw [idle, Option.some.injEq]
        exact iff_of_false (fun same => different same.symm) nofun
      · intro other different
        simp [different]
      · constructor
        · intro queue
          refine (mem_remove (sound.nodup .envReadyQueue)).trans ?_
          rw [lies.list queue, Place.inList.injEq]
          simp [eq_comm]
        · exact iff_of_true rfl rfl
      · simp [Place.Fits]
      · have identified := sound.identified nextEnv
        rw [SchedEnv.Identified, if_neg (sound.used member (by decide))] at identified
        simp [SchedEnv.Identified, identified]

theorem Sound.reschedule (sound : schedule.Sound) : schedule.reschedule.Sound :=
  sound.preempt.dispatch preempt_curenv

/-- The scheduler frees nothing. -/
theorem Sound.reschedule_free (sound : schedule.Sound) :
    (schedule.reschedule.envs env).envStatus = .free ↔ (schedule.envs env).envStatus = .free := by
  have preempted : schedule.preempt.envs = schedule.envs := by
    cases running : schedule.curenv with
    | none => rw [Schedule.preempt, running]
    | some current => rw [Schedule.preempt, running]; rfl
  rw [Schedule.reschedule, ← preempted]
  cases waits : (schedule.preempt.list .envReadyQueue).getLast? with
  | none => rw [Schedule.dispatch, waits]
  | some nextEnv =>
      rw [Schedule.dispatch, waits]
      cases decEq env nextEnv with
      | isTrue same =>
          subst same
          have used := sound.preempt.used (List.mem_of_getLast? waits) (by decide)
          simp [used]
      | isFalse different => simp [different]

theorem Sound.startIfStopped (sound : schedule.Sound) : schedule.startIfStopped.Sound := by
  unfold Schedule.startIfStopped
  split
  · exact sound.reschedule
  · exact sound

/-- No two environments that are not free have one id. -/
theorem Sound.unique (sound : schedule.Sound) (envUsed : (schedule.envs env).envStatus ≠ .free)
    (otherUsed : (schedule.envs other).envStatus ≠ .free) (envHas : schedule.hasId env envId)
    (otherHas : schedule.hasId other envId) : env = other := by
  have first := sound.identified env
  have second := sound.identified other
  rw [SchedEnv.Identified, if_neg envUsed] at first
  rw [SchedEnv.Identified, if_neg otherUsed] at second
  rw [hasId, beq_iff_eq, first] at envHas
  rw [hasId, beq_iff_eq, second] at otherHas
  have envLow := env.isLt
  have otherLow := other.isLt
  apply Fin.ext
  simp only [toUInt32, wordSize, nenv] at *
  omega

/-! ### Whole lists -/

theorem transfer_source (different : source ≠ target) {rest : List Slot} (content : schedule.list source = env :: rest) :
    (schedule.transfer source target value env).list source = rest := by
  simp [different, content]

theorem transfer_target (different : source ≠ target) :
    (schedule.transfer source target value env).list target = env :: schedule.list target := by
  simp [different.symm]

theorem transfer_other (notSource : queue ≠ source) (notTarget : queue ≠ target) :
    (schedule.transfer source target value env).list queue = schedule.list queue := by
  simp [notSource, notTarget]

/-- What every step of a loop that empties a list keeps, the loop keeps. -/
theorem foldl_keeps {step : Schedule → Slot → Schedule} {kept : Schedule → Prop}
    (takes : ∀ schedule env rest, schedule.list source = env :: rest → (step schedule env).list source = rest)
    (keeps : ∀ schedule env, kept schedule → env ∈ schedule.list source → kept (step schedule env))
    (initially : kept schedule) : kept ((schedule.list source).foldl step schedule) := by
  have loop : ∀ rest (schedule : Schedule), schedule.list source = rest → kept schedule →
      kept (rest.foldl step schedule) := by
    intro rest
    induction rest with
    | nil => exact fun _ _ holds => holds
    | cons env rest ih =>
        intro schedule content holds
        exact ih _ (takes schedule env rest content) (keeps schedule env holds (content ▸ List.mem_cons_self ..))
  exact loop _ schedule rfl initially

theorem foldl_source {step : Schedule → Slot → Schedule}
    (takes : ∀ schedule env rest, schedule.list source = env :: rest → (step schedule env).list source = rest) :
    ((schedule.list source).foldl step schedule).list source = [] := by
  have loop : ∀ rest (schedule : Schedule), schedule.list source = rest → (rest.foldl step schedule).list source = [] := by
    intro rest
    induction rest with
    | nil => exact fun _ content => content
    | cons env rest ih => exact fun schedule content => ih _ (takes schedule env rest content)
  exact loop _ schedule rfl

theorem Sound.moveAll (sound : schedule.Sound) (different : source ≠ target)
    (fits : (Place.inList target).Fits status) (notFree : source ≠ .envFreeList) (used : status ≠ .free) :
    (schedule.moveAll source target status).Sound := by
  apply foldl_keeps _ _ sound
  · exact fun _ _ _ content => transfer_source different content
  · exact fun _ _ sound member => sound.move member fits (sound.used member notFree) used

theorem Sound.freeAll (sound : schedule.Sound) (notFree : source ≠ .envFreeList) :
    (schedule.freeAll source).Sound := by
  apply foldl_keeps _ _ sound
  · exact fun _ _ _ content => transfer_source notFree content
  · exact fun _ _ sound member => sound.free member

/-! ### The events -/

theorem ready_fits : (Place.inList .envReadyQueue).Fits .ready := Or.inl rfl

theorem new_fits : (Place.inList .envNewQueue).Fits .new := rfl

/-- The id that is made from a cleared one. -/
theorem nextId_zero (env : Slot) : nextId env 0 = 0x1000 + env.val := by
  revert env
  decide

theorem Sound.create (sound : schedule.Sound) (known : Bool) : (schedule.create known).Sound := by
  cases known with
  | false => exact sound
  | true =>
      cases isFree : schedule.list .envFreeList with
      | nil =>
          have same : schedule.create true = schedule := by simp only [Schedule.create, isFree]
          rwa [same]
      | cons env rest =>
          have taken : schedule.create true = schedule.transfer .envFreeList .envNewQueue
              ⟨nextId env (schedule.envs env).envId, .new⟩ env := by simp only [Schedule.create, isFree]
          rw [taken]
          have member : env ∈ schedule.list .envFreeList := isFree ▸ List.mem_cons_self ..
          have isCleared : (schedule.envs env).envStatus = .free := (sound.lies member).2
          have cleared := sound.identified env
          rw [SchedEnv.Identified, if_pos isCleared] at cleared
          apply sound.transfer member new_fits
          rw [SchedEnv.Identified, if_neg nofun, cleared, nextId_zero]

/-- An environment that runs is not free. -/
theorem Sound.used_running (sound : schedule.Sound) (running : schedule.curenv = some env) :
    (schedule.envs env).envStatus ≠ .free := by
  have fits := (sound.lies_running running).2
  intro isFree
  rw [isFree] at fits
  cases fits with
  | inl ready => cases ready
  | inr runnable => cases runnable

/-- The running environment goes to a list. -/
theorem Sound.leave (sound : schedule.Sound) (running : schedule.curenv = some env)
    (fits : (Place.inList target).Fits value.envStatus) (identified : value.Identified env) :
    Sound { (schedule.setEnv env value).insert target env with curenv := none } := by
  have lies := (sound.lies_running running).1
  have nowhere (queue : EnvList) : env ∉ schedule.list queue := by
    intro inQueue
    cases (lies.list queue).1 inQueue
  apply sound.relocate env (.inList target)
  · exact fun queue => nodup_insert sound.nodup (nowhere _)
  · intro other different queue
    refine mem_insert.trans ?_
    simp [different]
  · intro other different
    rw [running, Option.some.injEq]
    exact iff_of_false nofun fun same => different same.symm
  · intro other different
    simp [different]
  · constructor
    · intro queue
      refine mem_insert.trans ?_
      rw [Place.inList.injEq]
      simp [nowhere, eq_comm]
    · exact iff_of_false nofun nofun
  · simpa using fits
  · simpa using identified

theorem Sound.exit (sound : schedule.Sound) {current : Slot} (running : schedule.curenv = some current) :
    (schedule.exit current).Sound := by
  have identified := sound.identified current
  rw [SchedEnv.Identified, if_neg (sound.used_running running)] at identified
  have fits : (Place.inList .envExitQueue).Fits .exit := rfl
  apply sound.leave running fits
  rw [SchedEnv.Identified, if_neg nofun, identified]

theorem find_mem (found : schedule.find queue envId = some env) : env ∈ schedule.list queue :=
  List.mem_of_find?_eq_some found

theorem Sound.run (sound : schedule.Sound) (envId : Nat) : (schedule.run envId).Sound := by
  unfold Schedule.run
  split
  · exact sound
  · next found =>
      have member := find_mem found
      exact (sound.move member ready_fits (sound.used member (by decide)) (by decide)).startIfStopped

theorem Sound.kill (sound : schedule.Sound) (envId : Nat) : (schedule.kill envId).Sound := by
  unfold Schedule.kill
  split
  · next found => exact sound.free (find_mem found)
  · next found => exact sound.free (find_mem found)
  · next found => exact sound.free (find_mem found)
  · exact sound

theorem Sound.after (sound : schedule.Sound) (event : SchedEvent) : (schedule.after event).Sound := by
  cases event with
  | create known => exact sound.create known
  | runEnv envId => exact sound.run envId
  | runAll => exact (sound.moveAll (by decide) ready_fits (by decide) (by decide)).startIfStopped
  | clockInterrupt => exact sound.reschedule
  | exit =>
      cases running : schedule.curenv with
      | none => rwa [Schedule.after, running]
      | some current =>
          rw [Schedule.after, running]
          exact (sound.exit running).reschedule
  | exitAllReadyEnvs => exact sound.moveAll (by decide) rfl (by decide) (by decide)
  | killEnv envId => exact sound.kill envId
  | killAll =>
      exact (((sound.freeAll (by decide)).freeAll (by decide)).freeAll (by decide)).reschedule

end Schedule

end Fos.Sched
