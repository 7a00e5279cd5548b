import Fos.Foundation.Runs
import Fos.Kernel.Environment
import Fos.Queue.Traversal

/-! The scheduler over the links of its lists: `kern/sched.c` with the round-robin method, and
what `kern/user_environment.c` does to the free list. -/

set_option autoImplicit false

namespace Fos.Sched

open Queue
open Kernel (EnvStatus nenv)

/-- An environment is its place in `envs`. -/
abbrev Slot := Fin nenv

/-- The lists the link fields of an environment are shared by. There is one ready queue. -/
inductive EnvList where
  | envFreeList | envNewQueue | envReadyQueue | envExitQueue
  deriving DecidableEq

inductive SchedulerStatus where
  | started | stopped
  deriving DecidableEq

/-- What the scheduler reads of `struct Env` beside the links. -/
structure SchedEnv where
  envId : Int
  envStatus : EnvStatus

structure Scheduler where
  queues : Memory EnvList Slot
  envs : Slot → SchedEnv
  curenv : Option Slot
  schedulerStatus : SchedulerStatus

/-- How control leaves kernel code without returning to its caller. -/
inductive Leave where
  /-- `env_run`: to the instructions of `curenv`. -/
  | envRun
  /-- The loop around `run_command_prompt`. -/
  | commandPrompt
  /-- A null pointer is followed. -/
  | undefined (access : String)
  | endless

abbrev SchedM := EStateM Leave Scheduler

namespace Scheduler

variable (state : Scheduler)

/-- A change of the lists. -/
def editQueues (edit : Memory EnvList Slot → Memory EnvList Slot) : Scheduler :=
  { state with queues := edit state.queues }

def setEnv (env : Slot) (value : SchedEnv) : Scheduler :=
  { state with envs := Function.update state.envs env value }

def setStatus (env : Slot) (status : EnvStatus) : Scheduler :=
  state.setEnv env { state.envs env with envStatus := status }

/-- A comparison of `env_id`, an `int32`, with a `uint32`. -/
def hasId (env : Slot) (envId : Nat) : Bool := toUInt32 (state.envs env).envId == envId

section Fields

variable {state} (edit : Memory EnvList Slot → Memory EnvList Slot) (env other : Slot) (value : SchedEnv)
  (status : EnvStatus) (envId : Nat)

@[simp] theorem editQueues_queues : (state.editQueues edit).queues = edit state.queues := rfl
@[simp] theorem editQueues_envs : (state.editQueues edit).envs = state.envs := rfl
@[simp] theorem editQueues_curenv : (state.editQueues edit).curenv = state.curenv := rfl
@[simp] theorem editQueues_hasId : (state.editQueues edit).hasId env envId = state.hasId env envId := rfl

@[simp] theorem setEnv_queues : (state.setEnv env value).queues = state.queues := rfl
@[simp] theorem setEnv_envs : (state.setEnv env value).envs = Function.update state.envs env value := rfl
@[simp] theorem setEnv_curenv : (state.setEnv env value).curenv = state.curenv := rfl

@[simp] theorem setStatus_queues : (state.setStatus env status).queues = state.queues := rfl
@[simp] theorem setStatus_envs :
    (state.setStatus env status).envs = Function.update state.envs env { state.envs env with envStatus := status } := rfl
@[simp] theorem setStatus_curenv : (state.setStatus env status).curenv = state.curenv := rfl

@[simp] theorem setStatus_hasId : (state.setStatus env status).hasId other envId = state.hasId other envId := by
  cases decEq other env with
  | isTrue same =>
      subst same
      simp [hasId]
  | isFalse different => simp [hasId, different]

end Fields

end Scheduler

def modifyQueues (edit : Memory EnvList Slot → Memory EnvList Slot) : SchedM Unit :=
  modify (·.editQueues edit)

/-- `LIST_FOREACH` over one of the lists. No list has more elements than there are environments. -/
def foreachEnv {Local : Type} (queue : EnvList) (locals : Local) (body : Slot → Local → SchedM (ForInStep Local)) :
    SchedM (Option Slot × Local) := do
  let first := (← get).queues.first queue
  listForeach Scheduler.queues (fun edit state => state.editQueues edit) Leave.endless queue body (nenv + 1) first
    locals

/-! ### Queues -/

def enqueue (queue : EnvList) (env : Option Slot) : SchedM Unit :=
  match env with
  | some env => modifyQueues (·.listInsertHead queue env)
  | none => return ()

def dequeue (queue : EnvList) : SchedM (Option Slot) := do
  match (← get).queues.last queue with
  | some envItem =>
      modifyQueues (·.listRemove queue envItem)
      return some envItem
  | none => return none

/-- `sched_insert_ready`, `sched_insert_new` and `sched_insert_exit`. -/
def schedInsert (queue : EnvList) (status : EnvStatus) (env : Option Slot) : SchedM Unit :=
  match env with
  | some env => do
      modify (·.setStatus env status)
      enqueue queue env
  | none => return ()

def schedInsertReady : Option Slot → SchedM Unit := schedInsert .envReadyQueue .ready
def schedInsertNew : Option Slot → SchedM Unit := schedInsert .envNewQueue .new
def schedInsertExit : Option Slot → SchedM Unit := schedInsert .envExitQueue .exit

/-- `sched_remove_new` and `sched_remove_exit`. -/
def schedRemove (queue : EnvList) (env : Option Slot) : SchedM Unit :=
  match env with
  | some env => do
      modifyQueues (·.listRemove queue env)
      modify (·.setStatus env .unknown)
  | none => return ()

def schedRemoveNew : Option Slot → SchedM Unit := schedRemove .envNewQueue
def schedRemoveExit : Option Slot → SchedM Unit := schedRemove .envExitQueue

/-! ### Environments -/

def allocateEnv : SchedM (Option Slot) := do
  match (← get).queues.first .envFreeList with
  | none => return none
  | some env =>
      modify (·.setStatus env .unknown)
      return some env

/-- What `complete_environment_initialization` does to the id, the status and the free list. -/
def completeEnv (env : Slot) : SchedM Unit := do
  let candidate := toInt32 (toUInt32 (((← get).envs env).envId + 0x1000) &&& (wordSize - 1 - (nenv - 1)))
  let generation := if candidate ≤ 0 then 0x1000 else candidate
  modify (·.setEnv env ⟨toInt32 (toUInt32 generation ||| env), .new⟩)
  modifyQueues (·.listRemove .envFreeList env)

/-- `env_create` where it returns: `NULL` for a program that is not known or without a free
environment. -/
def createEnv (known : Bool) : SchedM (Option Slot) := do
  if known then
    match ← allocateEnv with
    | none => return none
    | some env =>
        completeEnv env
        return some env
  else
    return none

def freeEnvironment (env : Slot) : SchedM Unit := do
  modifyQueues (·.clearLinks env)
  modify (·.setEnv env ⟨0, .free⟩)
  modifyQueues (·.listInsertHead .envFreeList env)

/-- `start_env_free` without buffering: the memory the environment had is not the scheduler's. -/
def startEnvFree (env : Slot) : SchedM Unit := freeEnvironment env

/-- `env_init`, after the uninitialized data section was cleared. -/
def envInit : SchedM Unit :=
  (List.finRange nenv).reverse.forM fun env => do
    modify (·.setEnv env ⟨0, .free⟩)
    modifyQueues (·.listInsertHead .envFreeList env)

/-! ### Scheduling -/

def envRun (env : Slot) : SchedM Unit := do
  if (← get).curenv ≠ some env then
    modify fun state => { state with curenv := env }
  modify (·.setStatus env .runnable)
  throw .envRun

def fosScheduler : SchedM Unit := do
  modify fun state => { state with schedulerStatus := .started }
  let curenv := (← get).curenv
  if curenv ≠ none then
    enqueue .envReadyQueue curenv
  match ← dequeue .envReadyQueue with
  | some nextEnv => envRun nextEnv
  | none =>
      modify fun state => { state with curenv := none, schedulerStatus := .stopped }
      throw .commandPrompt

def schedInit : SchedM Unit := do
  modify fun state => { state with schedulerStatus := .stopped }
  modifyQueues (·.listInit .envReadyQueue)
  modifyQueues (·.listInit .envNewQueue)
  modifyQueues (·.listInit .envExitQueue)

def schedNewEnv (env : Option Slot) : SchedM Unit :=
  match env with
  | some env => schedInsertNew env
  | none => return ()

/-- `sched_run_env` and `sched_run_all` start the scheduler when it is stopped. -/
def invokeIfStopped : SchedM Unit := do
  if (← get).schedulerStatus = .stopped then
    fosScheduler

def schedRunAll : SchedM Unit := do
  let _ ← foreachEnv .envNewQueue () fun env _ => do
    schedRemoveNew env
    schedInsertReady env
    return .yield ()
  invokeIfStopped

def schedRunEnv (envId : Nat) : SchedM Unit := do
  let _ ← foreachEnv .envNewQueue () fun env _ => do
    if (← get).hasId env envId then
      schedRemoveNew env
      schedInsertReady env
      invokeIfStopped
      return .done ()
    else
      return .yield ()

/-- A search of `sched_exit_env` or `sched_kill_env`: the environments with the id are taken out of
the list. Only in the ready queue the first one ends the loop. -/
def searchQueue (queue : EnvList) (envId : Nat) (breaks : Bool) (take : Slot → SchedM Unit) :
    SchedM (Option Slot × Bool) :=
  foreachEnv queue false fun env found => do
    if (← get).hasId env envId then
      take env
      return if breaks then .done true else .yield true
    else
      return .yield found

/-- The search that follows when the new queue was gone through: the loop variable, and whether the
environment was found. -/
def searchReady (envId : Nat) (take : Slot → SchedM Unit) (searched : Option Slot × Bool) :
    SchedM (Option Slot × Bool) := do
  if ¬ searched.2 ∧ (← get).queues.first .envReadyQueue ≠ none then
    searchQueue .envReadyQueue envId true take
  else
    return searched

def searchCurenv (envId : Nat) (searched : Option Slot × Bool) : SchedM (Option Slot × Bool) := do
  if searched.2 then
    return searched
  else
    match (← get).curenv with
    | none => throw (.undefined "curenv->env_id")
    | some curenv =>
        if (← get).hasId curenv envId then
          return (some curenv, true)
        else
          return searched

/-- The end of `sched_exit_env`: the last loop variable goes to the exit queue. -/
def exitFound (envId : Nat) (ptrEnv : Option Slot) : SchedM Unit := do
  schedInsertExit ptrEnv
  match (← get).curenv with
  | none => throw (.undefined "curenv->env_id")
  | some curenv =>
      if (← get).hasId curenv envId then
        modify fun state => { state with curenv := none }
        fosScheduler

def schedExitEnv (envId : Nat) : SchedM Unit := do
  let searched ← searchQueue .envNewQueue envId false fun env => schedRemoveNew env
  let searched ← searchReady envId (fun env => modifyQueues (·.listRemove .envReadyQueue env)) searched
  let searched ← searchCurenv envId searched
  if searched.2 then
    exitFound envId searched.1

def envExit : SchedM Unit := do
  match (← get).curenv with
  | none => throw (.undefined "curenv->env_id")
  | some curenv =>
      schedExitEnv (toUInt32 ((← get).envs curenv).envId)
      fosScheduler

/-- `_panic`, after the message. -/
def schedPanic : SchedM Unit := do
  match (← get).curenv with
  | some curenv =>
      if ((← get).envs curenv).envStatus = .runnable then
        envExit
  | none => return ()
  fosScheduler

def schedExitAllReadyEnvs : SchedM Unit := do
  if (← get).queues.first .envReadyQueue ≠ none then
    let _ ← foreachEnv .envReadyQueue () fun env _ => do
      modifyQueues (·.listRemove .envReadyQueue env)
      schedInsertExit env
      return .yield ()

/-- The end of `sched_kill_env`: the running environment. -/
def killCurenv (envId : Nat) : SchedM Unit := do
  match (← get).curenv with
  | none => throw (.undefined "curenv->env_id")
  | some curenv =>
      if (← get).hasId curenv envId then
        -- assert(ptr_env->env_id == ENV_RUNNABLE)
        if ((← get).envs curenv).envId ≠ 2 then
          schedPanic
        startEnvFree curenv
        modify fun state => { state with curenv := none }
        fosScheduler

def schedKillEnv (envId : Nat) : SchedM Unit := do
  let searched ← searchQueue .envNewQueue envId false fun env => do
    schedRemoveNew env
    startEnvFree env
  let searched ← searchReady envId (fun env => do
    modifyQueues (·.listRemove .envReadyQueue env)
    startEnvFree env) searched
  if ¬ searched.2 then
    let searched ← searchQueue .envExitQueue envId false fun env => do
      schedRemoveExit env
      startEnvFree env
    if ¬ searched.2 then
      killCurenv envId

/-- A loop of `sched_kill_all`. -/
def killQueue (queue : EnvList) (remove : Slot → SchedM Unit) : SchedM Unit := do
  if (← get).queues.first queue ≠ none then
    let _ ← foreachEnv queue () fun env _ => do
      remove env
      startEnvFree env
      return .yield ()

def schedKillAll : SchedM Unit := do
  killQueue .envNewQueue fun env => schedRemoveNew env
  killQueue .envReadyQueue fun env => modifyQueues (·.listRemove .envReadyQueue env)
  killQueue .envExitQueue fun env => schedRemoveExit env
  modify fun state => { state with curenv := none }
  fosScheduler

def clockInterruptHandler : SchedM Unit := fosScheduler

/-! ### The system -/

inductive SchedEvent where
  /-- `env_create`, and `sched_new_env` for what it returns. -/
  | create (known : Bool)
  | runEnv (envId : Nat)
  | runAll
  | clockInterrupt
  /-- The running environment exits. -/
  | exit
  | exitAllReadyEnvs
  | killEnv (envId : Nat)
  | killAll

def SchedEvent.program : SchedEvent → SchedM Unit
  | .create known => do schedNewEnv (← createEnv known)
  | .runEnv envId => schedRunEnv envId
  | .runAll => schedRunAll
  | .clockInterrupt => clockInterruptHandler
  | .exit => envExit
  | .exitAllReadyEnvs => schedExitAllReadyEnvs
  | .killEnv envId => schedKillEnv envId
  | .killAll => schedKillAll

/-- The state in which the kernel is entered again: after a return, in an environment or at the
prompt. -/
def leave : EStateM.Result Leave Scheduler Unit → Option Scheduler
  | .ok _ state => some state
  | .error .envRun state => some state
  | .error .commandPrompt state => some state
  | .error (.undefined _) _ => none
  | .error .endless _ => none

/-- As the kernel issues the operations: an environment that exits is running, one that is killed
is not while another one is, and all of them are killed at the prompt. -/
def SchedEvent.Proper (state : Scheduler) : SchedEvent → Prop
  | .create _ => True
  | .runEnv _ => True
  | .runAll => True
  | .clockInterrupt => True
  | .exit => state.curenv ≠ none
  | .exitAllReadyEnvs => True
  | .killEnv envId => ∃ curenv, state.curenv = some curenv ∧ ¬ state.hasId curenv envId
  | .killAll => state.curenv = none

/-- The scheduler after boot: `env_free_list` is static memory and `envs` any memory. -/
def scheduler : Foundation.System Scheduler SchedEvent where
  start state := ∃ blank : Scheduler, blank.curenv = none ∧
    blank.queues.heads .envFreeList = ⟨none, none, none, 0⟩ ∧ (envInit *> schedInit) blank = .ok () state
  exec state event := leave (event.program state)

end Fos.Sched
