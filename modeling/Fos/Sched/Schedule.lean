import Fos.Sched.Scheduler

/-! What the scheduler is for: environments in queues that are sequences, and the operations on
these. Every environment is in one place, and its status says where. -/

set_option autoImplicit false

namespace Fos.Sched

open Kernel (EnvStatus nenv)

/-- The scheduler with sequences for its lists. -/
structure Schedule where
  list : EnvList → List Slot
  envs : Slot → SchedEnv
  curenv : Option Slot
  schedulerStatus : SchedulerStatus

namespace Schedule

section Operations

variable (schedule : Schedule)

@[simps] def insert (queue : EnvList) (env : Slot) : Schedule :=
  { schedule with list := Function.update schedule.list queue (env :: schedule.list queue) }

@[simps] def remove (queue : EnvList) (env : Slot) : Schedule :=
  { schedule with list := Function.update schedule.list queue ((schedule.list queue).erase env) }

@[simps] def setEnv (env : Slot) (value : SchedEnv) : Schedule :=
  { schedule with envs := Function.update schedule.envs env value }

@[simps!] def setStatus (env : Slot) (status : EnvStatus) : Schedule :=
  schedule.setEnv env { schedule.envs env with envStatus := status }

def hasId (env : Slot) (envId : Nat) : Bool := toUInt32 (schedule.envs env).envId == envId

/-- An environment goes from one list to another. -/
@[simps!] def transfer (source target : EnvList) (value : SchedEnv) (env : Slot) : Schedule :=
  ((schedule.remove source env).setEnv env value).insert target env

def move (source target : EnvList) (status : EnvStatus) (env : Slot) : Schedule :=
  schedule.transfer source target { schedule.envs env with envStatus := status } env

def free (source : EnvList) (env : Slot) : Schedule :=
  schedule.transfer source .envFreeList ⟨0, .free⟩ env

/-- Every environment of a list goes to another one. -/
def moveAll (source target : EnvList) (status : EnvStatus) : Schedule :=
  (schedule.list source).foldl (fun schedule env => schedule.move source target status env) schedule

def freeAll (source : EnvList) : Schedule :=
  (schedule.list source).foldl (fun schedule env => schedule.free source env) schedule

/-- The running environment goes behind those that wait. -/
def preempt : Schedule :=
  match schedule.curenv with
  | none => schedule
  | some current => { schedule.insert .envReadyQueue current with curenv := none }

/-- The environment that waits longest runs. -/
def dispatch : Schedule :=
  match (schedule.list .envReadyQueue).getLast? with
  | none => { schedule with schedulerStatus := .stopped }
  | some nextEnv =>
      { (schedule.remove .envReadyQueue nextEnv).setStatus nextEnv .runnable with
        curenv := some nextEnv, schedulerStatus := .started }

def reschedule : Schedule := schedule.preempt.dispatch

def startIfStopped : Schedule :=
  if schedule.schedulerStatus = .stopped then schedule.reschedule else schedule

/-- The id a free environment gets, from the one it has. -/
def nextId (env : Slot) (envId : Int) : Int :=
  let candidate := toInt32 (toUInt32 (envId + 0x1000) &&& (wordSize - 1 - (nenv - 1)))
  let generation := if candidate ≤ 0 then 0x1000 else candidate
  toInt32 (toUInt32 generation ||| env)

def create (known : Bool) : Schedule :=
  match known, schedule.list .envFreeList with
  | true, env :: _ =>
      schedule.transfer .envFreeList .envNewQueue ⟨nextId env (schedule.envs env).envId, .new⟩ env
  | true, [] => schedule
  | false, _ => schedule

/-- The running environment exits. -/
def exit (current : Slot) : Schedule :=
  { (schedule.setStatus current .exit).insert .envExitQueue current with curenv := none }

def find (queue : EnvList) (envId : Nat) : Option Slot :=
  (schedule.list queue).find? (schedule.hasId · envId)

def run (envId : Nat) : Schedule :=
  match schedule.find .envNewQueue envId with
  | none => schedule
  | some env => (schedule.move .envNewQueue .envReadyQueue .ready env).startIfStopped

def kill (envId : Nat) : Schedule :=
  match schedule.find .envNewQueue envId, schedule.find .envReadyQueue envId, schedule.find .envExitQueue envId with
  | some env, _, _ => schedule.free .envNewQueue env
  | none, some env, _ => schedule.free .envReadyQueue env
  | none, none, some env => schedule.free .envExitQueue env
  | none, none, none => schedule

end Operations

/-- What an event does to the sequences. -/
def after (schedule : Schedule) : SchedEvent → Schedule
  | .create known => schedule.create known
  | .runEnv envId => schedule.run envId
  | .runAll => (schedule.moveAll .envNewQueue .envReadyQueue .ready).startIfStopped
  | .clockInterrupt => schedule.reschedule
  | .exit =>
      match schedule.curenv with
      | none => schedule
      | some current => (schedule.exit current).reschedule
  | .exitAllReadyEnvs => schedule.moveAll .envReadyQueue .envExitQueue .exit
  | .killEnv envId => schedule.kill envId
  | .killAll =>
      (((schedule.freeAll .envNewQueue).freeAll .envReadyQueue).freeAll .envExitQueue).reschedule

end Schedule

/-! ### Places -/

inductive Place where
  | inList (list : EnvList)
  | running

/-- The statuses of the environments in a place. -/
def Place.Fits : Place → EnvStatus → Prop
  | .inList .envFreeList, status => status = .free
  | .inList .envNewQueue, status => status = .new
  | .inList .envExitQueue, status => status = .exit
  | .inList .envReadyQueue, status => status = .ready ∨ status = .runnable
  | .running, status => status = .ready ∨ status = .runnable

/-- The id of a free environment is cleared, and every other one has the first of its slot. -/
def SchedEnv.Identified (env : Slot) (value : SchedEnv) : Prop :=
  value.envId = if value.envStatus = .free then 0 else 0x1000 + (env.val : Int)

namespace Schedule

/-- Where an environment is, and that it is nowhere else. -/
structure Lies (schedule : Schedule) (env : Slot) (place : Place) : Prop where
  list : ∀ queue, env ∈ schedule.list queue ↔ place = .inList queue
  running : schedule.curenv = some env ↔ place = .running

structure Sound (schedule : Schedule) : Prop where
  nodup : ∀ queue, (schedule.list queue).Nodup
  placed : ∀ env, ∃ place, schedule.Lies env place ∧ place.Fits (schedule.envs env).envStatus
  identified : ∀ env, (schedule.envs env).Identified env

end Schedule

end Fos.Sched
