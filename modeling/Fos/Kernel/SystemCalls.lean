import Fos.Kernel.EnvironmentIds
import Fos.Kernel.RequiredFrames
import Fos.Kernel.ScarceMemory
import Fos.Kernel.System

/-! `syscall` of `kern/syscall.c`: what a system call loads, stores and prints through the pointers the
environment gives it, and what it does to the kernel. The value a call returns is left out. -/

set_option autoImplicit false

namespace Fos.Kernel

open Foundation

/-- `struct Semaphore`, without its value and its queue. -/
structure Semaphore where
  empty : Bool
  ownerID : Int
  name : List (BitVec 8)

/-- The machine as a system call finds it. Addresses are virtual, in the address space of the environment. -/
structure CallState where
  kernel : KernelState
  /-- A load of the kernel completes, if need be after `fault_handler` has brought the page. -/
  loads : Nat → Bool
  /-- A store of a word completes. -/
  stores : Nat → Bool
  byte : Nat → BitVec 8
  /-- The environment may load the byte itself. -/
  userReadable : Nat → Bool
  semaphores : List Semaphore
  userPrograms : List UserProgram
  /-- What `rdtsc` delivers, the low word first. -/
  virtualTime : Nat × Nat
  memoryScarceThresholdPercentage : Nat
  uHeapPlacementStrategy : Nat
  bypassInstrLength : Nat
  tstcnt : Nat
  /-- The bytes that were stored to through a pointer of the environment. -/
  stored : List Nat
  console : List (BitVec 8)

abbrev CallM := EStateM Stop CallState

/-- Code of the kernel that follows no pointer of the environment. -/
def inKernel {Result : Type} (code : KernelM Result) : CallM Result := fun state =>
  match code state.kernel with
  | .ok result kernel => .ok result { state with kernel }
  | .error stop kernel => .error stop { state with kernel }

/-! ### User pointers -/

/-- The four bytes of a word. -/
def wordAddresses (address : Nat) : List Nat := (List.range 4).map fun offset => (address + offset) % wordSize

/-- `fault_handler` does not serve a fault of the kernel. -/
def unservedFault {Result : Type} (address : Nat) : CallM Result :=
  if userLimit ≤ address ∧ address < kernelStackTop - kernelStackSize then
    throw (.panic "Kernel: stack overflow exception!")
  else
    throw (.panic "Illegal memory access to page that's not exist in Page File and not STACK\n")

def loadByte (address : Nat) : CallM (BitVec 8) := do
  let state ← get
  if state.loads address then return state.byte address
  else unservedFault address

def loadWord (address : Nat) : CallM Nat := do
  let bytes ← (wordAddresses address).mapM loadByte
  return bytes.foldr (fun byte word => byte.toNat + 256 * word) 0

def storeWord (address word : Nat) : CallM Unit := do
  let state ← get
  if state.stores address then
    set { state with
      byte := fun other => match (wordAddresses address).idxOf? other with
        | none => state.byte other
        | some offset => BitVec.ofNat 8 (word / 256 ^ offset)
      stored := state.stored ++ wordAddresses address }
  else unservedFault address

/-- `strcmp(p, q)` with a pointer of the environment and a string of the kernel. -/
def strcmp : Nat → List (BitVec 8) → CallM Int
  | p, [] => do
      let ch ← loadByte p
      return ch.toNat
  | p, expected :: rest => do
      let ch ← loadByte p
      if ch ≠ 0 ∧ ch = expected then strcmp ((p + 1) % wordSize) rest
      else return (ch.toNat : Int) - expected.toNat

/-! ### Printing -/

def textBytes (text : String) : List (BitVec 8) := text.toList.map fun char => BitVec.ofNat 8 char.toNat

def putChars (chars : List (BitVec 8)) : CallM Unit :=
  modify fun state => { state with console := state.console ++ chars }

def putText (text : String) : CallM Unit := putChars (textBytes text)

def putDecimal (value : Int) : CallM Unit := putText (toString value)

/-- Eight digits with leading zeros, as `%08x` prints them. -/
def putHexadecimal (value : Int) : CallM Unit :=
  let digits := Nat.toDigits 16 (toUInt32 value)
  putText (String.ofList (List.replicate (8 - digits.length) '0' ++ digits))

/-- `--precision`, which a negative precision is spared. -/
def nextPrecision (precision : Int) : Int := if precision < 0 then precision else precision - 1

/-- `for (; (ch = *p++) != '\0' && (precision < 0 || --precision >= 0); width--)`: `width` starts at 0, so that
after 2^31 rounds it has no value to go on with. -/
def putBytes : Nat → Nat → Int → CallM Unit
  | 0, _, _ => throw (.undefined "width--")
  | rounds + 1, p, precision => do
      let ch ← loadByte p
      if ch ≠ 0 ∧ precision ≠ 0 then
        putChars [ch]
        putBytes rounds ((p + 1) % wordSize) (nextPrecision precision)

abbrev widthRounds : Nat := 0x80000001

/-- `%s`, with the precision of `%.*s` or -1. -/
def putString (p : Nat) (precision : Int) : CallM Unit :=
  if p = 0 then
    let null := textBytes "(null)"
    putChars (if precision < 0 then null else null.take precision.toNat)
  else
    putBytes widthRounds p precision

/-! ### The calls that follow a pointer -/

def currentEnv : CallM (Nat × Env) := do
  let state ← get
  match state.kernel.curenv with
  | none => throw (.undefined "curenv == NULL")
  | some current => return (current, state.kernel.envs current)

/-- The tag `sys_cputs` prints in front of a text: program and environment. -/
def putProgName : CallM Unit := do
  let current ← currentEnv
  putText "["
  putText current.2.progName
  putText " "
  putDecimal current.2.envId
  putText "] "

/-- The permission check is left out in the source. -/
def sysCputs (s : Nat) (len : Int) (printProgName : Nat) : CallM Unit := do
  if printProgName ≠ 0 then
    putProgName
  putString s len

/-- `get_semaphore_object_ID`: the index, or `none` for `E_SEMAPHORE_NOT_EXISTS`. -/
def getSemaphoreObjectID (ownerID : Int) (name : Nat) : List Semaphore → Nat → CallM (Option Nat)
  | [], _ => return none
  | semaphore :: rest, index => do
      if semaphore.empty = false ∧ semaphore.ownerID = ownerID then
        if (← strcmp name semaphore.name) = 0 then
          return some index
      getSemaphoreObjectID ownerID name rest (index + 1)

def sysGetSemaphoreValue (ownerEnvID : Int) (semaphoreName : Nat) : CallM Unit := do
  match ← getSemaphoreObjectID ownerEnvID semaphoreName (← get).semaphores 0 with
  | none => throw (.panic "assertion failed: semID >= 0 && semID < MAX_SEMAPHORES")
  | some _ => return ()

def getUserProgramInfo (userProgramName : Nat) : List UserProgram → CallM (Option UserProgram)
  | [] => do
      putText "Unknown user program '"
      putString userProgramName (-1)
      putText "'\n"
      return none
  | program :: rest => do
      if (← strcmp userProgramName (textBytes program.name)) = 0 then
        return some program
      getUserProgramInfo userProgramName rest

def sysCreateEnv (programName pageWSSize lruSecondListSize : Nat) : CallM Unit := do
  match ← getUserProgramInfo programName (← get).userPrograms with
  | none => return ()
  | some program => inKernel (createAndSchedule program pageWSSize lruSecondListSize)

/-- The time is stored through the two user addresses as they come. -/
def sysGetVirtualTime (ptrlow ptrhi : Nat) : CallM Unit := do
  let res := (← get).virtualTime
  storeWord ptrlow res.1
  storeWord ptrhi res.2

/-- `LIST_FOREACH` over the pages of a list, up to the first that differs from `content[idx]`. -/
def checkList (content : Nat) : List Nat → Nat → CallM Unit
  | [], _ => return ()
  | address :: rest, idx => do
      let expected ← loadWord ((content + 4 * idx) % wordSize)
      if roundDown address = roundDown expected then
        checkList content rest (idx + 1)

def sysCheckLRULists (activeListContent secondListContent : Nat) : CallM Unit := do
  let current ← currentEnv
  if activeListContent ≠ 0 then
    checkList activeListContent (current.2.addresses current.2.activeList) 0
  if secondListContent ≠ 0 then
    checkList secondListContent (current.2.addresses current.2.secondList) 0

/-- Whether a page is among `content[var]` and the `remaining` words. -/
def searchList (content address : Nat) : Nat → Nat → CallM Bool
  | 0, _ => return false
  | remaining + 1, var => do
      let expected ← loadWord ((content + 4 * var) % wordSize)
      if roundDown address = roundDown expected then return true
      else searchList content address remaining (var + 1)

/-- The first page that is found ends both loops. -/
def checkListFree (content size : Nat) : List Nat → CallM Unit
  | [] => return ()
  | address :: rest => do
      if !(← searchList content address size 0) then
        checkListFree content size rest

def sysCheckLRUListsFree (listContent : Nat) (listSize : Int) : CallM Unit := do
  let current ← currentEnv
  checkListFree listContent listSize.toNat
    (current.2.addresses current.2.activeList ++ current.2.addresses current.2.secondList)

/-! ### The other calls -/

/-- The environment of a queue with an id. -/
def KernelState.queued (state : KernelState) (envId : Int) (queue : List Nat) : Option Nat :=
  queue.find? fun slot => (state.envs slot).envId = envId

/-- `sched_run_env`, while the scheduler runs. -/
def schedRunEnv (envId : Int) : KernelM Unit := do
  let state ← get
  match state.queued envId state.envNewQueue with
  | none => return ()
  | some slot => modify (schedStart slot)

def envRunnable : Int := 2

/-- What `sched_kill_env` prints of an environment. -/
def putKilled (opening : String) (env : Env) (closing : String) : CallM Unit := do
  putText opening
  putDecimal env.envId
  putText "] "
  putText env.progName
  putText closing

/-- An environment of a queue is killed. -/
def schedKillQueued (slot : Nat) (place : String) : CallM Unit := do
  putKilled "killing[" ((← get).kernel.envs slot) place
  inKernel (modify (schedRemove slot))
  inKernel (envFree slot)
  putText "DONE\n"

def schedKillRunnable (current : Nat) (env : Env) : CallM Unit := do
  putKilled "killing a RUNNABLE environment [" env "..."
  inKernel (envFree current)
  putText "DONE\n"
  inKernel (modify fun kernel => fosScheduler { kernel with
    curenv := none
    cr3 := toPhysicalAddress kernel.ptrPageDirectory })

/-- The assertion compares the id of the environment with a status. -/
def schedKillCurrent (envId : Int) : CallM Unit := do
  let current ← currentEnv
  if current.2.envId ≠ envId then
    return ()
  else if current.2.envId ≠ envRunnable then
    throw (.panic "assertion failed: ptr_env->env_id == ENV_RUNNABLE")
  else
    schedKillRunnable current.1 current.2

def schedKillEnv (envId : Int) : CallM Unit := do
  let kernel := (← get).kernel
  match kernel.queued envId kernel.envNewQueue with
  | some slot => schedKillQueued slot " from the NEW queue..."
  | none =>
      match kernel.queued envId kernel.envReadyQueue with
      | some slot => schedKillQueued slot " from the READY queue #0..."
      | none =>
          match kernel.queued envId kernel.envExitQueue with
          | some slot => schedKillQueued slot " from the EXIT queue..."
          | none => schedKillCurrent envId

/-- What `sys_env_destroy` prints. -/
def putDestroyed (current : Nat × Env) (slot : Nat) (target : Env) : CallM Unit := do
  putText "["
  putHexadecimal current.2.envId
  if slot = current.1 then
    putText "] exiting gracefully\n"
  else
    putText "] destroying "
    putHexadecimal target.envId
    putText "\n"

def sysEnvDestroy (envid : Int) : CallM Unit := do
  let found ← inKernel (envid2env envid false)
  match found.2 with
  | none => return ()
  | some slot =>
      let target := (← get).kernel.envs slot
      putDestroyed (← currentEnv) slot target
      schedKillEnv target.envId

/-- The rounds a loop of `calculate_required_frames` that ends has at most. -/
abbrev requiredRounds : Nat := 0x100001

def sysCalculateRequiredFrames (start size : Nat) : CallM Unit := do
  let current ← currentEnv
  match ← inKernel (calculateRequiredFrames requiredRounds current.2.envPageDirectory start size) with
  | none => throw (.undefined "the loop does not end")
  | some _ => return ()

def sysClearFFL : CallM Unit := do
  let state ← get
  inKernel (loopFrom (fun _ => allocateAndForget) 0 state.kernel.freeFrameList.length)

def tstHolds (n v1 : Nat) (c : Char) (inv : Bool) : Bool :=
  match c with
  | 'l' => n < v1 || inv
  | 'g' => n > v1 || inv
  | 'e' => n == v1 || inv
  | 'b' => n ≥ v1 && n ≤ v1
  | _ => false

/-- `v2` is compared with nothing. -/
def tst (n v1 _v2 c inv : Nat) : CallM Unit :=
  if tstHolds n v1 (Char.ofNat (c % 256)) (inv != 0) then
    modify fun state => { state with tstcnt := (state.tstcnt + 1) % wordSize }
  else
    throw (.panic "Error!! test fails")

def chktst (n : Nat) : CallM Unit := do
  if (← get).tstcnt = n then
    putText "\nCongratulations... test runs successfully\n"
  else
    throw (.panic "Error!! test fails at final")

/-! ### Dispatch -/

/-- The system call numbers of `inc/syscall.h`. -/
inductive SyscallNumber where
  | cputs | cgetc | getenvid | getenvindex | getparentenvid | envDestroy | envExit | allocatePage | mapFrame | unmapFrame
  | calcReqFrames | calcFreeFrames | calcModifiedFrames | calcNotmodFrames | pfCalcAllocatedPages
  | calculatePagesTobeRemovedReadyExit | scarceMemory | freeMem | allocateMem | moveMem | disableINTR | enableINTR | cputc
  | clearFFL | createSemaphore | waitSemaphore | signalSemaphore | getSemaphoreValue | createSharedObject
  | getSizeOfSharedObject | getSharedObject | freeSharedObject | getMaxShares | createEnv | runEnv | freeEnv | getVirtualTime
  | rcr2 | bypassPageFault | testNum | rsttst | chktst | inctst | gettst | getHeapStrategy | setHeapStrategy
  | checkLRULists | checkLRUListsFree
  deriving DecidableEq, Repr

/-- In the order of their numbers, from 0 on. -/
def syscallNumbers : List SyscallNumber :=
  [.cputs, .cgetc, .getenvid, .getenvindex, .getparentenvid, .envDestroy, .envExit, .allocatePage, .mapFrame, .unmapFrame,
    .calcReqFrames, .calcFreeFrames, .calcModifiedFrames, .calcNotmodFrames, .pfCalcAllocatedPages,
    .calculatePagesTobeRemovedReadyExit, .scarceMemory, .freeMem, .allocateMem, .moveMem, .disableINTR, .enableINTR, .cputc,
    .clearFFL, .createSemaphore, .waitSemaphore, .signalSemaphore, .getSemaphoreValue, .createSharedObject,
    .getSizeOfSharedObject, .getSharedObject, .freeSharedObject, .getMaxShares, .createEnv, .runEnv, .freeEnv, .getVirtualTime,
    .rcr2, .bypassPageFault, .testNum, .rsttst, .chktst, .inctst, .gettst, .getHeapStrategy, .setHeapStrategy,
    .checkLRULists, .checkLRUListsFree]

/-- The argument registers of a system call. -/
structure Arguments where
  a1 : BitVec 32
  a2 : BitVec 32
  a3 : BitVec 32
  a4 : BitVec 32
  a5 : BitVec 32

def notRequired : CallM Unit := throw (.panic "this function is not required...!!")

/-- The calls of the running environment that run in the kernel. -/
def forCurrent {Result : Type} (code : Nat → KernelM Result) : CallM Unit := do
  let current ← currentEnv
  let _ ← inKernel (code current.1)

def SyscallNumber.serve (arguments : Arguments) : SyscallNumber → CallM Unit
  | .cputs => sysCputs arguments.a1.toNat arguments.a2.toInt (arguments.a3.toNat % 256)
  | .envDestroy => sysEnvDestroy (arguments.a1.toInt)
  | .envExit => forCurrent fun current => modify (Kernel.envExit current)
  | .calcReqFrames => sysCalculateRequiredFrames arguments.a1.toNat arguments.a2.toNat
  | .scarceMemory => do
      let state ← get
      inKernel (Kernel.scarceMemory state.memoryScarceThresholdPercentage)
  | .freeMem => forCurrent fun current => Kernel.freeMem current arguments.a1.toNat arguments.a2.toNat
  | .allocatePage => forCurrent fun current => sysAllocatePage current arguments.a1.toNat arguments.a2.toNat
  | .mapFrame => throw (.panic "sys_map_frame not implemented")
  | .unmapFrame => throw (.panic "sys_page_unmap not implemented")
  | .allocateMem => forCurrent fun current => Kernel.allocateMem current arguments.a1.toNat arguments.a2.toNat
  | .cputc => putChars [arguments.a1.setWidth 8]
  | .clearFFL => sysClearFFL
  | .createSemaphore | .waitSemaphore | .signalSemaphore => notRequired
  | .getSemaphoreValue => sysGetSemaphoreValue (arguments.a1.toInt) arguments.a2.toNat
  | .createSharedObject | .getSharedObject | .freeSharedObject | .getSizeOfSharedObject => notRequired
  | .createEnv => sysCreateEnv arguments.a1.toNat arguments.a2.toNat arguments.a3.toNat
  | .freeEnv => schedKillEnv (arguments.a1.toInt)
  | .runEnv => inKernel (schedRunEnv (arguments.a1.toInt))
  | .getVirtualTime => sysGetVirtualTime arguments.a1.toNat arguments.a2.toNat
  | .moveMem => throw (.panic "moveMem() is not required!!")
  | .bypassPageFault => modify fun state => { state with bypassInstrLength := arguments.a1.toNat % 256 }
  | .rsttst => modify fun state => { state with tstcnt := 0 }
  | .inctst => modify fun state => { state with tstcnt := (state.tstcnt + 1) % wordSize }
  | .chktst => Kernel.chktst arguments.a1.toNat
  | .testNum => tst arguments.a1.toNat arguments.a2.toNat arguments.a3.toNat arguments.a4.toNat arguments.a5.toNat
  | .setHeapStrategy => modify fun state => { state with uHeapPlacementStrategy := arguments.a1.toNat }
  | .checkLRULists => sysCheckLRULists arguments.a1.toNat arguments.a2.toNat
  | .checkLRUListsFree => sysCheckLRUListsFree arguments.a1.toNat (arguments.a2.toInt)
  -- These only return something, or change the saved flags and the input buffer.
  | .cgetc | .getenvindex | .getenvid | .getparentenvid | .calcFreeFrames | .calcModifiedFrames | .calcNotmodFrames
  | .pfCalcAllocatedPages | .calculatePagesTobeRemovedReadyExit | .disableINTR | .enableINTR | .getMaxShares | .rcr2
  | .gettst | .getHeapStrategy => return ()

/-- A number that is no call's is refused. -/
def syscall (syscallno : Nat) (arguments : Arguments) : CallM Unit :=
  match syscallNumbers[syscallno]? with
  | none => return ()
  | some call => call.serve arguments

end Fos.Kernel
