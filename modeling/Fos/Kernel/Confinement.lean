import Fos.Kernel.SystemCalls
import Fos.Kernel.SystemProperties

/-! Which system calls are confined to the memory of the environment that makes them. -/

set_option autoImplicit false

namespace Fos.Kernel

open Foundation

variable {Result Other : Type} {state other : CallState}

/-- The address of a byte of a string. -/
def byteAddress (s index : Nat) : Nat := (s + index) % wordSize

/-- The precision lets a string have a byte at `index`. -/
def Within (rounds : Nat) (precision : Int) (index : Nat) : Prop :=
  index < rounds ∧ (precision < 0 ∨ (index : Int) < precision)

namespace CallState

/-- A call begins. -/
def fresh (state : CallState) : CallState := { state with stored := [], console := [] }

/-- What a call leaves, whether it comes back or not, with what it stored and printed itself. -/
def after (state : CallState) (syscallno : Nat) (arguments : Arguments) : CallState :=
  match syscall syscallno arguments state.fresh with
  | .ok _ next => next
  | .error _ next => next

/-- The machines differ at most in bytes the environment may not read. -/
structure SameView (state other : CallState) : Prop where
  rest : other = { state with byte := other.byte }
  readable : ∀ address, state.userReadable address → other.byte address = state.byte address

/-- The call stores to nothing from `USER_TOP` on, and `SYS_cputs` prints nothing the environment may not read. -/
structure Confined (state : CallState) (syscallno : Nat) (arguments : Arguments) : Prop where
  stores : ∀ address ∈ (state.after syscallno arguments).stored, address < userTop
  prints : syscallNumbers[syscallno]? = some .cputs → ∀ other, state.SameView other →
    (other.after syscallno arguments).console = (state.after syscallno arguments).console

/-- The bytes of a string before `index` are loaded, and none of them ends it. -/
def Goes (state : CallState) (s index : Nat) : Prop :=
  ∀ before < index, state.loads (byteAddress s before) ∧ state.byte (byteAddress s before) ≠ 0

/-- The environment may read what is looked at of a string. -/
def ReadsOwn (state : CallState) (s : Nat) (precision : Int) : Prop :=
  ∀ index, Within widthRounds precision index → state.Goes s index → state.loads (byteAddress s index) →
    state.userReadable (byteAddress s index)

def Below (address : Nat) : Prop := ∀ byte ∈ wordAddresses address, byte < userTop

/-- The words that are stored to lie below `USER_TOP`. -/
def StoresBelow (state : CallState) (ptrlow ptrhi : Nat) : Prop :=
  state.stores ptrlow → Below ptrlow ∧ (state.stores ptrhi → Below ptrhi)

end CallState

open CallState

/-! ### Calls that store nothing -/

/-- The code stores to nothing, whether it comes back or not. -/
def Storeless (code : CallM Result) : Prop :=
  ∀ state, wp code (fun _ next => next.stored = state.stored) (fun _ next => next.stored = state.stored) state

namespace Storeless

theorem pure (result : Result) : Storeless (Pure.pure result : CallM Result) := fun _ => rfl

theorem throw (stop : Stop) : Storeless (MonadExcept.throw stop : CallM Result) := fun _ => rfl

theorem get : Storeless (MonadState.get : CallM CallState) := fun _ => rfl

theorem modify {change : CallState → CallState} (same : ∀ state, (change state).stored = state.stored) :
    Storeless (modify change : CallM Unit) := same

theorem bind {code : CallM Other} {continuation : Other → CallM Result} (first : Storeless code)
    (second : ∀ result, Storeless (continuation result)) : Storeless (code >>= continuation) := by
  intro state
  rw [wp_bind]
  apply wp_mono (first state)
  · intro result next same
    apply wp_mono (second result next)
    · exact fun _ _ again => again.trans same
    · exact fun _ _ again => again.trans same
  · exact fun _ _ same => same

theorem ite {condition : Prop} [Decidable condition] {yes no : CallM Result} (first : Storeless yes) (second : Storeless no) :
    Storeless (if condition then yes else no) := by
  split
  · exact first
  · exact second

theorem inKernel (code : KernelM Result) : Storeless (inKernel code) := by
  intro state
  unfold wp Kernel.inKernel
  cases code state.kernel <;> rfl

theorem putChars (chars : List (BitVec 8)) : Storeless (putChars chars) := modify fun _ => rfl

theorem putText (text : String) : Storeless (putText text) := putChars _

theorem unservedFault (address : Nat) : Storeless (unservedFault address : CallM Result) := ite (throw _) (throw _)

theorem loadByte (address : Nat) : Storeless (loadByte address) :=
  bind get fun _ => ite (pure _) (unservedFault _)

theorem mapM {code : Nat → CallM Result} (each : ∀ value, Storeless (code value)) (values : List Nat) :
    Storeless (values.mapM code) := by
  induction values with
  | nil => exact pure _
  | cons value values ih =>
      rw [List.mapM_cons]
      exact bind (each value) fun _ => bind ih fun _ => pure _

theorem loadWord (address : Nat) : Storeless (loadWord address) := bind (mapM loadByte _) fun _ => pure _

theorem strcmp (p : Nat) (expected : List (BitVec 8)) : Storeless (strcmp p expected) := by
  induction expected generalizing p with
  | nil => exact bind (loadByte p) fun _ => pure _
  | cons char rest ih => exact bind (loadByte p) fun _ => ite (ih _) (pure _)

theorem putBytes (rounds p : Nat) (precision : Int) : Storeless (putBytes rounds p precision) := by
  induction rounds generalizing p precision with
  | zero => exact throw _
  | succ rounds ih => exact bind (loadByte p) fun _ => ite (bind (putChars _) fun _ => ih _ _) (pure _)

theorem putString (p : Nat) (precision : Int) : Storeless (putString p precision) := ite (putChars _) (putBytes _ _ _)

theorem currentEnv : Storeless currentEnv := by
  apply bind get
  intro state
  cases state.kernel.curenv with
  | none => exact throw _
  | some current => exact pure _

theorem getSemaphoreObjectID (ownerID : Int) (name : Nat) (semaphores : List Semaphore) (index : Nat) :
    Storeless (getSemaphoreObjectID ownerID name semaphores index) := by
  induction semaphores generalizing index with
  | nil => exact pure _
  | cons semaphore rest ih => exact ite (bind (strcmp _ _) fun _ => ite (pure _) (ih _)) (ih _)

theorem getUserProgramInfo (userProgramName : Nat) (programs : List UserProgram) :
    Storeless (getUserProgramInfo userProgramName programs) := by
  induction programs with
  | nil => exact bind (putText _) fun _ => bind (putString _ _) fun _ => bind (putText _) fun _ => pure _
  | cons program rest ih => exact bind (strcmp _ _) fun _ => ite (pure _) ih

theorem sysGetSemaphoreValue (ownerEnvID : Int) (semaphoreName : Nat) :
    Storeless (sysGetSemaphoreValue ownerEnvID semaphoreName) := by
  apply bind get
  intro state
  apply bind (getSemaphoreObjectID _ _ _ _)
  intro found
  cases found with
  | none => exact throw _
  | some => exact pure _

theorem sysCreateEnv (programName pageWSSize lruSecondListSize : Nat) :
    Storeless (sysCreateEnv programName pageWSSize lruSecondListSize) := by
  apply bind get
  intro state
  apply bind (getUserProgramInfo _ _)
  intro found
  cases found with
  | none => exact pure _
  | some program => exact inKernel _

theorem checkList (content : Nat) (pages : List Nat) (idx : Nat) : Storeless (checkList content pages idx) := by
  induction pages generalizing idx with
  | nil => exact pure _
  | cons page rest ih => exact bind (loadWord _) fun _ => ite (ih _) (pure _)

theorem searchList (content address remaining var : Nat) : Storeless (searchList content address remaining var) := by
  induction remaining generalizing var with
  | zero => exact pure _
  | succ remaining ih => exact bind (loadWord _) fun _ => ite (pure _) (ih _)

theorem checkListFree (content size : Nat) (pages : List Nat) : Storeless (checkListFree content size pages) := by
  induction pages with
  | nil => exact pure _
  | cons page rest ih => exact bind (searchList _ _ _ _) fun _ => ite ih (pure _)

theorem sysCheckLRULists (activeListContent secondListContent : Nat) :
    Storeless (sysCheckLRULists activeListContent secondListContent) := by
  apply bind currentEnv
  intro current
  exact ite (bind (checkList _ _ _) fun _ => ite (checkList _ _ _) (pure _)) (ite (checkList _ _ _) (pure _))

theorem putKilled (opening : String) (env : Env) (closing : String) : Storeless (putKilled opening env closing) :=
  bind (putText _) fun _ => bind (putText _) fun _ => bind (putText _) fun _ => bind (putText _) fun _ => putText _

theorem schedKillEnv (envId : Int) : Storeless (schedKillEnv envId) := by
  have queued (slot : Nat) (place : String) : Storeless (schedKillQueued slot place) :=
    bind get fun _ => bind (putKilled _ _ _) fun _ => bind (inKernel _) fun _ => bind (inKernel _) fun _ => putText _
  have runnable (current : Nat) (env : Env) : Storeless (schedKillRunnable current env) :=
    bind (putKilled _ _ _) fun _ => bind (inKernel _) fun _ => bind (putText _) fun _ => inKernel _
  apply bind get
  intro state
  cases new : state.kernel.queued envId state.kernel.envNewQueue with
  | some slot =>
      simp only [new]
      exact queued _ _
  | none =>
      cases ready : state.kernel.queued envId state.kernel.envReadyQueue with
      | some slot =>
          simp only [new, ready]
          exact queued _ _
      | none =>
          cases exited : state.kernel.queued envId state.kernel.envExitQueue with
          | some slot =>
              simp only [new, ready, exited]
              exact queued _ _
          | none =>
              simp only [new, ready, exited]
              exact bind currentEnv fun _ => ite (pure _) (ite (throw _) (runnable _ _))

theorem sysEnvDestroy (envid : Int) : Storeless (sysEnvDestroy envid) := by
  have destroyed (current : Nat × Env) (slot : Nat) (target : Env) : Storeless (putDestroyed current slot target) :=
    bind (putText _) fun _ => bind (putText _) fun _ =>
      ite (putText _) (bind (putText _) fun _ => bind (putText _) fun _ => putText _)
  apply bind (inKernel _)
  intro found
  split
  · exact pure _
  · exact bind get fun _ => bind currentEnv fun _ => bind (destroyed _ _ _) fun _ => schedKillEnv _

theorem sysCalculateRequiredFrames (start size : Nat) : Storeless (sysCalculateRequiredFrames start size) := by
  apply bind currentEnv
  intro current
  apply bind (inKernel _)
  intro counted
  cases counted with
  | none => exact throw _
  | some => exact pure _

theorem sysCputs (s : Nat) (len : Int) (printProgName : Nat) : Storeless (sysCputs s len printProgName) := by
  have named : Storeless putProgName := bind currentEnv fun _ => bind (putText _) fun _ => bind (putText _) fun _ =>
    bind (putText _) fun _ => bind (putText _) fun _ => putText _
  exact ite (bind named fun _ => putString _ _) (putString _ _)

theorem forCurrent (code : Nat → KernelM Result) : Storeless (forCurrent code) :=
  bind currentEnv fun _ => bind (inKernel _) fun _ => pure _

/-- `SYS_get_virtual_time` is the only call that stores through a pointer it is given. -/
theorem serve {call : SyscallNumber} (other : call ≠ .getVirtualTime) (arguments : Arguments) :
    Storeless (call.serve arguments) := by
  cases call <;> unfold SyscallNumber.serve
  case cputs => exact sysCputs _ _ _
  case envDestroy => exact sysEnvDestroy _
  case envExit => exact forCurrent _
  case allocatePage => exact forCurrent _
  case freeMem => exact forCurrent _
  case allocateMem => exact forCurrent _
  case calcReqFrames => exact sysCalculateRequiredFrames _ _
  case scarceMemory => exact bind get fun _ => inKernel _
  case clearFFL => exact bind get fun _ => inKernel _
  case cputc => exact putChars _
  case getSemaphoreValue => exact sysGetSemaphoreValue _ _
  case createEnv => exact sysCreateEnv _ _ _
  case freeEnv => exact schedKillEnv _
  case runEnv => exact inKernel _
  case checkLRULists => exact sysCheckLRULists _ _
  case checkLRUListsFree => exact bind currentEnv fun _ => checkListFree _ _ _
  case testNum => exact ite (modify fun _ => rfl) (throw _)
  case chktst => exact bind get fun _ => ite (putText _) (throw _)
  case bypassPageFault => exact modify fun _ => rfl
  case rsttst => exact modify fun _ => rfl
  case inctst => exact modify fun _ => rfl
  case setHeapStrategy => exact modify fun _ => rfl
  case getVirtualTime => exact absurd rfl other
  -- What is left panics at once, or does nothing of this.
  all_goals first | exact throw _ | exact pure _

end Storeless

/-! ### Stores -/

theorem CallState.after_of_wp {syscallno : Nat} {arguments : Arguments} (good : CallState → Prop)
    (holds : wp (syscall syscallno arguments) (fun _ => good) (fun _ => good) state.fresh) :
    good (state.after syscallno arguments) := by
  unfold wp at holds
  unfold CallState.after
  cases outcome : syscall syscallno arguments state.fresh with
  | ok result next =>
      rw [outcome] at holds
      exact holds
  | error stop next =>
      rw [outcome] at holds
      exact holds

theorem after_stored_of_ne {syscallno : Nat} (arguments : Arguments) (other : syscallNumbers[syscallno]? ≠ some .getVirtualTime) :
    (state.after syscallno arguments).stored = [] := by
  apply CallState.after_of_wp fun next => next.stored = []
  unfold syscall
  cases call : syscallNumbers[syscallno]? with
  | none => rfl
  | some served => exact Storeless.serve (fun same => other (call.trans (congrArg some same))) arguments state.fresh

theorem storeWord_spec (address word : Nat) :
    wp (storeWord address word) (fun _ next => state.stores address ∧ next.stores = state.stores ∧
      next.stored = state.stored ++ wordAddresses address)
      (fun _ next => ¬ state.stores address ∧ next = state) state := by
  unfold storeWord
  rw [wp_bind, wp_get, wp_ite]
  constructor
  · intro stores
    exact ⟨stores, rfl, rfl⟩
  · intro refused
    unfold unservedFault
    rw [wp_ite]
    exact ⟨fun _ => ⟨refused, rfl⟩, fun _ => ⟨refused, rfl⟩⟩

/-- The words `SYS_get_virtual_time` stores to. -/
theorem after_stored_virtualTime {syscallno : Nat} (arguments : Arguments)
    (call : syscallNumbers[syscallno]? = some .getVirtualTime) :
    (state.after syscallno arguments).stored =
      if state.stores arguments.a1.toNat then
        wordAddresses arguments.a1.toNat ++ if state.stores arguments.a2.toNat then wordAddresses arguments.a2.toNat else []
      else [] := by
  refine CallState.after_of_wp (fun next => next.stored = _) ?_
  unfold syscall
  rw [call]
  change wp (sysGetVirtualTime arguments.a1.toNat arguments.a2.toNat) _ _ _
  unfold sysGetVirtualTime
  rw [wp_bind, wp_get, wp_bind]
  apply wp_mono (storeWord_spec _ _)
  · rintro - between ⟨low, same, stored⟩
    change state.stores arguments.a1.toNat = true at low
    change between.stores = state.stores at same
    rw [if_pos low, ← same]
    apply wp_mono (storeWord_spec _ _)
    · rintro - next ⟨high, -, again⟩
      rw [again, stored, if_pos high]
      rfl
    · rintro - next ⟨refused, rfl⟩
      rw [stored, if_neg refused, List.append_nil]
      rfl
  · rintro - next ⟨refused, rfl⟩
    change ¬ state.stores arguments.a1.toNat = true at refused
    rw [if_neg refused]
    rfl

/-! ### Printing -/

/-- What `%.*s` prints of a string. -/
def printed (loads : Nat → Bool) (byte : Nat → BitVec 8) : Nat → Nat → Int → List (BitVec 8)
  | 0, _, _ => []
  | rounds + 1, p, precision =>
      if loads p ∧ byte p ≠ 0 ∧ precision ≠ 0 then
        byte p :: printed loads byte rounds ((p + 1) % wordSize) (nextPrecision precision)
      else []

theorem wp_putChars {chars : List (BitVec 8)} {post : Unit → CallState → Prop} {fail : Stop → CallState → Prop} :
    wp (putChars chars) post fail state ↔ post () { state with console := state.console ++ chars } := Iff.rfl

theorem wp_unservedFault {address : Nat} {post : Result → CallState → Prop} {fail : Stop → CallState → Prop}
    (stopped : ∀ stop, fail stop state) : wp (unservedFault address) post fail state := by
  unfold unservedFault
  rw [wp_ite]
  exact ⟨fun _ => stopped _, fun _ => stopped _⟩

theorem putBytes_console (rounds p : Nat) (precision : Int) (state : CallState) :
    wp (putBytes rounds p precision)
      (fun _ next => next.console = state.console ++ printed state.loads state.byte rounds p precision)
      (fun _ next => next.console = state.console ++ printed state.loads state.byte rounds p precision) state := by
  induction rounds generalizing p precision state with
  | zero => exact (List.append_nil _).symm
  | succ rounds ih =>
      unfold putBytes loadByte printed
      simp only [wp_bind, wp_get, wp_ite, wp_pure, wp_putChars]
      constructor
      · intro loads
        constructor
        · rintro ⟨char, room⟩
          have prints : state.loads p ∧ state.byte p ≠ 0 ∧ precision ≠ 0 := ⟨loads, char, room⟩
          rw [if_pos prints]
          have rest := ih ((p + 1) % wordSize) (nextPrecision precision)
            { state with console := state.console ++ [state.byte p] }
          simp only [List.append_assoc, List.singleton_append] at rest
          exact rest
        · intro ends
          rw [if_neg fun all => ends all.2, List.append_nil]
      · intro missing
        apply wp_unservedFault
        intro _
        rw [if_neg fun all => missing all.1, List.append_nil]

/-- What `sys_cputs` prints before the string. -/
def progNameChars (env : Env) : List (BitVec 8) :=
  textBytes "[" ++ textBytes env.progName ++ textBytes " " ++ textBytes (toString env.envId) ++ textBytes "] "

/-- What `%.*s` prints of a pointer. -/
def stringChars (loads : Nat → Bool) (byte : Nat → BitVec 8) (p : Nat) (precision : Int) : List (BitVec 8) :=
  if p = 0 then
    if precision < 0 then textBytes "(null)" else (textBytes "(null)").take precision.toNat
  else printed loads byte widthRounds p precision

/-- What `SYS_cputs` prints for an environment, from memory with some bytes. -/
def cputsChars (env : Env) (loads : Nat → Bool) (byte : Nat → BitVec 8) (arguments : Arguments) : List (BitVec 8) :=
  (if arguments.a3.toNat % 256 ≠ 0 then progNameChars env else []) ++
    stringChars loads byte arguments.a1.toNat arguments.a2.toInt

theorem putString_console (p : Nat) (precision : Int) (state : CallState) :
    wp (putString p precision)
      (fun _ next => next.console = state.console ++ stringChars state.loads state.byte p precision)
      (fun _ next => next.console = state.console ++ stringChars state.loads state.byte p precision) state := by
  unfold putString stringChars
  rw [wp_ite]
  constructor
  · intro null
    rw [if_pos null]
    rfl
  · intro pointer
    rw [if_neg pointer]
    exact putBytes_console _ _ _ _

theorem after_console_cputs {syscallno : Nat} (arguments : Arguments) {slot : Nat}
    (call : syscallNumbers[syscallno]? = some .cputs) (running : state.kernel.curenv = some slot) :
    (state.after syscallno arguments).console = cputsChars (state.kernel.envs slot) state.loads state.byte arguments := by
  refine CallState.after_of_wp (fun next => next.console = _) ?_
  unfold syscall
  rw [call]
  change wp (sysCputs arguments.a1.toNat arguments.a2.toInt (arguments.a3.toNat % 256)) _ _ _
  unfold sysCputs cputsChars
  rw [wp_ite]
  constructor
  · intro named
    rw [if_pos named]
    unfold putProgName currentEnv
    have curenv : state.fresh.kernel.curenv = some slot := running
    simp only [wp_bind, wp_get, curenv, wp_pure, putText, putDecimal, wp_putChars]
    apply wp_mono (putString_console _ _ _)
    · intro _ next console
      rw [console]
      rfl
    · intro _ next console
      rw [console]
      rfl
  · intro unnamed
    rw [if_neg unnamed]
    exact putString_console _ _ _

/-! ### What is printed of memory -/

section Printed

variable {loads : Nat → Bool} {byte byte' : Nat → BitVec 8} {rounds p index : Nat} {precision : Int}

theorem byteAddress_zero (word : p < wordSize) : byteAddress p 0 = p := Nat.mod_eq_of_lt word

theorem byteAddress_next (p index : Nat) : byteAddress ((p + 1) % wordSize) index = byteAddress p (index + 1) := by
  simp only [byteAddress, wordSize]
  omega

theorem within_zero : Within (rounds + 1) precision 0 ↔ precision ≠ 0 := by
  simp only [Within]
  omega

theorem within_next (room : precision ≠ 0) :
    Within (rounds + 1) precision (index + 1) ↔ Within rounds (nextPrecision precision) index := by
  simp only [Within, nextPrecision]
  split <;> omega

/-- Memories that agree on what is looked at are printed alike. -/
theorem printed_congr (word : p < wordSize)
    (same : ∀ index, Within rounds precision index →
      (∀ before < index, loads (byteAddress p before) ∧ byte (byteAddress p before) ≠ 0) → loads (byteAddress p index) →
      byte' (byteAddress p index) = byte (byteAddress p index)) :
    printed loads byte' rounds p precision = printed loads byte rounds p precision := by
  induction rounds generalizing p precision with
  | zero => rfl
  | succ rounds ih =>
      unfold printed
      by_cases room : precision = 0
      · rw [if_neg fun all => all.2.2 room, if_neg fun all => all.2.2 room]
      · by_cases loaded : loads p
        · have first := same 0 (within_zero.2 room) (fun _ impossible => absurd impossible (Nat.not_lt_zero _))
          rw [byteAddress_zero word] at first
          rw [first loaded]
          by_cases char : byte p = 0
          · rw [if_neg fun all => all.2.1 char, if_neg fun all => all.2.1 char]
          · have prints : loads p ∧ byte p ≠ 0 ∧ precision ≠ 0 := ⟨loaded, char, room⟩
            rw [if_pos prints, if_pos prints]
            congr 1
            apply ih (Nat.mod_lt _ (by decide))
            intro index within goes
            rw [byteAddress_next]
            apply same (index + 1) ((within_next room).2 within)
            intro before earlier
            cases before with
            | zero => exact (byteAddress_zero word).symm ▸ ⟨loaded, char⟩
            | succ before => exact byteAddress_next p before ▸ goes before (Nat.lt_of_succ_lt_succ earlier)
        · rw [if_neg fun all => loaded all.1, if_neg fun all => loaded all.1]

/-- A byte that is neither missing nor a NUL is printed. -/
theorem lt_length_printed (word : p < wordSize) (within : Within rounds precision index)
    (goes : ∀ before < index + 1, loads (byteAddress p before) ∧ byte (byteAddress p before) ≠ 0) :
    index < (printed loads byte rounds p precision).length := by
  induction rounds generalizing p precision index with
  | zero => exact absurd within.1 (Nat.not_lt_zero _)
  | succ rounds ih =>
      have first := goes 0 (Nat.zero_lt_succ _)
      rw [byteAddress_zero word] at first
      have room : precision ≠ 0 := by
        have bound := within.2
        omega
      unfold printed
      rw [if_pos ⟨first.1, first.2, room⟩, List.length_cons]
      cases index with
      | zero => exact Nat.zero_lt_succ _
      | succ index =>
          apply Nat.succ_lt_succ
          apply ih (Nat.mod_lt _ (by decide)) ((within_next room).1 within)
          intro before earlier
          rw [byteAddress_next]
          exact goes (before + 1) (Nat.succ_lt_succ earlier)

/-- Nothing is printed behind a NUL. -/
theorem length_printed_le (word : p < wordSize) (ends : byte (byteAddress p index) = 0) :
    (printed loads byte rounds p precision).length ≤ index := by
  induction rounds generalizing p precision index with
  | zero => exact Nat.zero_le _
  | succ rounds ih =>
      unfold printed
      split
      · next all =>
          cases index with
          | zero =>
              rw [byteAddress_zero word] at ends
              exact absurd ends all.2.1
          | succ index =>
              rw [← byteAddress_next] at ends
              exact Nat.succ_le_succ (ih (Nat.mod_lt _ (by decide)) ends)
      · exact Nat.zero_le _

end Printed

/-! ### Confined calls -/

variable {syscallno slot : Nat} {arguments : Arguments}

/-- The same machine with another byte at an address. -/
def CallState.setByte (state : CallState) (address : Nat) (char : BitVec 8) : CallState :=
  { state with byte := Function.update state.byte address char }

theorem CallState.setByte_self (address : Nat) (char : BitVec 8) : (state.setByte address char).byte address = char :=
  Function.update_self ..

theorem CallState.setByte_of_ne {address other : Nat} (different : other ≠ address) (char : BitVec 8) :
    (state.setByte address char).byte other = state.byte other :=
  Function.update_of_ne different ..

theorem SameView.setByte {address : Nat} (unreadable : ¬ state.userReadable address) (char : BitVec 8) :
    state.SameView (state.setByte address char) where
  rest := rfl
  readable other readable := by
    apply setByte_of_ne
    rintro rfl
    exact unreadable readable

theorem byteAddress_ne {s before index : Nat} (earlier : before < index) (inside : index < wordSize) :
    byteAddress s before ≠ byteAddress s index := by
  simp only [byteAddress, wordSize] at *
  omega

theorem Within.lt {precision : Int} {index : Nat} (within : Within widthRounds precision index) : index < wordSize :=
  within.1.trans (by decide)

/-- What is printed of a string is its own exactly if every byte that is looked at is readable. -/
theorem printed_same_iff {precision : Int} {s : Nat} (word : s < wordSize) :
    (∀ other, state.SameView other →
      printed state.loads other.byte widthRounds s precision = printed state.loads state.byte widthRounds s precision) ↔
      state.ReadsOwn s precision := by
  constructor
  · intro same index within goes loads
    apply Decidable.of_not_not
    intro unreadable
    have prints := same _ (SameView.setByte unreadable 1)
    have ends := same _ (SameView.setByte unreadable 0)
    have short : (printed state.loads (state.setByte (byteAddress s index) 0).byte widthRounds s precision).length ≤ index :=
      length_printed_le word (setByte_self _ _)
    have long : index < (printed state.loads (state.setByte (byteAddress s index) 1).byte widthRounds s precision).length := by
      apply lt_length_printed word within
      intro before earlier
      rcases Nat.lt_succ_iff_lt_or_eq.1 earlier with less | rfl
      · have different : byteAddress s before ≠ byteAddress s index := byteAddress_ne less within.lt
        rw [setByte_of_ne different]
        exact goes before less
      · rw [setByte_self]
        exact ⟨loads, by decide⟩
    rw [prints, ← ends] at long
    exact absurd long (not_lt.2 short)
  · intro readable other view
    apply printed_congr word
    intro index within goes loads
    exact view.readable _ (readable index within goes loads)

theorem prints_iff (call : syscallNumbers[syscallno]? = some .cputs) (running : state.kernel.curenv = some slot) :
    (∀ other, state.SameView other →
      (other.after syscallno arguments).console = (state.after syscallno arguments).console) ↔
      (arguments.a1 ≠ 0 → state.ReadsOwn arguments.a1.toNat arguments.a2.toInt) := by
  have console (other : CallState) (view : state.SameView other) : (other.after syscallno arguments).console =
      cputsChars (state.kernel.envs slot) state.loads other.byte arguments := by
    obtain ⟨rest, -⟩ := view
    rw [rest]
    exact after_console_cputs arguments call running
  have here := after_console_cputs arguments call running
  by_cases null : arguments.a1 = 0
  · apply iff_of_true
    · intro other view
      have zero : arguments.a1.toNat = 0 := congrArg BitVec.toNat null
      rw [console other view, here]
      simp only [cputsChars, stringChars, if_pos zero]
    · intro pointer
      exact absurd null pointer
  · have pointer : arguments.a1.toNat ≠ 0 := fun zero => null (BitVec.eq_of_toNat_eq zero)
    rw [imp_iff_right null, ← printed_same_iff arguments.a1.isLt]
    apply forall_congr'
    intro other
    apply imp_congr_right
    intro view
    rw [console other view, here]
    simp only [cputsChars, stringChars, if_neg pointer, List.append_cancel_left_eq]

theorem stores_iff (call : syscallNumbers[syscallno]? = some .getVirtualTime) :
    (∀ address ∈ (state.after syscallno arguments).stored, address < userTop) ↔
      state.StoresBelow arguments.a1.toNat arguments.a2.toNat := by
  rw [after_stored_virtualTime arguments call]
  unfold StoresBelow
  split
  · next low =>
      rw [imp_iff_right low, List.forall_mem_append]
      apply and_congr_right'
      split
      · next high => exact (imp_iff_right high).symm
      · next refused => exact iff_of_true (List.forall_mem_nil _) fun high => absurd high refused
  · next refused => exact iff_of_true (List.forall_mem_nil _) fun low => absurd low refused

/-- A call of the running environment is confined exactly if `SYS_cputs` looks only at what the environment may read,
and `SYS_get_virtual_time` is given words below `USER_TOP` or words that are not stored to. -/
theorem confined_iff (running : state.kernel.curenv = some slot) : state.Confined syscallno arguments ↔
    (syscallNumbers[syscallno]? = some .cputs → arguments.a1 ≠ 0 → state.ReadsOwn arguments.a1.toNat arguments.a2.toInt) ∧
      (syscallNumbers[syscallno]? = some .getVirtualTime → state.StoresBelow arguments.a1.toNat arguments.a2.toNat) := by
  constructor
  · intro confined
    exact ⟨fun call => (prints_iff call running).1 (confined.prints call), fun call => (stores_iff call).1 confined.stores⟩
  · intro holds
    constructor
    · by_cases call : syscallNumbers[syscallno]? = some .getVirtualTime
      · exact (stores_iff call).2 (holds.2 call)
      · rw [after_stored_of_ne arguments call]
        exact List.forall_mem_nil _
    · intro call
      exact (prints_iff call running).2 (holds.1 call)

/-- A machine whose kernel can be loaded and stored, and with it the page of a short string at 0x800000. -/
private def shortString (kernel : KernelState) : CallState where
  kernel
  loads address := kernelBase ≤ address ∨ pageOf address = pageOf 0x800000
  stores address := kernelBase ≤ address
  byte address := if address = 0x800000 then 72 else 0
  userReadable address := address < userTop
  semaphores := []
  userPrograms := []
  virtualTime := (0, 0)
  memoryScarceThresholdPercentage := 0
  uHeapPlacementStrategy := 0
  bypassInstrLength := 0
  tstcnt := 0
  stored := []
  console := []

private theorem exists_running : ∃ state ∈ (kernel .small).run cleanMachine opening, state.curenv = some 0 := by
  decide +kernel

/-- The precision of 100 lets a string at 0x800000 have no byte beyond `USER_TOP`. -/
theorem confined_iff_shortString : ∃ state ∈ (kernel .small).run cleanMachine opening,
    (shortString state).Confined 0 ⟨0x800000, 100, 1, 0, 0⟩ := by
  obtain ⟨state, ran, curenv⟩ := exists_running
  have running : (shortString state).kernel.curenv = some 0 := curenv
  refine ⟨state, ran, (confined_iff running).2 ⟨fun _ _ => ?_, fun call => absurd call (by decide)⟩⟩
  intro index within _ _
  have short : (index : Int) < 100 := within.2.resolve_left (by decide)
  apply decide_eq_true
  change (0x800000 + index) % wordSize < userTop
  simp only [wordSize, userTop, uenvs]
  omega

/-- `SYS_cputs` prints the kernel's first instructions, and `SYS_get_virtual_time` overwrites them. -/
theorem not_confined : ∃ state ∈ (kernel .small).run cleanMachine opening,
    ¬ (shortString state).Confined 0 ⟨0xF0100000, 4, 0, 0, 0⟩ ∧
      ¬ (shortString state).Confined 36 ⟨0xF0100000, 0xF0100004, 0, 0, 0⟩ := by
  obtain ⟨state, ran, curenv⟩ := exists_running
  have running : (shortString state).kernel.curenv = some 0 := curenv
  refine ⟨state, ran, fun confined => ?_, fun confined => ?_⟩
  · have reads := (prints_iff rfl running).1 (confined.prints rfl) (by decide) 0 ⟨by decide, .inr (by decide)⟩
      (fun _ impossible => absurd impossible (Nat.not_lt_zero _)) rfl
    cases reads
  · have below := ((stores_iff rfl).1 confined.stores rfl).1 0xF0100000 (by decide)
    exact absurd below (by decide)

end Fos.Kernel
