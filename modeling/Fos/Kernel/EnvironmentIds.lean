import Fos.Foundation.Runs
import Fos.Kernel.Boot

/-! Environment ids: how `complete_environment_initialization` makes them, how `envid2env`
looks them up, and what a run of creations and frees gives out. -/

set_option autoImplicit false

namespace Fos.Kernel

abbrev eBadEnv : Int := -2

/-- The bytes an environment may take: a quarter of `PTSIZE`, for all of them. -/
abbrev ptSize : Nat := pageSize * 1024

abbrev sizeofTrapframe : Nat := 0x44
abbrev sizeofListEntry : Nat := 2 * 4
abbrev sizeofListHead : Nat := 4 * 4
abbrev sizeofWorkingSetElement : Nat := 4 + 4 + sizeofListEntry
abbrev progNameLen : Nat := 64

/-- `sizeof(struct Env)` where pointers take four bytes, field by field. -/
def sizeofEnv : Nat :=
  sizeofTrapframe + sizeofListEntry
    -- env_id, env_parent_id, env_status, env_runs
    + 4 * 4
    -- env_page_directory, env_cr3, and the two disk tables with their physical addresses
    + 6 * 4
    -- page_WS_max_size, ptr_pageWorkingSet, __ptr_tws
    + 4 + pwsMaxSize * sizeofWorkingSetElement + twsMaxSize * sizeofWorkingSetElement
    -- page_last_WS_index, table_last_WS_index, and the eight counters
    + 2 * 4 + 8 * 4
    -- prog_name, __uptr_pws
    + progNameLen + 4
    -- percentage_of_WS_pages_to_be_removed, nClocks, priority
    + 3 * 4
    -- the three lists, and the sizes of two of them
    + 3 * sizeofListHead + 2 * 4

def envx (envid : Int) : Nat := toUInt32 envid &&& (nenv - 1)

/-- `envid2env`: the result, and what is stored through `env_store`. -/
def envid2env (envid : Int) (checkperm : Bool) : KernelM (Int × Option Nat) := do
  let state ← get
  if envid = 0 then
    return (0, state.curenv)
  else
    let e := envx envid
    if (state.envs e).envStatus = .free ∨ (state.envs e).envId ≠ envid then
      return (eBadEnv, none)
    else if checkperm ∧ state.curenv ≠ some e then
      match state.curenv with
      | none => undefined "curenv == NULL"
      | some current =>
          if (state.envs e).envParentId ≠ (state.envs current).envId then
            return (eBadEnv, none)
          else
            return (0, some e)
    else
      return (0, some e)

/-! ### Creating and freeing -/

def allocateEnvironment : KernelM (Option Nat) := do
  match (← get).envFreeList with
  | [] => return none
  | slot :: _ =>
      modifyEnv slot fun env => { env with envStatus := .unknown }
      return some slot

/-- What `env_create` does up to the end of `complete_environment_initialization`, with
the directory it allocated. -/
def createEnvironment (directory pageWSSize : Nat) : KernelM (Option Nat) := do
  match ← allocateEnvironment with
  | none => return none
  | some slot =>
      modifyEnv slot fun env => { env with pageWSMaxSize := pageWSSize }
      initializeEnvironment slot directory
      return some slot

inductive TableEvent where
  | create (directory pageWSSize : Nat)
  | free (slot : Nat)
  deriving DecidableEq

/-- An environment that was created: its place in `envs`, and the id it was given. -/
structure Identity where
  slot : Nat
  envId : Int
  deriving DecidableEq

/-- The kernel with what a run has done to the environment table, the last event first. -/
structure Roster where
  kernel : KernelState
  events : List TableEvent
  created : List Identity
  freed : List Identity

/-- A slot of `envs` that holds an environment. -/
def KernelState.Occupied (state : KernelState) (slot : Nat) : Prop :=
  slot < nenv ∧ (state.envs slot).envStatus ≠ .free

instance (state : KernelState) (slot : Nat) : Decidable (state.Occupied slot) :=
  inferInstanceAs (Decidable (_ ∧ _))

def Roster.identity (roster : Roster) (slot : Nat) : Identity :=
  ⟨slot, (roster.kernel.envs slot).envId⟩

def Roster.exec (roster : Roster) : TableEvent → Option Roster
  | .create directory pageWSSize =>
      match createEnvironment directory pageWSSize roster.kernel with
      | .error _ _ => none
      | .ok none kernel =>
          some { roster with kernel, events := .create directory pageWSSize :: roster.events }
      | .ok (some slot) kernel =>
          some { roster with
            kernel
            events := .create directory pageWSSize :: roster.events
            created := ⟨slot, (kernel.envs slot).envId⟩ :: roster.created }
  | .free slot =>
      if roster.kernel.Occupied slot then
        match freeEnvironment slot roster.kernel with
        | .error _ _ => none
        | .ok () kernel =>
            some { roster with
              kernel
              events := .free slot :: roster.events
              freed := roster.identity slot :: roster.freed }
      else none

/-- Runs of creations and frees, from the booted machine on. -/
def environmentTable (layout : BootLayout) : Foundation.System Roster TableEvent where
  start := fun roster => ∃ ram disk, roster = ⟨layout.boot ram disk, [], [], []⟩
  exec := Roster.exec

/-! ### What ids are for -/

/-- The part of an id above the environment index. -/
def generationOf (envid : Int) : Nat := toUInt32 envid >>> 12

/-- An id comes back only after every generation was used in its slot. -/
def Roster.NotRecycled (roster : Roster) : Prop :=
  ∀ before later between earlier rest,
    roster.created = before ++ later :: (between ++ earlier :: rest) →
    later.envId = earlier.envId →
    ∀ generation, 0 < generation → generation < 2 ^ 19 →
      ∃ identity ∈ between ++ [earlier],
        identity.slot = later.slot ∧ generationOf identity.envId = generation

/-- The lookup of an id is refused. -/
def KernelState.Refuses (state : KernelState) (envid : Int) : Prop :=
  envid2env envid false state = .ok (eBadEnv, none) state

/-- The lookup of an id finds a slot. -/
def KernelState.Finds (state : KernelState) (envid : Int) (slot : Nat) : Prop :=
  envid2env envid false state = .ok (0, some slot) state

/-- No environment was created after another had been freed. -/
def NoneAfterFree : List TableEvent → Prop
  | [] => True
  | .create _ _ :: earlier => (∀ slot, .free slot ∉ earlier) ∧ NoneAfterFree earlier
  | .free _ :: earlier => NoneAfterFree earlier

end Fos.Kernel
