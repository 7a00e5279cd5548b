import Fos.Kernel.AccessProperties
import Fos.Kernel.Population

/-! What each event does to the kernel, in the words of its code. -/

set_option autoImplicit false

namespace Fos.Kernel

open Foundation

variable {layout : BootLayout} {ram : Nat → Page} {slot address size : Nat} {strict tidy : Prop}
  {access : Access} {state next : KernelState}

/-! ### Entering the kernel -/

/-- What comes back from the kernel, by what its code was proved to do. -/
theorem settle_cases {Result : Type} {code : KernelM Result} {post : Result → KernelState → Prop}
    {fail : Stop → KernelState → Prop} (holds : wp code post fail state) (settles : settle (code state) = some next) :
    (∃ result, code state = .ok result next ∧ post result next) ∨
      ∃ message stopped, code state = .error (.panic message) stopped ∧ fail (.panic message) stopped ∧
        next = afterPanic stopped := by
  obtain ⟨result, last, outcome, returned⟩ | ⟨stop, last, outcome, failed⟩ := wp_cases holds
  · rw [outcome] at settles
    cases settles
    exact .inl ⟨result, outcome, returned⟩
  · rw [outcome] at settles
    cases stop with
    | panic message =>
        cases settles
        exact .inr ⟨message, last, outcome, failed, rfl⟩
    | undefined access => cases settles

/-- An event of the running environment. -/
theorem curenv_of_exec {code : Nat → Option KernelState}
    (executes : (match state.curenv with
      | none => none
      | some slot => code slot) = some next) : ∃ slot, state.curenv = some slot ∧ code slot = some next := by
  cases curenv : state.curenv with
  | none => simp only [curenv, reduceCtorEq] at executes
  | some slot =>
      simp only [curenv] at executes
      exact ⟨slot, rfl, executes⟩

theorem of_ite_some {condition : Prop} [Decidable condition] {result : Option KernelState}
    (executes : (if condition then result else none) = some next) : condition ∧ result = some next := by
  by_cases holds : condition
  · rw [if_pos holds] at executes
    exact ⟨holds, executes⟩
  · rw [if_neg holds] at executes
    cases executes

/-! ### Events of the running environment -/

/-- A page an access faults on is not one its environment may write. -/
theorem Population.inaccessible (population : Population layout ram strict tidy state)
    (curenv : state.curenv = some slot) {address : Nat} {access : Access}
    (faults : state.userTranslate (state.envs slot).envPageDirectory address access = none)
    (low : address < userTop) : ¬ Accessible (state.leaf .user slot (pageOf address)) := by
  intro accessible
  obtain ⟨-, running, -⟩ := population.running curenv
  have reaches := userTranslate_of_accessible running.inv running.live low accessible access
  rw [root_eq] at faults
  exact absurd (reaches.symm.trans faults) (Option.some_ne_none _)

/-- An access beyond the stack is refused before anything is done. -/
theorem faultHandler_high (state : KernelState) (high : ustackTop ≤ address) :
    ∃ message, faultHandler address state = .error (.panic message) state := by
  rw [faultHandler, if_pos high]
  exact ⟨_, rfl⟩

/-- A fault is handled, or the environment stops. -/
theorem Population.fault_outcome (valid : layout.Valid) (population : Population layout ram strict tidy state)
    (executes : exec state (.fault address access) = some next) :
    ∃ slot, state.curenv = some slot ∧
      state.userTranslate (state.envs slot).envPageDirectory address access = none ∧
      (address < ustackTop ∧ Handled layout ram strict tidy slot (roundDown address) state next ∨
        ∃ stopped, Halted layout ram tidy slot (roundDown address) state stopped ∧
          (ustackTop ≤ address → stopped = state) ∧ next = afterPanic stopped) := by
  rw [exec] at executes
  obtain ⟨slot, curenv, executes⟩ := curenv_of_exec executes
  obtain ⟨⟨-, faults⟩, settles⟩ := of_ite_some executes
  obtain ⟨-, running, healthy⟩ := population.running curenv
  have handles := faultHandler_spec valid running healthy (population.inaccessible curenv faults)
  refine ⟨slot, curenv, faults, ?_⟩
  by_cases high : ustackTop ≤ address
  · obtain ⟨message, refused⟩ := faultHandler_high state high
    have halted := (wp_of_error refused).1 handles
    rw [refused] at settles
    cases settles
    exact .inr ⟨state, halted, fun _ => rfl, rfl⟩
  · rcases settle_cases handles settles with ⟨-, -, handled⟩ | ⟨message, stopped, -, halted, rfl⟩
    · exact .inl ⟨not_le.1 high, handled⟩
    · exact .inr ⟨stopped, halted, fun above => absurd above high, rfl⟩

/-- An access below `USER_TOP` reads, or it writes a byte of a page its environment may write. -/
theorem Population.access_outcome (population : Population layout ram strict tidy state) (low : address < userTop)
    (executes : exec state (.access address access) = some next) :
    ∃ slot, state.curenv = some slot ∧
      match access with
      | .read => next = state
      | .write value => Accessible (state.leaf .user slot (pageOf address)) ∧
          SpaceBecomes layout ram slot [] state [] next ((state.space slot).writeByte address value) ∧
          Keeps slot [] state [] next ∧ Calm slot state next := by
  rw [exec] at executes
  obtain ⟨slot, curenv, executes⟩ := curenv_of_exec executes
  obtain ⟨-, accesses⟩ := of_ite_some executes
  obtain ⟨-, running, -⟩ := population.running curenv
  rw [root_eq] at accesses
  refine ⟨slot, curenv, ?_⟩
  cases access with
  | read => exact userAccess_read accesses
  | write value => exact userAccess_write running low accesses

/-- `allocateMem` returns, or the environment stops. -/
theorem Population.allocateMem_outcome (valid : layout.Valid) (population : Population layout ram strict tidy state)
    (below : ∀ page ∈ rangeOf address (size / pageSize), page < userTop)
    (executes : exec state (.allocateMem address size) = some next) :
    ∃ slot, state.curenv = some slot ∧
      (Allocated layout ram strict tidy slot (rangeOf address (size / pageSize)) state next ∨
        ∃ stopped, Panicked layout ram tidy slot (rangeOf address (size / pageSize)) state stopped ∧
          next = afterPanic stopped) := by
  rw [exec] at executes
  obtain ⟨slot, curenv, executes⟩ := curenv_of_exec executes
  obtain ⟨-, settles⟩ := of_ite_some executes
  obtain ⟨-, running, healthy⟩ := population.running curenv
  refine ⟨slot, curenv, ?_⟩
  rcases settle_cases (allocatePages_spec valid running healthy (size / pageSize) below) settles with
    ⟨-, -, allocated⟩ | ⟨message, stopped, -, panicked, rfl⟩
  · exact .inl allocated
  · exact .inr ⟨stopped, panicked, rfl⟩

/-- `freeMem` always returns. -/
theorem Population.freeMem_outcome (valid : layout.Valid) (population : Population layout ram strict tidy state)
    (executes : exec state (.freeMem address size) = some next) :
    ∃ slot removed, state.curenv = some slot ∧
      Stepped layout ram slot state removed (state.envs slot) ((state.space slot).removeAll
        ((rangeOf address (roundUp size / pageSize)).map pageOf)) ∧
      Released layout ram strict tidy slot (rangeOf address (roundUp size / pageSize)) removed next := by
  rw [exec] at executes
  obtain ⟨slot, curenv, executes⟩ := curenv_of_exec executes
  obtain ⟨⟨word, -⟩, settles⟩ := of_ite_some executes
  obtain ⟨-, running, healthy⟩ := population.running curenv
  have frees : wp (Kernel.freeMem slot address size) _ (fun _ _ => False) state :=
    freeMem_spec valid running healthy word size
  rcases settle_cases frees settles with ⟨-, -, removed, stepped, released⟩ | ⟨_, _, -, never, -⟩
  · exact ⟨slot, removed, curenv, stepped, released⟩
  · exact never.elim

/-- `__sys_allocate_page` returns, or the environment stops. A page that is in a list stays writeable. -/
theorem Population.allocatePage_outcome {perm : Nat} (valid : layout.Valid)
    (population : Population layout ram strict tidy state)
    (writeable : ∀ slot, state.curenv = some slot → address ∈ (state.envs slot).recency → perm.testBit 1 = true)
    (executes : exec state (.allocatePage address perm) = some next) :
    ∃ slot, state.curenv = some slot ∧
      (Granted layout ram strict tidy slot address perm state next ∨
        ∃ stopped, Panicked layout ram tidy slot [address] state stopped ∧ next = afterPanic stopped) := by
  rw [exec] at executes
  obtain ⟨slot, curenv, executes⟩ := curenv_of_exec executes
  obtain ⟨⟨-, word⟩, settles⟩ := of_ite_some executes
  obtain ⟨-, running, healthy⟩ := population.running curenv
  refine ⟨slot, curenv, ?_⟩
  rcases settle_cases (sysAllocatePage_spec valid running healthy word (writeable slot curenv)) settles with
    ⟨-, -, granted⟩ | ⟨message, stopped, -, panicked, rfl⟩
  · exact .inl granted
  · exact .inr ⟨stopped, panicked, rfl⟩

/-! ### Environments come and go -/

/-- A program the loader can load: its segments lie below `USER_TOP`, on pages of their own, and not
on the page of the initial stack. -/
structure UserProgram.Loadable (program : UserProgram) : Prop where
  sound : ∀ segment ∈ program.segments, segment.Sound
  inside : ∀ segment ∈ program.segments, segment.fileEnd < userTop
  apart : program.segments.Pairwise ProgramSegment.Apart
  offStack : ∀ segment ∈ program.segments, ¬ segment.Touches stackPage

theorem UserProgram.loadable_of_nil {program : UserProgram} (none : program.segments = []) : program.Loadable := by
  constructor <;> rw [none]
  · exact List.forall_mem_nil _
  · exact List.forall_mem_nil _
  · exact .nil
  · exact List.forall_mem_nil _

/-- What `env_create` of a program makes of the kernel: nothing, an environment, or a panic. -/
inductive Creates (layout : BootLayout) (ram : Nat → Page) (program : UserProgram) (pageWSSize secondListSize : Nat)
    (state next : KernelState) : Prop
  | refused (same : next = state)
  | created (slot : Nat) (pages : List Nat) (created : KernelState) (free : slot ∈ state.envFreeList)
      (creates : Created layout ram slot program pageWSSize secondListSize pages state created)
      (entered : next = schedInsertNew slot created)
  | abandoned (slot : Nat) (stopped : KernelState) (free : slot ∈ state.envFreeList)
      (panics : ∃ message, createAndSchedule program pageWSSize secondListSize state = .error (.panic message) stopped)
      (abandons : Abandoned layout ram slot state stopped) (stops : next = afterPanic stopped)

theorem Population.create_outcome (valid : layout.Valid) (population : Population layout ram strict tidy state)
    {program : UserProgram} {pageWSSize secondListSize : Nat} (loadable : program.Loadable)
    (executes : exec state (.create program pageWSSize secondListSize) = some next) :
    Creates layout ram program pageWSSize secondListSize state next := by
  have creates := envCreate_spec valid population.inv population.vacant program loadable.sound loadable.inside
    loadable.apart pageWSSize secondListSize
  rw [exec] at executes
  have whole : wp (createAndSchedule program pageWSSize secondListSize)
      (fun _ next => Creates layout ram program pageWSSize secondListSize state next)
      (onStop (pageWSSize = 0 ∨ pwsMaxSize < pageWSSize) fun next =>
        ∃ slot, state.envFreeList.head? = some slot ∧ Abandoned layout ram slot state next) state := by
    rw [createAndSchedule, wp_bind]
    apply wp_mono creates _ fun _ _ => id
    intro result last outcome
    cases result with
    | none => exact .refused outcome.1
    | some slot =>
        obtain ⟨head, pages, created⟩ := outcome
        exact .created slot pages last (List.mem_of_mem_head? head) created rfl
  rcases settle_cases whole executes with ⟨-, -, holds⟩ | ⟨message, stopped, panics, ⟨slot, head, abandons⟩, rfl⟩
  · exact holds
  · exact .abandoned slot stopped (List.mem_of_mem_head? head) ⟨message, panics⟩ abandons rfl

/-- `env_free` always returns. -/
theorem Population.kill_outcome (valid : layout.Valid) (population : Population layout ram strict tidy state)
    (executes : exec state (.kill slot) = some next) :
    (slot ∈ state.envNewQueue ∨ slot ∈ state.envReadyQueue ∨ slot ∈ state.envExitQueue) ∧
      Freed layout ram tidy slot (schedRemove slot state) next := by
  rw [exec] at executes
  obtain ⟨queued, settles⟩ := of_ite_some executes
  obtain ⟨housed, -, loaded, -⟩ := population.removed queued
  have frees : wp (envFree slot) _ (fun _ _ => False) (schedRemove slot state) := envFree_spec valid housed.inv loaded
  rcases settle_cases frees settles with ⟨-, -, freed⟩ | ⟨_, _, -, never, -⟩
  · exact ⟨queued, freed⟩
  · exact never.elim

end Fos.Kernel
