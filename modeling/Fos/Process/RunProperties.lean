import Fos.Kernel.RangeAgreement
import Fos.Process.Run
import Fos.UserHeap.Session

/-! What one action does to a program and to the kernel under it. -/

set_option autoImplicit false

namespace Fos.Process

open Foundation Kernel UserHeap

variable {layout : BootLayout} {program : UserProgram} {slot : Nat} {world next : World} {allocation : Allocation}

/-- A program that has not been terminated. -/
structure Alive (layout : BootLayout) (slot : Nat) (world : World) : Prop where
  kernel : (kernel layout).Reaches Contained world.kernel
  runnable : slot ∈ world.kernel.runnable
  heap : sessions.Reaches (fun _ request => request.Sized) world.heap

/-- A block on whole pages of the heap. -/
structure Placed (allocation : Allocation) : Prop where
  aligned : allocation.pointer % pageSize = 0
  start : userHeapStart ≤ allocation.pointer
  fits : allocation.pointer + roundUp allocation.size ≤ userHeapMax

theorem Placed.below (placed : Placed allocation) : allocation.pointer + roundUp allocation.size ≤ userTop :=
  placed.fits.trans (by decide)

/-- An action and what it does. -/
inductive Step (slot : Nat) (world next : World) : Action → Prop
  /-- `malloc` finds no space, and does not enter the kernel. -/
  | malloc_none (size : Nat) (kernel : next.kernel = world.kernel) (heap : next.heap = world.heap.prepared) :
      Step slot world next (.request (.malloc size))
  | malloc_some (allocation : Allocation) (curenv : world.kernel.curenv = some slot)
      (live : next.heap.live = allocation :: world.heap.live) (sound : next.heap.Sound) (placed : Placed allocation)
      (allocates : Kernel.exec world.kernel (.allocateMem allocation.pointer (roundUp allocation.size)) =
        some next.kernel) : Step slot world next (.request (.malloc allocation.size))
  | free (allocation : Allocation) (curenv : world.kernel.curenv = some slot) (member : allocation ∈ world.heap.live)
      (before : world.heap.Sound) (live : next.heap.live = world.heap.live.erase allocation) (sound : next.heap.Sound)
      (frees : Kernel.exec world.kernel (.freeMem allocation.pointer (roundUp allocation.size)) = some next.kernel) :
      Step slot world next (.request (.free allocation.pointer))
  | event (event : Event) (other : ¬ (world.kernel.curenv = some slot ∧ IsMemoryCall event))
      (heap : next.heap = world.heap) (executes : Kernel.exec world.kernel event = some next.kernel) :
      Step slot world next (.event event)

theorem malloc_systemCall {size : Nat} {spaces : List Info} {outcome : Outcome} (result : malloc size spaces = .ok outcome) :
    outcome.systemCall = none ∧ outcome.pointer = 0 ∨
      outcome.systemCall = some (.allocateMem outcome.pointer (roundUp size)) := by
  simp only [malloc] at result
  split at result
  · cases result
    exact .inl ⟨rfl, rfl⟩
  · right
    rw [← reqPagesOf_mul]
    split at result
    · cases result
      rfl
    · split at result
      · cases result
      · cases result
        rfl

/-- `malloc` in a run: it finds no space, or it asks the kernel for the pages of the allocation. -/
theorem malloc_served {session : Session} {size : Nat} {outcome : Outcome} (prepared : session.prepared.Sound)
    (sized : (Request.malloc size).Sized) (result : malloc size session.spaces = .ok outcome) :
    (outcome.systemCall = none ∧ outcome.pointer = 0 ∧ outcome.spaces = session.prepared.spaces) ∨
      (outcome.systemCall = some (.allocateMem outcome.pointer (roundUp size)) ∧ outcome.pointer ≠ 0 ∧
        Placed ⟨outcome.pointer, size⟩ ∧ (⟨outcome.spaces, ⟨outcome.pointer, size⟩ :: session.live⟩ : Session).Sound) := by
  have ready : initializeSpaces session.prepared.spaces = session.prepared.spaces := prepared.initializeSpaces_eq
  have again : malloc size session.prepared.spaces = .ok outcome := (malloc_initializeSpaces ..).trans result
  rcases malloc_cases (ready.symm ▸ prepared.slots) again with ⟨rfl, -⟩ | ⟨space, rest, before, -, pointer, -⟩
  · exact .inl ⟨rfl, rfl, ready⟩
  · rw [ready] at before
    have member : space ∈ inUse session.prepared.spaces := before.mem_iff.2 (List.mem_cons_self ..)
    have lower := prepared.slots.partition.start_ge member
    have found : outcome.pointer ≠ 0 := by
      rw [pointer]
      exact (lt_of_lt_of_le (by decide) lower).ne'
    obtain ⟨sound, chosen, present, -, start, fits⟩ := prepared.malloc_some sized again found
    have call := (malloc_systemCall result).resolve_left fun none => found none.2
    refine .inr ⟨call, found, ⟨?_, ?_, fits.trans (prepared.slots.partition.end_le present)⟩, sound⟩
    · exact start ▸ (prepared.slots.partition.exact chosen present).startAligned
    · exact start ▸ prepared.slots.partition.start_ge present

/-- A heap with a live allocation has been initialized. -/
theorem sound_of_live {session : Session} {allocation : Allocation}
    (reached : sessions.Reaches (fun _ request => request.Sized) session) (member : allocation ∈ session.live) :
    session.Sound := by
  cases Session.initial_or_sound reached with
  | inr sound => exact sound
  | inl isInitial =>
      rw [isInitial] at member
      cases member

theorem placed_of_live {session : Session} (sound : session.Sound) (member : allocation ∈ session.live) :
    Placed allocation := by
  obtain ⟨space, inHeld, start, finish⟩ := sound.exists_space member
  have present := (mem_held.1 inHeld).1
  constructor
  · exact start ▸ (sound.slots.partition.exact space present).startAligned
  · exact start ▸ sound.slots.partition.start_ge present
  · exact finish ▸ sound.slots.partition.end_le present

theorem survive_eq_some {heap : Session} {kernel : KernelState} (survives : survive slot heap kernel = some next) :
    slot ∈ next.kernel.runnable ∧ next = ⟨kernel, heap⟩ := by
  rw [survive] at survives
  split at survives
  · next runs =>
      cases survives
      exact ⟨runs, rfl⟩
  · cases survives

theorem exec_event {event : Event} (executes : exec slot world (.event event) = some next) :
    Step slot world next (.event event) ∧ slot ∈ next.kernel.runnable := by
  simp only [exec] at executes
  split at executes
  · cases executes
  · next other =>
      obtain ⟨kernel, enters, survives⟩ := Option.bind_eq_some_iff.1 executes
      obtain ⟨runs, rfl⟩ := survive_eq_some survives
      exact ⟨.event event other rfl enters, runs⟩

theorem exec_request {request : Request} (executes : exec slot world (.request request) = some next) :
    world.kernel.curenv = some slot ∧ slot ∈ next.kernel.runnable ∧ world.heap.exec request = some next.heap ∧
      ∃ outcome, libraryCall world.heap request = .ok outcome ∧
        enterKernel world.kernel outcome.systemCall = some next.kernel := by
  simp only [exec] at executes
  split at executes
  · next curenv =>
      split at executes
      · next outcome heap result serves =>
          obtain ⟨kernel, enters, survives⟩ := Option.bind_eq_some_iff.1 executes
          obtain ⟨runs, rfl⟩ := survive_eq_some survives
          exact ⟨curenv, runs, serves, outcome, result, enters⟩
      · cases executes
  · cases executes

theorem Alive.step {action : Action} (alive : Alive layout slot world) (proper : Proper world action)
    (executes : exec slot world action = some next) :
    Step slot world next action ∧ slot ∈ next.kernel.runnable := by
  cases action with
  | event event => exact exec_event executes
  | request request =>
      obtain ⟨curenv, runs, serves, outcome, result, enters⟩ := exec_request executes
      refine ⟨?_, runs⟩
      cases request with
      | malloc size =>
          obtain ⟨same, other, heap⟩ := Session.exec_malloc serves
          obtain rfl := Except.ok.inj (result.symm.trans other)
          rcases malloc_served (Session.prepared_sound_of_reaches alive.heap) proper other with
            ⟨none, absent, spaces⟩ | ⟨call, found, placed, sound⟩
          · rw [none] at enters
            rw [if_pos absent, spaces] at heap
            exact .malloc_none size (Option.some.inj enters).symm heap
          · rw [call] at enters
            rw [if_neg found] at heap
            exact .malloc_some ⟨outcome.pointer, size⟩ curenv (congrArg Session.live heap) (heap ▸ sound) placed
              enters
      | free pointer =>
          obtain ⟨allocation, member, rfl, same, other, heap⟩ := Session.exec_free serves
          obtain rfl := Except.ok.inj (result.symm.trans other)
          have before := sound_of_live alive.heap member
          obtain ⟨served, frees, call, erased, sound⟩ := before.free member
          obtain rfl := Except.ok.inj (frees.symm.trans other)
          rw [call] at enters
          rw [erased] at heap
          exact .free allocation curenv member before (congrArg Session.live heap) (heap ▸ sound) enters

/-- The call is one the kernel's specification covers. -/
theorem contained_allocate {state : KernelState} (placed : Placed allocation) :
    Contained state (.allocateMem allocation.pointer (roundUp allocation.size)) := by
  intro page member
  exact low_of_mem_rangeOf (whole_inside placed.aligned placed.below) member

theorem Begins.alive (begins : Begins layout program slot world) : Alive layout slot world := by
  obtain ⟨before, pageWSSize, secondListSize, started, contained, -, creates⟩ := begins.created
  exact ⟨.step _ started contained creates, begins.runnable, .start begins.heap⟩

theorem Alive.goesOn {action : Action} (alive : Alive layout slot world) (proper : Proper world action)
    (executes : exec slot world action = some next) : Alive layout slot next := by
  obtain ⟨step, runnable⟩ := alive.step proper executes
  cases action with
  | event event =>
      cases step with
      | event _ other heap enters => exact ⟨.step event alive.kernel proper enters, runnable, heap ▸ alive.heap⟩
  | request request =>
      have served := (exec_request executes).2.2.1
      refine ⟨?_, runnable, .step request alive.heap proper served⟩
      cases step with
      | malloc_none size kernel heap => exact kernel ▸ alive.kernel
      | malloc_some allocation curenv live sound placed allocates =>
          exact .step _ alive.kernel (contained_allocate placed) allocates
      | free allocation curenv member before live sound frees => exact .step (.freeMem _ _) alive.kernel trivial frees

theorem alive_of_reaches (reached : (processes layout program slot).Reaches Proper world) : Alive layout slot world :=
  reached.invariant (Alive layout slot) (fun _ begins => Begins.alive begins) fun _ _ _ alive proper executes =>
    alive.goesOn proper executes

end Fos.Process
