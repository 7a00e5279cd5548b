import Fos.Kernel.SystemProperties

/-! No frame is lost: what an environment held is free again when it is gone. -/

set_option autoImplicit false

namespace Fos.Kernel

open Foundation

variable {layout : BootLayout} {ram : Nat → Page} {slot : Nat} {strict tidy : Prop}
  {state before middle next : KernelState} {event : Event}

/-- The frames that are free or somewhere are those that were free after boot. -/
structure Conserved (layout : BootLayout) (state : KernelState) : Prop where
  frames : ∀ frame, Covers state.freeFrameList state.names frame ↔ layout.Managed frame
  diskFrames : ∀ diskFrame, Covers state.diskFreeFrameList state.diskNames diskFrame ↔
    0 < diskFrame ∧ diskFrame < pagesPerFile

theorem Conserved.boot (valid : layout.Valid) (ram disk : Nat → Page) : Conserved layout (layout.boot ram disk) where
  frames frame := by
    constructor
    · rintro (free | ⟨place, named⟩)
      · exact (mem_freeFrameList_boot valid).1 free
      · rw [names_boot] at named
        cases named
    · exact fun managed => .inl ((mem_freeFrameList_boot valid).2 managed)
  diskFrames diskFrame := by
    have size : 1 + (pagesPerFile - 1) = pagesPerFile := by decide
    have free : diskFrame ∈ (layout.boot ram disk).diskFreeFrameList ↔ 0 < diskFrame ∧ diskFrame < pagesPerFile := by
      simp only [BootLayout.boot, mem_insertedAtHead, size]
      exact Iff.rfl
    rw [← free]
    constructor
    · rintro (free | ⟨place, named⟩)
      · exact free
      · rw [diskNames_boot] at named
        cases named
    · exact .inl

/-! ### One step -/

/-- A frame that is free or somewhere is what one environment may use, or another has it. -/
theorem covers_iff_held (state : KernelState) (slot frame : Nat) :
    Covers state.freeFrameList state.names frame ↔
      state.Held slot [] frame ∨ ∃ place : Place, place.slot ≠ slot ∧ state.names place = some frame := by
  constructor
  · rintro (free | ⟨place, named⟩)
    · exact .inl (.inl free)
    · by_cases own : place.slot = slot
      · exact .inl (.inr (.inl ⟨place, own, named⟩))
      · exact .inr ⟨place, own, named⟩
  · rintro ((free | ⟨place, -, named⟩ | inHand) | ⟨place, -, named⟩)
    · exact .inl free
    · exact .inr ⟨place, named⟩
    · cases inHand
    · exact .inr ⟨place, named⟩

theorem covers_iff_heldDisk (state : KernelState) (slot diskFrame : Nat) :
    Covers state.diskFreeFrameList state.diskNames diskFrame ↔
      state.HeldDisk slot diskFrame ∨ ∃ place : Nat × Nat, place.1 ≠ slot ∧ state.diskNames place = some diskFrame := by
  constructor
  · rintro (free | ⟨⟨owner, page⟩, named⟩)
    · exact .inl (.inl free)
    · by_cases own : owner = slot
      · exact .inl (.inr ⟨page, own ▸ named⟩)
      · exact .inr ⟨(owner, page), own, named⟩
  · rintro ((free | ⟨page, named⟩) | ⟨place, -, named⟩)
    · exact .inl free
    · exact .inr ⟨_, named⟩
    · exact .inr ⟨place, named⟩

theorem Acts.diskNames_other (acts : Acts slot [] state [] next) (ledger : Ledger layout state) {place : Nat × Nat}
    (different : place.1 ≠ slot) : next.diskNames place = state.diskNames place := by
  simp only [KernelState.diskNames, acts.leaf_other ledger (List.forall_mem_nil _) different]

/-- The kernel works for one environment and loses nothing. -/
theorem Conserved.acts (conserved : Conserved layout state) (ledger : Ledger layout state)
    (acts : Acts slot [] state [] next) (keeps : Keeps slot [] state [] next) : Conserved layout next where
  frames frame := by
    have held : next.Held slot [] frame ↔ state.Held slot [] frame := ⟨acts.held frame, keeps.held frame⟩
    have others : (∃ place : Place, place.slot ≠ slot ∧ next.names place = some frame) ↔
        ∃ place : Place, place.slot ≠ slot ∧ state.names place = some frame :=
      exists_congr fun place => and_congr_right fun different => by
        rw [acts.names_other ledger (List.forall_mem_nil _) different]
    rw [← conserved.frames frame, covers_iff_held next slot, covers_iff_held state slot, held, others]
  diskFrames diskFrame := by
    have held : next.HeldDisk slot diskFrame ↔ state.HeldDisk slot diskFrame :=
      ⟨acts.heldDisk diskFrame, keeps.heldDisk diskFrame⟩
    have others : (∃ place : Nat × Nat, place.1 ≠ slot ∧ next.diskNames place = some diskFrame) ↔
        ∃ place : Nat × Nat, place.1 ≠ slot ∧ state.diskNames place = some diskFrame :=
      exists_congr fun place => and_congr_right fun different => by
        rw [acts.diskNames_other ledger different]
    rw [← conserved.diskFrames diskFrame, covers_iff_heldDisk next slot, covers_iff_heldDisk state slot, held, others]

theorem Conserved.scheduled (conserved : Conserved layout state) (scheduled : Scheduled state next) :
    Conserved layout next where
  frames frame := by
    rw [scheduled.free, scheduled.names]
    exact conserved.frames frame
  diskFrames diskFrame := by
    rw [scheduled.diskFree, scheduled.diskNames]
    exact conserved.diskFrames diskFrame

/-! ### Events -/

/-- The kernel works for one environment and loses nothing, between steps of the scheduler. -/
structure Tidies (slot : Nat) (state before middle next : KernelState) : Prop where
  first : Scheduled state before
  acts : Acts slot [] before [] middle
  keeps : Keeps slot [] before [] middle
  last : Scheduled middle next

theorem Tidies.scheduled (slot : Nat) (scheduled : Scheduled state next) : Tidies slot state state state next :=
  ⟨.refl state, .refl slot [] state, .refl slot [] state, scheduled⟩

theorem envExit_scheduled (current : Nat) (state : KernelState) : Scheduled state (envExit current state) := by
  have left : Scheduled state { state.setEnv current { state.envs current with envStatus := .exit } with
      envExitQueue := current :: state.envExitQueue
      curenv := none } := .of_status current .exit rfl
  exact left.trans (fosScheduler_shuffled _).1.toScheduled

theorem afterPanic_scheduled (state : KernelState) : Scheduled state (afterPanic state) := by
  unfold afterPanic
  cases state.curenv with
  | none => exact (fosScheduler_shuffled state).1.toScheduled
  | some current => exact envExit_scheduled current state

/-- The environment that runs goes on, or it stops. -/
theorem Tidies.ran (acts : Acts slot [] state [] middle) (keeps : Keeps slot [] state [] middle) :
    Tidies slot state state middle middle :=
  ⟨.refl state, acts, keeps, .refl middle⟩

theorem Tidies.stopped (acts : Acts slot [] state [] middle) (keeps : Keeps slot [] state [] middle) :
    Tidies slot state state middle (afterPanic middle) :=
  ⟨.refl state, acts, keeps, afterPanic_scheduled middle⟩

theorem Population.tidies_fault (valid : layout.Valid) (population : Population layout ram strict tidy state)
    (isTidy : tidy) {address : Nat} {access : Access} (permitted : Permitted strict tidy state (.fault address access))
    (executes : Kernel.exec state (.fault address access) = some next) :
    ∃ slot before middle, Tidies slot state before middle next := by
  obtain ⟨slot, curenv, -, ⟨-, handled⟩ | ⟨stopped, halted, refused, rfl⟩⟩ := population.fault_outcome valid executes
  · cases handled with
    | tabled becomes keeps calm => exact ⟨slot, _, _, .ran becomes.acts keeps⟩
    | served served => exact ⟨slot, _, _, .ran served.acts (served.keeps isTidy)⟩
  · by_cases high : ustackTop ≤ address
    · rw [refused high]
      exact ⟨slot, _, _, .scheduled slot (afterPanic_scheduled state)⟩
    · have legal := permitted.listed isTidy (not_le.1 high) slot curenv
      exact ⟨slot, _, _, .stopped halted.acts (halted.legal isTidy legal).1⟩

theorem Population.tidies_create (valid : layout.Valid) (population : Population layout ram strict tidy state)
    {program : UserProgram} {pageWSSize secondListSize : Nat} (loadable : program.Loadable)
    (completes : Completes state (.create program pageWSSize secondListSize))
    (executes : Kernel.exec state (.create program pageWSSize secondListSize) = some next) :
    ∃ slot before middle, Tidies slot state before middle next := by
  cases population.create_outcome valid loadable executes with
  | refused same =>
      rw [same]
      exact ⟨0, _, _, .scheduled 0 (.refl state)⟩
  | created slot pages created free creates entered =>
      rw [entered]
      have there : Scheduled created (created.setEnvFreeList state.envFreeList) := .of_same rfl
      have back : Scheduled (created.setEnvFreeList state.envFreeList) created := .of_same rfl
      have keeps := (creates.keeps (creates.nodup loadable)).trans (there.keeps slot)
      exact ⟨slot, _, _, .refl state, creates.acts, keeps, back.trans (.of_status slot .new rfl)⟩
  | abandoned slot stopped free panics abandons stops =>
      obtain ⟨message, panics⟩ := panics
      exact ((wp_of_error panics).1 completes).elim

theorem Population.tidies_kill (valid : layout.Valid) (population : Population layout ram strict tidy state)
    (isTidy : tidy) (executes : Kernel.exec state (.kill slot) = some next) :
    ∃ slot before middle, Tidies slot state before middle next := by
  obtain ⟨-, freed⟩ := population.kill_outcome valid executes
  have removed : Scheduled state (schedRemove slot state) := .of_status slot .unknown rfl
  have there : Scheduled next (next.setEnvFreeList (schedRemove slot state).envFreeList) := .of_same rfl
  have back : Scheduled (next.setEnvFreeList (schedRemove slot state).envFreeList) next := .of_same rfl
  exact ⟨slot, _, _, removed, freed.acts, (freed.keeps isTidy).trans (there.keeps slot), back⟩

theorem Population.tidies_allocatePage (valid : layout.Valid) (population : Population layout ram strict tidy state)
    (isTidy : tidy) {address perm : Nat} (permitted : Permitted strict tidy state (.allocatePage address perm))
    (executes : Kernel.exec state (.allocatePage address perm) = some next) :
    ∃ slot before middle, Tidies slot state before middle next := by
  obtain ⟨slot, curenv, granted | ⟨stopped, panicked, rfl⟩⟩ :=
    population.allocatePage_outcome valid permitted.contained executes
  · obtain ⟨active, accepted⟩ := permitted.listed isTidy slot curenv
    exact ⟨slot, _, _, .ran granted.acts (granted.keeps active accepted)⟩
  · have active := (permitted.listed isTidy slot curenv).1
    have page := (population.running curenv).2.2.resident.pages address (List.mem_append_left _ active)
    have whole : roundDown address = address := (roundDown_eq address).trans (pageOf_mul_pageSize page)
    exact ⟨slot, _, _, .stopped panicked.acts (panicked.keeps (List.forall_mem_singleton.2 (whole.symm ▸ active)))⟩

/-- No such event loses a frame. -/
theorem Population.tidies (valid : layout.Valid) (population : Population layout ram strict tidy state) (isTidy : tidy)
    (permitted : Permitted strict tidy state event) (completes : Completes state event)
    (executes : Kernel.exec state event = some next) : ∃ slot before middle, Tidies slot state before middle next := by
  cases event with
  | create program pageWSSize secondListSize => exact population.tidies_create valid permitted.contained.1 completes executes
  | start slot =>
      obtain ⟨member, started⟩ := of_ite_some executes
      cases started
      exact ⟨slot, _, _, .scheduled slot (schedStart_shuffled member).toScheduled⟩
  | schedule =>
      cases executes
      exact ⟨0, _, _, .scheduled 0 (fosScheduler_shuffled state).1.toScheduled⟩
  | fault address access => exact population.tidies_fault valid isTidy permitted executes
  | access address access =>
      obtain ⟨slot, -, outcome⟩ := population.access_outcome permitted.contained executes
      cases access with
      | read =>
          rw [outcome]
          exact ⟨slot, _, _, .scheduled slot (.refl state)⟩
      | write value => exact ⟨slot, _, _, .ran outcome.2.1.acts outcome.2.2.1⟩
  | allocateMem address size =>
      obtain ⟨slot, curenv, allocated | ⟨stopped, panicked, rfl⟩⟩ :=
        population.allocateMem_outcome valid permitted.contained executes
      · have active := permitted.listed isTidy slot curenv
        exact ⟨slot, _, _, .ran allocated.acts (allocated.keeps_of_active (population.running curenv).2.2 active)⟩
      · have active := permitted.listed isTidy slot curenv
        exact ⟨slot, _, _, .stopped panicked.acts (panicked.keeps active)⟩
  | freeMem address size =>
      obtain ⟨slot, removed, -, stepped, released⟩ := population.freeMem_outcome valid executes
      exact ⟨slot, _, _, .ran (stepped.becomes.acts.trans released.acts) (stepped.keeps.trans released.keeps)⟩
  | allocatePage address perm => exact population.tidies_allocatePage valid isTidy permitted executes
  | exit =>
      rw [Kernel.exec] at executes
      obtain ⟨slot, curenv, exits⟩ := curenv_of_exec executes
      cases exits
      exact ⟨slot, _, _, .scheduled slot (envExit_scheduled slot state)⟩
  | kill slot => exact population.tidies_kill valid isTidy executes

theorem Conserved.exec (valid : layout.Valid) (population : Population layout ram strict tidy state) (isTidy : tidy)
    (conserved : Conserved layout state) (permitted : Permitted strict tidy state event) (completes : Completes state event)
    (executes : Kernel.exec state event = some next) : Conserved layout next := by
  obtain ⟨slot, before, middle, tidies⟩ := population.tidies valid isTidy permitted completes executes
  have inv := tidies.first.inv population.inv
  exact ((conserved.scheduled tidies.first).acts inv.toLedger tidies.acts tidies.keeps).scheduled tidies.last

/-! ### An environment that is gone -/

theorem KernelState.Vacant.names_eq_none (vacant : state.Vacant slot) {place : Place} (own : place.slot = slot) :
    state.names place = none := by
  cases place with
  | root side other =>
      have same : other = slot := own
      simp only [KernelState.names, same, vacant.root, if_true]
  | table side other index =>
      have same : other = slot := own
      have absent : state.dirWord side slot index = 0 := if_pos (.inl (vacant.root side))
      simp only [KernelState.names, same, absent, if_true]
  | page other number =>
      have same : other = slot := own
      simp only [KernelState.names, same, vacant.leaf, if_true]

/-- What is free is what no environment but this one has: it has nothing left. -/
structure Returned (layout : BootLayout) (slot : Nat) (state : KernelState) : Prop where
  nodup : state.freeFrameList.Nodup
  frames : ∀ frame, frame ∈ state.freeFrameList ↔
    layout.Managed frame ∧ ∀ place : Place, place.slot ≠ slot → state.names place ≠ some frame
  nodupDisk : state.diskFreeFrameList.Nodup
  diskFrames : ∀ diskFrame, diskFrame ∈ state.diskFreeFrameList ↔
    (0 < diskFrame ∧ diskFrame < pagesPerFile) ∧
      ∀ place : Nat × Nat, place.1 ≠ slot → state.diskNames place ≠ some diskFrame

/-- The numbers of free frames and free disk frames, by what the others have. -/
theorem length_eq_ncard {items : List Nat} (nodup : items.Nodup) {property : Nat → Prop}
    (same : ∀ item, item ∈ items ↔ property item) : items.length = Set.ncard {item | property item} := by
  have finite : {item | property item} = (items.toFinset : Set Nat) := by
    ext item
    rw [Set.mem_ofPred_eq, Finset.mem_coe, List.mem_toFinset, same]
  rw [finite, Set.ncard_coe_finset, List.toFinset_card_of_nodup nodup]

theorem Conserved.returned (conserved : Conserved layout state) (ledger : Ledger layout state)
    (vacant : state.Vacant slot) : Returned layout slot state where
  nodup := ledger.exclusive.nodup
  frames frame := by
    rw [← conserved.frames frame]
    constructor
    · exact fun free => ⟨.inl free, fun place _ named => ledger.exclusive.apart place frame named free⟩
    · rintro ⟨free | ⟨place, named⟩, others⟩
      · exact free
      · have own : place.slot = slot := by
          by_contra different
          exact others place different named
        rw [vacant.names_eq_none own] at named
        cases named
  nodupDisk := ledger.diskExclusive.nodup
  diskFrames diskFrame := by
    rw [← conserved.diskFrames diskFrame]
    constructor
    · exact fun free => ⟨.inl free, fun place _ named => ledger.diskExclusive.apart place diskFrame named free⟩
    · rintro ⟨free | ⟨⟨owner, page⟩, named⟩, others⟩
      · exact free
      · have own : owner = slot := by
          by_contra different
          exact others (owner, page) different named
        simp only [KernelState.diskNames, own, vacant.leaf, if_true, reduceCtorEq] at named

/-- Contained events that keep every page in a list, of which none is an `env_create` that panics. -/
structure Tidy (state : KernelState) (event : Event) : Prop where
  contained : Contained state event
  listed : KeepsListed state event
  completes : Completes state event

theorem Tidy.permitted (tidy : Tidy state event) : Permitted False True state event :=
  ⟨tidy.contained, False.elim, fun _ => tidy.listed⟩

theorem conserved_of_reaches (valid : layout.Valid) (reached : (kernel layout).Reaches Tidy state) :
    Conserved layout state := by
  have both : (∃ ram, Population layout ram False True state) ∧ Conserved layout state := by
    apply reached.invariant fun state => (∃ ram, Population layout ram False True state) ∧ Conserved layout state
    · rintro _ ⟨ram, disk, rfl⟩
      exact ⟨⟨ram, boot_population valid ram disk⟩, .boot valid ram disk⟩
    · rintro before event after ⟨⟨ram, population⟩, conserved⟩ tidy executes
      exact ⟨⟨ram, population.exec valid tidy.permitted executes⟩,
        conserved.exec valid population trivial tidy.permitted tidy.completes executes⟩
  exact both.2

/-- A slot that no environment has, before `env_create` and after `env_free`: its frames are free, once. -/
def ReturnsAll (layout : BootLayout) (state : KernelState) : Prop :=
  (∀ slot ∈ state.envFreeList, Returned layout slot state ∧
    state.freeFrameList.length =
      Set.ncard {frame | layout.Managed frame ∧ ∀ place : Place, place.slot ≠ slot → state.names place ≠ some frame} ∧
    state.diskFreeFrameList.length = Set.ncard {diskFrame | (0 < diskFrame ∧ diskFrame < pagesPerFile) ∧
      ∀ place : Nat × Nat, place.1 ≠ slot → state.diskNames place ≠ some diskFrame}) ∧
  ∀ slot next, exec state (.kill slot) = some next → slot ∈ next.envFreeList ∧ Returned layout slot next

/-! ### What `malloc` loses -/

/-- A program with a segment in the heap. -/
def heapProgram : UserProgram := ⟨"heap", fun _ => 0, [⟨0, 16, 16, 0x80000000⟩]⟩

/-- No place of a slot names the frame. -/
def NamesNowhere (state : KernelState) (slot frame : Nat) : Prop :=
  ∀ side ∈ [Side.user, Side.disk], state.root side slot ≠ frame ∧
    ∀ index < userTables, state.dirWord side slot index ≠ 0 → frameOf (state.dirWord side slot index) ≠ frame ∧
      (side = .user → ∀ offset < 1024, frameOf (state.leaf .user slot (index * 1024 + offset)) ≠ frame)

instance {frame : Nat} : Decidable (NamesNowhere state slot frame) :=
  inferInstanceAs (Decidable (∀ side ∈ [Side.user, Side.disk], _ ∧ ∀ index < userTables, _))

theorem NamesNowhere.names_ne {frame : Nat} (nowhere : NamesNowhere state slot frame) {place : Place}
    (own : place.slot = slot) : state.names place ≠ some frame := by
  have listed (side : Side) : side ∈ [Side.user, Side.disk] := by cases side <;> simp
  intro named
  cases place with
  | root side other =>
      obtain rfl : other = slot := own
      by_cases absent : state.root side other = 0
      · simp only [KernelState.names, absent, if_true, reduceCtorEq] at named
      · rw [KernelState.names_root absent] at named
        exact (nowhere side (listed side)).1 (Option.some.inj named)
  | table side other index =>
      obtain rfl : other = slot := own
      by_cases absent : state.dirWord side other index = 0
      · simp only [KernelState.names, absent, if_true, reduceCtorEq] at named
      · rw [KernelState.names_table absent] at named
        have low := (KernelState.root_ne_zero_of_dirWord absent).2
        exact ((nowhere side (listed side)).2 index low absent).1 (Option.some.inj named)
  | page other number =>
      obtain rfl : other = slot := own
      by_cases absent : state.leaf .user other number = 0
      · simp only [KernelState.names, absent, if_true, reduceCtorEq] at named
      · rw [KernelState.names_page absent] at named
        have present := KernelState.dirWord_ne_zero_of_leaf absent
        have low := (KernelState.root_ne_zero_of_dirWord present).2
        have apart := ((nowhere .user (listed .user)).2 _ low present).2 rfl (number % 1024) (Nat.mod_lt _ (by decide))
        rw [Nat.div_add_mod'] at apart
        exact apart (Option.some.inj named)

theorem heapProgram_loadable : heapProgram.Loadable where
  sound := List.forall_mem_singleton.2 ⟨by decide, by decide⟩
  inside := by decide
  apart := List.pairwise_singleton ..
  offStack := List.forall_mem_singleton.2 (by
    simp only [ProgramSegment.Touches]
    decide)

theorem Population.exists_kill (valid : layout.Valid) (population : Population layout ram strict tidy state)
    (queued : slot ∈ state.envNewQueue ∨ slot ∈ state.envReadyQueue ∨ slot ∈ state.envExitQueue) :
    ∃ next, Kernel.exec state (.kill slot) = some next := by
  obtain ⟨housed, -, loaded, -⟩ := population.removed queued
  have frees : wp (envFree slot) _ (fun _ _ => False) (schedRemove slot state) := envFree_spec valid housed.inv loaded
  obtain ⟨_, next, outcome, -⟩ | ⟨_, _, -, never⟩ := wp_cases frees
  · refine ⟨next, ?_⟩
    rw [Kernel.exec, if_pos queued, outcome]
    rfl
  · exact never.elim

end Fos.Kernel
