import Fos.Kernel.FiledPages

/-! What an environment reads is what it wrote last, wherever its pages have been in the meantime. -/

set_option autoImplicit false

namespace Fos.Kernel

open Foundation

variable {layout : BootLayout} {ram : Nat → Page} {program : UserProgram} {slot : Nat} {strict tidy : Prop}
  {state next : KernelState}

/-! ### Runs of reads and writes -/

/-- A kernel, and what an environment wrote last to each byte of its memory, by page and offset. -/
structure Journal where
  kernel : KernelState
  written : Nat → Nat → Option Nat

namespace Journal

/-- Memory without the page file: a write replaces a byte. -/
def note (slot : Nat) (journal : Journal) : Event → Nat → Nat → Option Nat
  | .access address (.write value) =>
      if journal.kernel.curenv = some slot then
        Function.update journal.written (pageOf address)
          (Function.update (journal.written (pageOf address)) (address % pageSize) (some (value % 256)))
      else journal.written
  | _ => journal.written

theorem note_eq_or (slot : Nat) (journal : Journal) (event : Event) :
    journal.note slot event = journal.written ∨
      journal.kernel.curenv = some slot ∧ ∃ address value, event = .access address (.write value) := by
  cases event with
  | access address access =>
      cases access with
      | read => exact .inl rfl
      | write value =>
          by_cases curenv : journal.kernel.curenv = some slot
          · exact .inr ⟨curenv, address, value, rfl⟩
          · exact .inl (if_neg curenv)
  | _ => exact .inl rfl

def exec (slot : Nat) (journal : Journal) (event : Event) : Option Journal :=
  (Kernel.exec journal.kernel event).bind fun kernel =>
    if slot ∈ kernel.runnable then some ⟨kernel, journal.note slot event⟩ else none

/-- `env_create` has just made the environment, and its stack page has a page-file frame. -/
structure Begins (layout : BootLayout) (allowed : KernelState → Event → Prop) (program : UserProgram) (slot : Nat)
    (journal : Journal) : Prop where
  created : ∃ before pageWSSize secondListSize,
    (Kernel.kernel layout).Reaches allowed before ∧
      allowed before (.create program pageWSSize secondListSize) ∧ slot ∈ before.envFreeList ∧
      Kernel.exec before (.create program pageWSSize secondListSize) = some journal.kernel
  runnable : slot ∈ journal.kernel.runnable
  stacked : journal.kernel.leaf .disk slot stackPage ≠ 0
  written : journal.written = fun _ _ => none

end Journal

/-- The runs of an environment, from its creation on. -/
def journals (layout : BootLayout) (allowed : KernelState → Event → Prop) (program : UserProgram) (slot : Nat) :
    System Journal Event where
  start := Journal.Begins layout allowed program slot
  exec := Journal.exec slot

/-- The calls that change which pages an environment has. -/
def ChangesPages : Event → Prop
  | .allocateMem _ _ | .freeMem _ _ | .allocatePage _ _ => True
  | _ => False

/-- The environment reads and writes, and the page file has a frame left. -/
structure ReadsAndWrites (slot : Nat) (journal : Journal) (event : Event) : Prop where
  plain : journal.kernel.curenv = some slot → ¬ ChangesPages event
  room : journal.kernel.diskFreeFrameList ≠ []

/-- And no environment gets at the kernel's part of memory. -/
structure Plain (slot : Nat) (journal : Journal) (event : Event) : Prop extends ReadsAndWrites slot journal event where
  contained : Contained journal.kernel event

/-- The byte an access of the environment reads, if its address is translated. -/
def KernelState.readByte (state : KernelState) (slot address : Nat) : Option Nat :=
  (state.userTranslate (state.envs slot).envPageDirectory address .read).map fun frame =>
    (state.mem frame).byte (address % pageSize)

/-! ### Environments that others do not disturb -/

theorem Undisturbed.root {side : Side} (undisturbed : Undisturbed slot state next) :
    next.root side slot = state.root side slot := by
  obtain ⟨status, env⟩ := undisturbed.status
  cases side <;> simp only [KernelState.root, env]

theorem Undisturbed.healthy (undisturbed : Undisturbed slot state next) (healthy : Healthy strict tidy slot state) :
    Healthy strict tidy slot next := by
  obtain ⟨status, env⟩ := undisturbed.status
  have leaf : next.leaf .user slot = state.leaf .user slot := congrArg Space.entry undisturbed.space
  constructor
  · exact undisturbed.root ▸ healthy.live
  · rw [env]
    exact healthy.placed
  · rw [env]
    exact { healthy.lists with }
  · rw [env, leaf]
    exact healthy.resident

/-! ### The simulation -/

/-- Every byte that was written is where an access will find it. -/
structure Remembers (slot : Nat) (journal : Journal) : Prop where
  healthy : Healthy False True slot journal.kernel
  backed : (journal.kernel.space slot).Backed
  recalls : Space.Recalls journal.written (journal.kernel.space slot)

namespace Remembers

variable {journal after : Journal} {event : Event}

theorem undisturbed (remembers : Remembers slot journal) (undisturbed : Undisturbed slot journal.kernel after.kernel)
    (same : after.written = journal.written) : Remembers slot after where
  healthy := undisturbed.healthy remembers.healthy
  backed := undisturbed.space ▸ remembers.backed
  recalls := by
    rw [same, undisturbed.space]
    exact remembers.recalls

/-- A page fault moves pages. -/
theorem fault {address : Nat} (remembers : Remembers slot journal) (running : Running layout ram slot journal.kernel)
    (room : journal.kernel.diskFreeFrameList ≠ [])
    (handled : Handled layout ram False True slot address journal.kernel after.kernel)
    (same : after.written = journal.written) : Remembers slot after := by
  refine ⟨(handled.goesOn running remembers.healthy).2.2, ?_, ?_⟩
  · cases handled with
    | tabled becomes =>
        rw [becomes.space]
        exact remembers.backed
    | served served => exact served.backed room remembers.backed
  · rw [same]
    cases handled with
    | tabled becomes =>
        rw [becomes.space]
        exact remembers.recalls
    | served served => exact remembers.recalls.moves (served.moves trivial)

/-- A write changes its byte, and sets the modified bit of its page. -/
theorem write {address value : Nat} (remembers : Remembers slot journal) (running : Running layout ram slot journal.kernel)
    (low : address < userTop)
    (accesses : userAccess (journal.kernel.root .user slot) address (.write value) journal.kernel = some after.kernel)
    (noted : after.written = Function.update journal.written (pageOf address)
      (Function.update (journal.written (pageOf address)) (address % pageSize) (some (value % 256)))) :
    Remembers slot after := by
  obtain ⟨accessible, becomes, -, calm⟩ := userAccess_write running low accesses
  have inPage : address % pageSize < pageSize := Nat.mod_lt _ (by decide)
  have mapped : (journal.kernel.space slot).entry (pageOf address) ≠ 0 := accessible.2.ne_zero
  have modified : ((journal.kernel.space slot).entry (pageOf address) ||| permModified).testBit 6 = true := by
    rw [Nat.testBit_or]
    exact Bool.or_true _
  have some : (journal.kernel.space slot).entry (pageOf address) ||| permModified ≠ 0 := fun zero => by
    rw [zero] at modified
    cases modified
  refine ⟨(remembers.healthy.writeByte running accessible becomes calm).2, ?_, ?_⟩
  · rw [becomes.space]
    intro page present
    apply remembers.backed page
    by_cases same : page = pageOf address
    · exact same ▸ mapped
    · simpa only [Space.writeByte, Space.setContent, Space.setEntry, Function.update_of_ne same] using present
  · rw [noted, becomes.space]
    apply remembers.recalls.write (remembers.backed _ mapped) some mapped modified
    · rw [Page.byte_words _ inPage, Page.byte_setByte, if_pos rfl]
    · intro other inside different
      rw [Page.byte_words _ inside, Page.byte_setByte, if_neg different]

theorem begins (valid : layout.Valid) (begins : journal.Begins layout Contained program slot) : Remembers slot journal := by
  obtain ⟨before, pageWSSize, secondListSize, reached, contained, free, creates⟩ := begins.created
  obtain ⟨ram, population⟩ := population_of_contained valid reached
  obtain ⟨loadable, second, small⟩ := contained
  obtain ⟨pages, created, arrives, same⟩ := population.exists_created
    (population.passage valid ⟨loadable, second, small⟩ creates) free begins.runnable
  have filed := arrives.filed_iff (population.vacant slot free) loadable.sound
  refine ⟨same.healthy ((arrives.healthy loadable second small).weaken False.elim id), ?_, ?_⟩
  · intro page mapped
    rw [same.space] at mapped ⊢
    rcases List.mem_append.1 ((arrives.mapped page).1 mapped) with loaded | stack
    · obtain ⟨segment, member, touches⟩ := arrives.within _ loaded
      rw [pageOf_mul] at touches
      exact (filed page).2 (.inl ⟨segment, member, .inl touches⟩)
    · have isStack : page = stackPage := by
        rw [← pageOf_mul page, List.mem_singleton.1 stack]
      have stacked := begins.stacked
      change (journal.kernel.space slot).diskFrame stackPage ≠ 0 at stacked
      rw [same.space] at stacked
      exact isStack ▸ stacked
  · intro page offset value _ was
    rw [begins.written] at was
    cases was

/-- The environment accesses its memory without a fault. -/
theorem access {address : Nat} {access : Access} (remembers : Remembers slot journal)
    (running : Running layout ram slot journal.kernel) (curenv : journal.kernel.curenv = some slot) (low : address < userTop)
    (accesses : userAccess (journal.kernel.root .user slot) address access journal.kernel = some after.kernel)
    (noted : after.written = journal.note slot (.access address access)) : Remembers slot after := by
  cases access with
  | read =>
      have same := userAccess_read accesses
      have kept : after = journal := by
        cases after
        cases journal
        exact congrArg₂ Journal.mk same noted
      exact kept ▸ remembers
  | write value =>
      rw [Journal.note, if_pos curenv] at noted
      exact remembers.write running low accesses noted

theorem exec (valid : layout.Valid) (reached : (kernel layout).Reaches Contained journal.kernel)
    (runnable : slot ∈ journal.kernel.runnable) (remembers : Remembers slot journal) (plain : Plain slot journal event)
    (enters : Kernel.exec journal.kernel event = some after.kernel) (goesOn : slot ∈ after.kernel.runnable)
    (noted : after.written = journal.note slot event) : Remembers slot after := by
  obtain ⟨ram, population⟩ := population_of_contained valid reached
  rcases population.undisturbed_or_works (population.passage valid plain.contained enters) runnable goesOn with
    undisturbed | ⟨curenv, works⟩
  · rcases journal.note_eq_or slot event with same | ⟨curenv, address, value, rfl⟩
    · exact remembers.undisturbed undisturbed (noted.trans same)
    · obtain ⟨-, running, -⟩ := population.running curenv
      obtain ⟨current, curenv', allowed⟩ := curenv_of_exec enters
      obtain rfl := Option.some_inj.1 (curenv.symm.trans curenv')
      exact remembers.access running curenv plain.contained (of_ite_some allowed).2 noted
  · obtain ⟨-, running, -⟩ := population.running curenv
    cases works with
    | fault faults returns =>
        exact remembers.fault running plain.room
          ((wp_of_ok returns).1 (faultHandler_spec valid running remembers.healthy (population.inaccessible curenv faults))) noted
    | access accesses => exact remembers.access running curenv plain.contained accesses noted
    | allocateMem => exact absurd trivial (plain.plain curenv)
    | freeMem => exact absurd trivial (plain.plain curenv)
    | allocatePage => exact absurd trivial (plain.plain curenv)

end Remembers

theorem Journal.exec_eq {journal after : Journal} {event : Event} (executes : journal.exec slot event = some after) :
    Kernel.exec journal.kernel event = some after.kernel ∧ slot ∈ after.kernel.runnable ∧
      after.written = journal.note slot event := by
  obtain ⟨kernel, enters, rest⟩ := Option.bind_eq_some_iff.1 executes
  by_cases runnable : slot ∈ kernel.runnable
  · rw [if_pos runnable] at rest
    cases rest
    exact ⟨enters, runnable, rfl⟩
  · rw [if_neg runnable] at rest
    cases rest

/-- A run of reads and writes, as a run of the kernel. -/
theorem remembers_of_reaches (valid : layout.Valid) {journal : Journal}
    (reached : (journals layout Contained program slot).Reaches (Plain slot) journal) :
    (kernel layout).Reaches Contained journal.kernel ∧ slot ∈ journal.kernel.runnable ∧
      Remembers slot journal := by
  apply reached.invariant
  · intro first begins
    obtain ⟨before, pageWSSize, secondListSize, reached, contained, -, creates⟩ := begins.created
    exact ⟨reached.step _ contained creates, begins.runnable, .begins valid begins⟩
  · intro journal event after alive plain executes
    obtain ⟨reached, runnable, remembers⟩ := alive
    obtain ⟨enters, goesOn, noted⟩ := Journal.exec_eq executes
    exact ⟨reached.step _ plain.contained enters, goesOn, remembers.exec valid reached runnable plain enters goesOn noted⟩

/-- The page of an address below `USER_TOP` that is read is mapped, and its frame is read. -/
theorem leaf_of_userTranslate {state : KernelState} {address frame : Nat} (live : state.root .user slot ≠ 0)
    (low : address < userTop) (reaches : state.userTranslate (state.root .user slot) address .read = some frame) :
    state.leaf .user slot (pageOf address) ≠ 0 ∧ frame = frameOf (state.leaf .user slot (pageOf address)) := by
  have some {entry : Nat} (grants : hasPerm entry (permPresent ||| permUser) = true) : entry ≠ 0 := by
    rintro rfl
    cases grants
  simp only [KernelState.userTranslate, mem_root live low] at reaches
  split at reaches
  · next grants =>
      rw [mem_table (some grants)] at reaches
      split at reaches
      · next allowed => exact ⟨some allowed, (Option.some.inj reaches).symm⟩
      · cases reaches
  · cases reaches

theorem lt_userTop_of_pageOf {address : Nat} (low : pageOf address < userPages) : address < userTop := by
  have pages : userPages * pageSize = userTop := by decide
  simp only [pageOf, pageSize] at *
  omega

/-- Paging loses no write. -/
theorem readByte_of_reaches (valid : layout.Valid) {journal : Journal}
    (reached : (journals layout Contained program slot).Reaches (Plain slot) journal) {address value byte : Nat}
    (written : journal.written (pageOf address) (address % pageSize) = some value)
    (reads : journal.kernel.readByte slot address = some byte) : byte = value := by
  obtain ⟨-, -, remembers⟩ := remembers_of_reaches valid reached
  have inPage : address % pageSize < pageSize := Nat.mod_lt _ (by decide)
  obtain ⟨placed, -, -⟩ := remembers.recalls _ _ _ inPage written
  have low : address < userTop := lt_userTop_of_pageOf (KernelState.page_lt_of_leaf placed)
  obtain ⟨frame, reaches, rfl⟩ := Option.map_eq_some_iff.1 reads
  obtain ⟨mapped, rfl⟩ := leaf_of_userTranslate remembers.healthy.live low reaches
  have content : (journal.kernel.space slot).content (pageOf address) =
      (journal.kernel.mem (frameOf (journal.kernel.leaf .user slot (pageOf address)))).words := if_neg mapped
  calc (journal.kernel.mem (frameOf (journal.kernel.leaf .user slot (pageOf address)))).byte (address % pageSize)
      = ((journal.kernel.space slot).content (pageOf address)).byte (address % pageSize) := by
        rw [content, Page.byte_words _ inPage]
    _ = value := remembers.recalls.mapped inPage mapped written

/-- Faults, accesses and the scheduler, as long as the page file has a frame left. -/
private def Paged (journal : Journal) : Event → Prop
  | .start _ | .schedule | .fault _ _ => journal.kernel.diskFreeFrameList ≠ []
  | .access address _ => address < userTop ∧ journal.kernel.diskFreeFrameList ≠ []
  | _ => False

private instance (journal : Journal) (event : Event) : Decidable (Paged journal event) := by
  cases event <;> unfold Paged <;> infer_instance

private theorem Paged.plain {journal : Journal} {event : Event} (paged : Paged journal event) : Plain slot journal event := by
  cases event with
  | start => exact ⟨⟨fun _ changes => changes, paged⟩, trivial⟩
  | schedule => exact ⟨⟨fun _ changes => changes, paged⟩, trivial⟩
  | fault => exact ⟨⟨fun _ changes => changes, paged⟩, trivial⟩
  | access => exact ⟨⟨fun _ changes => changes, paged.2⟩, paged.1⟩
  | _ => exact paged.elim

/-- Two pages have room in `ActiveList`. The page that was written to is saved, unmapped and loaded again. -/
theorem readByte_of_reaches_reloaded : ∃ journal,
    (journals .small Contained emptyProgram 0).Reaches (Plain 0) journal ∧
      journal.kernel.readByte 0 (stackAddress + 4) = some 7 := by
  obtain ⟨kernel, creates, runnable, stacked, last, ran, written, reads⟩ :
      ∃ kernel ∈ exec cleanMachine (.create emptyProgram 3 1), 0 ∈ kernel.runnable ∧
        kernel.leaf .disk 0 stackPage ≠ 0 ∧
        ∃ last ∈ (journals .small Contained emptyProgram 0).attempt Paged ⟨kernel, fun _ _ => none⟩
          [.start 0, .schedule, .access (stackAddress + 4) (.write 7), .fault (stackAddress - 0x1000) .read,
            .fault (stackAddress - 0x2000) .read, .fault (stackAddress - 0x3000) .read, .fault stackAddress .read],
          last.written (pageOf (stackAddress + 4)) ((stackAddress + 4) % pageSize) = some 7 ∧
            (last.kernel.readByte 0 (stackAddress + 4)).isSome := by decide +kernel
  have begins : (journals .small Contained emptyProgram 0).start ⟨kernel, fun _ _ => none⟩ :=
    ⟨⟨cleanMachine, 3, 1, .start ⟨_, _, rfl⟩, ⟨UserProgram.loadable_of_nil rfl, by decide, by decide⟩, by decide, creates⟩,
      runnable, stacked, rfl⟩
  have reached : (journals .small Contained emptyProgram 0).Reaches (Plain 0) last :=
    ((System.Reaches.start begins).attempt ran).mono fun _ _ => Paged.plain
  obtain ⟨byte, reads⟩ := Option.isSome_iff_exists.1 reads
  refine ⟨last, reached, ?_⟩
  rw [reads, readByte_of_reaches BootLayout.small_valid reached written reads]

/-! ### Lost writes -/

/-- What the environment reads of a byte is not what it wrote there last. -/
def LosesWrite (slot : Nat) (journal : Journal) (address : Nat) : Prop :=
  ∃ value ∈ journal.written (pageOf address) (address % pageSize),
    ∃ byte ∈ journal.kernel.readByte slot address, byte ≠ value

instance {journal : Journal} {address : Nat} : Decidable (LosesWrite slot journal address) :=
  inferInstanceAs (Decidable (∃ value ∈ _, ∃ byte ∈ _, byte ≠ value))

private instance : ∀ event, Decidable (ChangesPages event)
  | .allocateMem _ _ | .freeMem _ _ | .allocatePage _ _ => inferInstanceAs (Decidable True)
  | .create _ _ _ | .start _ | .schedule | .fault _ _ | .access _ _ | .exit | .kill _ => inferInstanceAs (Decidable False)

private instance (journal : Journal) (event : Event) : Decidable (ReadsAndWrites slot journal event) :=
  decidable_of_iff ((journal.kernel.curenv = some slot → ¬ ChangesPages event) ∧ journal.kernel.diskFreeFrameList ≠ [])
    ⟨fun both => ⟨both.1, both.2⟩, fun reads => ⟨reads.plain, reads.room⟩⟩

/-- An environment is created after some events, and reads and writes among others. -/
structure Excerpt where
  earlier : List Event := []
  program : UserProgram
  pageWSSize : Nat
  secondListSize : Nat
  slot : Nat
  events : List Event
  address : Nat := stackAddress - 0x1000

private def touchStack (number : Nat) : Event := .fault (stackAddress - number * 0x1000) .read

private def writeStack (number value : Nat) : List Event :=
  [.fault (stackAddress - number * 0x1000) (.write value), .access (stackAddress - number * 0x1000) (.write value)]

/-- Two environments in which frame 0 was mapped free it, one before and one after it is given to a third. -/
private def freeTwice (touches : List Event) : List Event :=
  [.start 0, .start 1, .start 2, .schedule] ++ touches ++ [.schedule] ++ touches ++
    [.allocateMem stackAddress 4096, .schedule] ++ writeStack 1 7 ++
    [.schedule, .allocateMem stackAddress 4096, .schedule, .schedule] ++ writeStack 2 9

/-- Programs and sizes that `sys_create_env` passes on, and that are not contained. -/
def lossyRuns : List Excerpt :=
  [{ program := stackProgram, pageWSSize := 4, secondListSize := 4, slot := 0
     events := [.start 0, .schedule, touchStack 0, touchStack 2, touchStack 3, touchStack 0, touchStack 0] ++ writeStack 0 6 ++
      [touchStack 4] ++ writeStack 3 11 ++ [touchStack 1, touchStack 0] ++ writeStack 0 16 ++ [touchStack 4] ++
      writeStack 1 19 ++ [touchStack 3, touchStack 2] },
    -- segments on the page of the stack, in other environments
    { earlier := [.create stackProgram 3 1, .create stackProgram 3 1]
      program := emptyProgram, pageWSSize := 3, secondListSize := 1, slot := 2
      events := freeTwice stackFaults },
    -- other environments without room in `ActiveList`
    { earlier := [.create codeProgram 3 3, .create codeProgram 3 3]
      program := emptyProgram, pageWSSize := 3, secondListSize := 1, slot := 2
      events := freeTwice crampedFaults }]

/-- In each of these runs a byte that an environment wrote reads differently at the end. -/
theorem not_readByte : lossyRuns.Forall fun excerpt => ∃ journal,
    (journals .small (fun _ _ => True) excerpt.program excerpt.slot).Reaches (ReadsAndWrites excerpt.slot) journal ∧
      LosesWrite excerpt.slot journal excerpt.address := by
  refine List.forall_iff_forall_mem.mpr fun excerpt member => ?_
  have loses : ∀ excerpt ∈ lossyRuns, ∃ before ∈ (kernel .small).run cleanMachine excerpt.earlier,
      excerpt.slot ∈ before.envFreeList ∧
        ∃ created ∈ exec before (.create excerpt.program excerpt.pageWSSize excerpt.secondListSize),
          excerpt.slot ∈ created.runnable ∧ created.leaf .disk excerpt.slot stackPage ≠ 0 ∧
            ∃ last ∈ (journals .small (fun _ _ => True) excerpt.program excerpt.slot).attempt (ReadsAndWrites excerpt.slot)
              ⟨created, fun _ _ => none⟩ excerpt.events, LosesWrite excerpt.slot last excerpt.address := by decide +kernel
  obtain ⟨before, earlier, free, created, creates, runnable, stacked, last, rest, lost⟩ := loses excerpt member
  have initial : (kernel .small).Reaches (fun _ _ => True) cleanMachine := .start ⟨_, _, rfl⟩
  have reached := initial.run (fun _ _ _ => trivial) earlier
  have begins : (journals .small (fun _ _ => True) excerpt.program excerpt.slot).start ⟨created, fun _ _ => none⟩ :=
    ⟨⟨before, _, _, reached, trivial, free, creates⟩, runnable, stacked, rfl⟩
  exact ⟨last, (System.Reaches.start begins).attempt rest, lost⟩

end Fos.Kernel
