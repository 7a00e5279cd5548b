import Fos.Kernel.CreationProperties
import Fos.Kernel.BootProperties

/-! The two images of a program that was loaded: the one in memory and the one in the page
file. -/

set_option autoImplicit false

namespace Fos.Kernel

open Foundation

variable {layout : BootLayout} {ram : Nat → Page} {slot : Nat} {state next : KernelState}
  {program : UserProgram} {segment : ProgramSegment}

namespace ProgramSegment

/-- The page after a segment whose file part ends it at a page boundary. The loader writes it,
though it is not a page of the segment. -/
def Strays (segment : ProgramSegment) (page : Nat) : Prop :=
  page = pageOf segment.fileEnd ∧ ¬ segment.Touches page

instance (segment : ProgramSegment) (page : Nat) : Decidable (segment.Touches page) :=
  inferInstanceAs (Decidable (_ ∧ _))

instance (segment : ProgramSegment) (page : Nat) : Decidable (segment.Strays page) :=
  inferInstanceAs (Decidable (_ ∧ _))

theorem touches_of_index {index : Nat} (sound : segment.Sound) (inFile : index < segment.sizeInFile) :
    segment.Touches (pageOf (segment.virtualAddress + index)) := by
  have file := sound.file
  simp only [Touches, firstPage, endPage, pageUp, pageOf, pageSize]
  omega

/-- The page of the last byte of the file part. -/
theorem touches_last (sound : segment.Sound) (some : 0 < segment.sizeInFile) :
    segment.Touches (pageOf (segment.fileEnd - 1)) := by
  have address : segment.fileEnd - 1 = segment.virtualAddress + (segment.sizeInFile - 1) := by
    simp only [fileEnd]
    omega
  rw [address]
  exact touches_of_index sound (by omega)

end ProgramSegment

/-! ### What is written for a page -/

theorem lastWrite_flatMap_ne_none {segments : List ProgramSegment} (zero : Page) {page : Nat}
    (sound : ∀ segment ∈ segments, segment.Sound) :
    lastWrite (segments.flatMap (segmentWrites program · zero)) page ≠ none ↔
      ∃ segment ∈ segments, segment.Touches page ∨ page = pageOf segment.fileEnd := by
  induction segments with
  | nil => simp [lastWrite]
  | cons first segments ih =>
      obtain ⟨soundFirst, soundRest⟩ := List.forall_mem_cons.1 sound
      have here := @lastWrite_segment_ne_none program first soundFirst zero page
      rw [List.flatMap_cons, lastWrite_append, ne_eq, Option.or_eq_none_iff, not_and_or, ← ne_eq, ← ne_eq,
        ih soundRest, here]
      simp only [List.mem_cons, exists_eq_or_imp]
      exact or_comm

/-- What segments write to a page that is none of theirs is zero. -/
theorem lastWrite_strays {segments : List ProgramSegment} (zero : Page) {page : Nat} {content : Page}
    (sound : ∀ segment ∈ segments, segment.Sound)
    (apart : ∀ segment ∈ segments, ¬ segment.Touches page)
    (written : lastWrite (segments.flatMap (segmentWrites program · zero)) page = some content)
    (offset : Nat) : content.byte offset = 0 := by
  induction segments with
  | nil => cases written
  | cons first segments ih =>
      obtain ⟨soundFirst, soundRest⟩ := List.forall_mem_cons.1 sound
      obtain ⟨apartFirst, apartRest⟩ := List.forall_mem_cons.1 apart
      rw [List.flatMap_cons, lastWrite_append] at written
      cases later : lastWrite (segments.flatMap (segmentWrites program · zero)) page with
      | some last =>
          rw [later, Option.some_or] at written
          exact ih soundRest apartRest (later.trans written)
      | none =>
          rw [later, Option.none_or] at written
          have strays : page = pageOf first.fileEnd :=
            ((lastWrite_segment_ne_none soundFirst zero page).1 (written ▸ Option.some_ne_none _)).resolve_left
              apartFirst
          obtain ⟨zeros, found, zeroBytes⟩ :=
            @lastWrite_stray program first soundFirst zero (strays ▸ apartFirst)
          rw [← strays, written] at found
          rw [Option.some.inj found]
          exact zeroBytes offset

/-- A page of a segment has what the segment wrote, or zeros of a later segment that ends at
its start. -/
theorem lastWrite_of_touches {before after : List ProgramSegment} (zero : Page) {page : Nat}
    (sound : ∀ other ∈ before ++ segment :: after, other.Sound)
    (apart : (before ++ segment :: after).Pairwise ProgramSegment.Apart) (touches : segment.Touches page) :
    ∃ content, lastWrite ((before ++ segment :: after).flatMap (segmentWrites program · zero)) page =
        some content ∧
      ((∃ later ∈ after, later.Strays page) → ∀ offset, content.byte offset = 0) ∧
      ((¬ ∃ later ∈ after, later.Strays page) →
        lastWrite (segmentWrites program segment zero) page = some content) := by
  obtain ⟨-, fromHere, -⟩ := List.pairwise_append.1 apart
  have apartAfter : ∀ later ∈ after, ¬ later.Touches page := fun later member both =>
    (List.pairwise_cons.1 fromHere).1 later member page ⟨touches, both⟩
  have soundAfter : ∀ later ∈ after, later.Sound := fun later member =>
    sound later (List.mem_append_right _ (List.mem_cons_of_mem _ member))
  have soundHere : segment.Sound := sound segment (List.mem_append_right _ (List.mem_cons_self ..))
  have wrote := (@lastWrite_segment_ne_none program segment soundHere zero page).2 (.inl touches)
  obtain ⟨own, ownWritten⟩ := Option.ne_none_iff_exists'.1 wrote
  have strayed : (∃ later ∈ after, later.Strays page) ↔
      lastWrite (after.flatMap (segmentWrites program · zero)) page ≠ none := by
    rw [lastWrite_flatMap_ne_none zero soundAfter]
    constructor
    · rintro ⟨later, member, strays⟩
      exact ⟨later, member, .inr strays.1⟩
    · rintro ⟨later, member, touched | ends⟩
      · exact absurd touched (apartAfter later member)
      · exact ⟨later, member, ends, apartAfter later member⟩
  rw [List.flatMap_append, List.flatMap_cons, lastWrite_append, lastWrite_append]
  cases later : lastWrite (after.flatMap (segmentWrites program · zero)) page with
  | none =>
      rw [Option.none_or, ownWritten, Option.some_or]
      exact ⟨own, rfl, fun some => absurd later (strayed.1 some), fun _ => rfl⟩
  | some last =>
      rw [Option.some_or, Option.some_or]
      refine ⟨last, rfl, fun _ => lastWrite_strays zero soundAfter apartAfter later, fun none => ?_⟩
      exact absurd (strayed.2 (later ▸ Option.some_ne_none last)) none

/-! ### The images -/

/-- What is in the page file at an address of an environment, if anything. -/
def KernelState.fileByte (state : KernelState) (slot address : Nat) : Option Nat :=
  let diskFrame := state.leaf .disk slot (pageOf address)
  if diskFrame = 0 then none else some ((state.diskPage diskFrame).byte (address % pageSize))

/-- What is in memory at an address of an environment, if its page is loaded. -/
def KernelState.memoryByte (state : KernelState) (slot address : Nat) : Option Nat :=
  let entry := state.leaf .user slot (pageOf address)
  if entry = 0 then none else some ((state.mem (frameOf entry)).byte (address % pageSize))

/-- Both images have a byte: the page file, and memory where the page is loaded. -/
def KernelState.Holds (state : KernelState) (slot address byte : Nat) : Prop :=
  state.fileByte slot address = some byte ∧
    (state.memoryByte slot address = none ∨ state.memoryByte slot address = some byte)

/-- Both images of every segment are right: the bytes of its file part, and zeros behind them
to the end of the page. -/
def KernelState.RightImage (state : KernelState) (slot : Nat) (program : UserProgram) : Prop :=
  ∀ segment ∈ program.segments,
    (∀ index < segment.sizeInFile, state.Holds slot (segment.virtualAddress + index)
      (program.image (segment.ptrStart + index) % 256)) ∧
    (0 < segment.sizeInFile → ∀ address, segment.fileEnd ≤ address →
      pageOf address = pageOf (segment.fileEnd - 1) → state.Holds slot address 0)

/-- Where the loader gets a byte of the file part right, given what the zero page has. -/
def UserProgram.RightByte (program : UserProgram) (zero : Page) (segment : ProgramSegment)
    (after : List ProgramSegment) (index : Nat) : Prop :=
  let address := segment.virtualAddress + index
  let byte := program.image (segment.ptrStart + index) % 256
  if pageOf address = stackPage then byte = 0 ∧ zero.byte (address % pageSize) = 0
  else if ∃ later ∈ after, later.Strays (pageOf address) then byte = 0
  else segment.Short → program.image (segment.ptrStart + index + pageSize) % 256 = byte

/-- The condition for right images: on the initial stack page and under a segment that ends
at a page boundary the program is zero anyway, and a segment that is short has the same bytes
one page further on. -/
def UserProgram.LoadsRight (program : UserProgram) (zero : Page) : Prop :=
  ∀ before segment after, program.segments = before ++ segment :: after →
    (∀ index < segment.sizeInFile, program.RightByte zero segment after index) ∧
    (0 < segment.sizeInFile → pageOf (segment.fileEnd - 1) = stackPage →
      ∀ address, segment.fileEnd ≤ address → pageOf address = stackPage →
        zero.byte (address % pageSize) = 0)

theorem fileByte_eq {address : Nat} (placed : (next.space slot).diskFrame (pageOf address) ≠ 0) :
    next.fileByte slot address =
      some (((next.space slot).stored (pageOf address)).byte (address % pageSize)) := by
  have inPage : address % pageSize < pageSize := Nat.mod_lt _ (by decide)
  have leaf : next.leaf .disk slot (pageOf address) ≠ 0 := placed
  simp only [KernelState.fileByte, KernelState.space, if_neg leaf, Page.byte_words _ inPage]

theorem memoryByte_eq {address : Nat} (mapped : next.leaf .user slot (pageOf address) ≠ 0) :
    next.memoryByte slot address =
      some (((next.space slot).content (pageOf address)).byte (address % pageSize)) := by
  have inPage : address % pageSize < pageSize := Nat.mod_lt _ (by decide)
  simp only [KernelState.memoryByte, KernelState.space, if_neg mapped, Page.byte_words _ inPage]

section Created

variable {pageWSSize secondListSize : Nat} {pages : List Nat} {before after : List ProgramSegment}

/-- What the page file has for a page of a segment. -/
theorem Created.stored (created : Created layout ram slot program pageWSSize secondListSize pages state next)
    (sound : ∀ segment ∈ program.segments, segment.Sound)
    (apart : program.segments.Pairwise ProgramSegment.Apart)
    (split : program.segments = before ++ segment :: after) {page : Nat} (touches : segment.Touches page) :
    ∃ content, (next.space slot).diskFrame page ≠ 0 ∧ (next.space slot).stored page = content.words ∧
      if page = stackPage then content = layout.bootMem ram 1
      else if ∃ later ∈ after, later.Strays page then ∀ offset, content.byte offset = 0
      else lastWrite (segmentWrites program segment (layout.bootMem ram 1)) page = some content := by
  obtain ⟨middle, stores, filed⟩ := created.filed
  rw [split] at sound apart stores
  obtain ⟨content, found, strayed, own⟩ := lastWrite_of_touches (layout.bootMem ram 1) sound apart touches
  have written := stores.written page content found
  by_cases onStack : page = stackPage
  · simp only [if_pos onStack]
    cases filed with
    | placed stack _ =>
        obtain ⟨diskFrame, storedPage⟩ := stack.written stackPage _ (by rw [lastWrite_single, if_pos rfl])
        exact ⟨_, onStack ▸ diskFrame, onStack ▸ storedPage, rfl⟩
    | dropped _ unplaced => exact absurd unplaced (onStack ▸ written.1)
  · simp only [if_neg onStack]
    have same : (next.space slot).diskFrame page = middle.diskFrame page ∧
        (next.space slot).stored page = middle.stored page := by
      cases filed with
      | placed stack _ => exact stack.others page (by rw [lastWrite_single, if_neg (Ne.symm onStack)])
      | dropped _ _ diskFrame storedPage => exact ⟨congrFun diskFrame page, congrFun storedPage page⟩
    rw [same.1, same.2]
    refine ⟨content, written.1, written.2, ?_⟩
    split
    · next strays => exact strayed strays
    · next none => exact own none

/-- What memory has for a page of a segment. -/
theorem Created.content (created : Created layout ram slot program pageWSSize secondListSize pages state next)
    (inProgram : segment ∈ program.segments) {address : Nat} (touches : segment.Touches (pageOf address))
    (start : segment.virtualAddress ≤ address) (mapped : next.leaf .user slot (pageOf address) ≠ 0) :
    ((next.space slot).content (pageOf address)).byte (address % pageSize) =
      if pageOf address = stackPage then 0
      else segmentByte program segment 0 address % 256 := by
  have inPage : address % pageSize < pageSize := Nat.mod_lt _ (by decide)
  have whole : pageOf address * pageSize + address % pageSize = address := by
    rw [pageOf, Nat.mul_comm]
    exact Nat.div_add_mod _ _
  split
  · next onStack => rw [onStack, created.zeros, Page.byte_words _ inPage, Page.byte_zero]
  · next apart =>
      have copied := created.copied segment inProgram _ touches apart mapped _ inPage
      rw [whole] at copied
      exact copied start

/-- Both images, in terms of what was written and copied. -/
theorem Created.holds_iff (created : Created layout ram slot program pageWSSize secondListSize pages state next)
    (inProgram : segment ∈ program.segments) {address byte : Nat} (touches : segment.Touches (pageOf address))
    (start : segment.virtualAddress ≤ address) {content : Page}
    (placed : (next.space slot).diskFrame (pageOf address) ≠ 0)
    (stored : (next.space slot).stored (pageOf address) = content.words)
    (inMemory : pageOf address ≠ stackPage → segmentByte program segment 0 address % 256 = byte) :
    next.Holds slot address byte ↔
      content.byte (address % pageSize) = byte ∧ (pageOf address = stackPage → byte = 0) := by
  have inPage : address % pageSize < pageSize := Nat.mod_lt _ (by decide)
  unfold KernelState.Holds
  rw [fileByte_eq placed, stored, Page.byte_words _ inPage, Option.some.injEq]
  by_cases mapped : next.leaf .user slot (pageOf address) = 0
  · have unloaded : next.memoryByte slot address = none := if_pos mapped
    have notStack : pageOf address ≠ stackPage := by
      intro onStack
      refine (created.mapped stackPage).2 ?_ (onStack ▸ mapped)
      rw [pageOf_mul_pageSize stackAddress_userPage]
      exact List.mem_append_right _ (List.mem_singleton_self _)
    simp only [unloaded, true_or, and_true, notStack, false_imp_iff]
  · rw [memoryByte_eq mapped, created.content inProgram touches start mapped]
    by_cases onStack : pageOf address = stackPage
    · have flipped : 0 = byte ↔ byte = 0 := eq_comm
      simp only [onStack, if_true, reduceCtorEq, false_or, Option.some.injEq, true_imp_iff, flipped]
    · simp only [inMemory onStack, onStack, if_false, or_true, and_true, false_imp_iff]

theorem Created.holds_file (created : Created layout ram slot program pageWSSize secondListSize pages state next)
    (sound : ∀ segment ∈ program.segments, segment.Sound)
    (apart : program.segments.Pairwise ProgramSegment.Apart)
    (split : program.segments = before ++ segment :: after) {index : Nat}
    (inFile : index < segment.sizeInFile) :
    next.Holds slot (segment.virtualAddress + index) (program.image (segment.ptrStart + index) % 256) ↔
      program.RightByte (layout.bootMem ram 1) segment after index := by
  have inProgram : segment ∈ program.segments := by
    rw [split]
    exact List.mem_append_right _ (List.mem_cons_self ..)
  have soundHere := sound segment inProgram
  have touches := ProgramSegment.touches_of_index soundHere inFile
  obtain ⟨content, placed, stored, written⟩ := created.stored sound apart split touches
  have memory : segmentByte program segment 0 (segment.virtualAddress + index) % 256 =
      program.image (segment.ptrStart + index) % 256 := by
    rw [segmentByte, if_neg (by omega), if_pos (by omega), Nat.add_sub_cancel_left]
  rw [created.holds_iff inProgram touches (Nat.le_add_right _ _) placed stored fun _ => memory,
    UserProgram.RightByte]
  by_cases onStack : pageOf (segment.virtualAddress + index) = stackPage
  · rw [if_pos onStack] at written
    simp only [written, onStack, if_true, true_imp_iff]
    constructor
    · rintro ⟨same, zero⟩
      exact ⟨zero, same.trans zero⟩
    · rintro ⟨zero, same⟩
      exact ⟨same.trans zero.symm, zero⟩
  · rw [if_neg onStack] at written
    simp only [onStack, if_false, false_imp_iff, and_true]
    by_cases strays : ∃ later ∈ after, later.Strays (pageOf (segment.virtualAddress + index))
    · rw [if_pos strays] at written
      rw [if_pos strays, written, eq_comm]
    · rw [if_neg strays] at written
      rw [if_neg strays]
      obtain ⟨own, found, byte⟩ :=
        @lastWrite_file program segment soundHere (layout.bootMem ram 1) index inFile
      rw [written] at found
      rw [Option.some.inj found, byte]
      by_cases short : segment.Short
      · simp only [short, if_true, true_imp_iff]
      · simp only [short, if_false, false_imp_iff, Nat.add_zero]

theorem Created.holds_tail (created : Created layout ram slot program pageWSSize secondListSize pages state next)
    (sound : ∀ segment ∈ program.segments, segment.Sound)
    (apart : program.segments.Pairwise ProgramSegment.Apart)
    (split : program.segments = before ++ segment :: after) (some : 0 < segment.sizeInFile) {address : Nat}
    (behind : segment.fileEnd ≤ address) (last : pageOf address = pageOf (segment.fileEnd - 1)) :
    next.Holds slot address 0 ↔ (pageOf (segment.fileEnd - 1) = stackPage →
      (layout.bootMem ram 1).byte (address % pageSize) = 0) := by
  have inProgram : segment ∈ program.segments := by
    rw [split]
    exact List.mem_append_right _ (List.mem_cons_self ..)
  have soundHere := sound segment inProgram
  have touches := ProgramSegment.touches_last soundHere some
  rw [← last] at touches ⊢
  obtain ⟨content, placed, stored, written⟩ := created.stored sound apart split touches
  have start : segment.virtualAddress ≤ address := by
    simp only [ProgramSegment.fileEnd] at behind
    omega
  have memory : segmentByte program segment 0 address % 256 = 0 := by
    have beyond : ¬ address < segment.virtualAddress + segment.sizeInFile := not_lt.2 behind
    rw [segmentByte, if_neg (not_lt.2 start), if_neg beyond]
  rw [created.holds_iff inProgram touches start placed stored fun _ => memory]
  simp only [implies_true, and_true]
  by_cases onStack : pageOf address = stackPage
  · rw [if_pos onStack] at written
    simp only [written, onStack, true_imp_iff]
  · rw [if_neg onStack] at written
    simp only [onStack, false_imp_iff, iff_true]
    by_cases strays : ∃ later ∈ after, later.Strays (pageOf address)
    · rw [if_pos strays] at written
      exact written _
    · rw [if_neg strays] at written
      have inPage : address % pageSize < pageSize := Nat.mod_lt _ (by decide)
      have whole : segment.fileEnd ≤ pageOf (segment.fileEnd - 1) * pageSize + address % pageSize := by
        rw [← last, pageOf, Nat.mul_comm, Nat.div_add_mod]
        exact behind
      obtain ⟨own, found, byte⟩ :=
        @lastWrite_tail program segment (layout.bootMem ram 1) some (address % pageSize) inPage whole
      rw [← last, written] at found
      rw [Option.some.inj found, byte]

end Created

/-- After `env_create` both images are right if and only if the program is one the loader loads
right. -/
theorem rightImage_iff_loadsRight (valid : layout.Valid) (inv : Inv layout ram state)
    (vacant : ∀ slot ∈ state.envFreeList, state.Vacant slot)
    (sound : ∀ segment ∈ program.segments, segment.Sound)
    (inside : ∀ segment ∈ program.segments, segment.fileEnd < userTop)
    (apart : program.segments.Pairwise ProgramSegment.Apart) {pageWSSize secondListSize : Nat}
    (ran : envCreate (some program) pageWSSize secondListSize state = .ok (some slot) next) :
    next.RightImage slot program ↔ program.LoadsRight (state.mem 1) := by
  have outcome := envCreate_spec valid inv vacant program sound inside apart pageWSSize secondListSize
  rw [wp_of_ok ran] at outcome
  obtain ⟨-, pages, created⟩ := outcome
  rw [mem_zeroPage valid inv]
  constructor
  · intro right before segment after split
    have inProgram : segment ∈ program.segments := by
      rw [split]
      exact List.mem_append_right _ (List.mem_cons_self ..)
    obtain ⟨file, tail⟩ := right segment inProgram
    refine ⟨fun index inFile => (created.holds_file sound apart split inFile).1 (file index inFile),
      fun some onStack address behind onPage => ?_⟩
    have last : pageOf address = pageOf (segment.fileEnd - 1) := onPage.trans onStack.symm
    exact (created.holds_tail sound apart split some behind last).1 (tail some address behind last) onStack
  · intro loads segment inProgram
    obtain ⟨before, after, split⟩ := List.append_of_mem inProgram
    obtain ⟨file, tail⟩ := loads before segment after split
    refine ⟨fun index inFile => (created.holds_file sound apart split inFile).2 (file index inFile),
      fun some address behind last => ?_⟩
    exact (created.holds_tail sound apart split some behind last).2 fun onStack =>
      tail some onStack address behind (last.trans onStack)

/-- The environment a call of `env_create` returned, with the state after it. -/
def created : EStateM.Result Stop KernelState (Option Nat) → Option (Nat × KernelState)
  | .ok (some slot) next => some (slot, next)
  | _ => none

theorem of_created {result : EStateM.Result Stop KernelState (Option Nat)}
    (holds : KernelState → Prop) (found : ∃ last ∈ created result, last.1 = slot ∧ holds last.2) :
    ∃ next, result = .ok (some slot) next ∧ holds next := by
  obtain ⟨⟨other, next⟩, member, same, property⟩ := found
  unfold created at member
  split at member
  · obtain ⟨same', same''⟩ := Prod.mk.injEq .. ▸ Option.some.inj member
    subst same same' same''
    exact ⟨_, rfl, property⟩
  · cases member

/-- A machine whose memory and disk were zero when it booted. -/
def clearMachine : KernelState := BootLayout.small.boot (fun _ => Page.zero) fun _ => Page.zero

theorem clearMachine_inv : Inv BootLayout.small (fun _ => Page.zero) clearMachine :=
  boot_inv BootLayout.small_valid _ _

theorem clearMachine_vacant (slot : Nat) : clearMachine.Vacant slot := ⟨rfl, rfl, rfl, rfl, rfl⟩

/-- A page of ones in a file of zeros, and the one segment it is loaded by. -/
def onesProgram (sizeInFile sizeInMemory address : Nat) : UserProgram where
  name := "ones"
  image := fun offset => if offset < pageSize then 1 else 0
  segments := [⟨0, sizeInFile, sizeInMemory, address⟩]

theorem inv_of_created {address : Nat} (low : address < userHeapStart)
    (ran : envCreate (some (onesProgram 100 200 address)) 10 3 clearMachine = .ok (some slot) next) :
    Inv BootLayout.small (fun _ => Page.zero) next := by
  have sound : ∀ segment ∈ (onesProgram 100 200 address).segments, segment.Sound := by
    refine List.forall_mem_singleton.2 ⟨by simp, ?_⟩
    simp only [userTop, uenvs, userHeapStart] at low ⊢
    omega
  have inside : ∀ segment ∈ (onesProgram 100 200 address).segments, segment.fileEnd < userTop := by
    refine List.forall_mem_singleton.2 ?_
    simp only [ProgramSegment.fileEnd, userTop, uenvs, userHeapStart] at low ⊢
    omega
  have outcome := envCreate_spec BootLayout.small_valid clearMachine_inv (fun slot _ => clearMachine_vacant slot)
    _ sound inside (List.pairwise_singleton _ _) 10 3
  rw [wp_of_ok ran] at outcome
  obtain ⟨-, pages, created⟩ := outcome
  exact created.inv

theorem not_rightImage_short :
    ∃ next, envCreate (some (onesProgram 100 200 0x800020)) 10 3 clearMachine = .ok (some 0) next ∧
      ¬ next.RightImage 0 (onesProgram 100 200 0x800020) := by
  have wrong : ∃ last ∈ created (envCreate (some (onesProgram 100 200 0x800020)) 10 3 clearMachine),
      last.1 = 0 ∧ last.2.fileByte 0 0x800020 = some 0 := by
    decide +kernel
  obtain ⟨next, ran, byte⟩ := of_created (fun next => next.fileByte 0 0x800020 = some 0) wrong
  refine ⟨next, ran, fun right => ?_⟩
  have first := ((right _ (List.mem_singleton_self _)).1 0 (by decide)).1
  rw [byte] at first
  exact absurd first (by decide)

theorem loadsRight_aligned (zero : Page) : (onesProgram 100 200 0x800000).LoadsRight zero := by
  intro before segment after split
  obtain ⟨-, rfl, rfl⟩ : before = [] ∧ segment = ⟨0, 100, 200, 0x800000⟩ ∧ after = [] := by
    cases before with
    | nil =>
        obtain ⟨same, rest⟩ := List.cons.inj split
        exact ⟨rfl, same.symm, rest.symm⟩
    | cons => simp [onesProgram] at split
  constructor
  · intro index inFile
    have onPage : pageOf (0x800000 + index) = 0x800 := by
      simp only [pageOf, pageSize] at inFile ⊢
      omega
    have aligned : ¬ (⟨0, 100, 200, 0x800000⟩ : ProgramSegment).Short := by decide
    have elsewhere : ¬ 0x800 = stackPage := by decide
    simp only [UserProgram.RightByte, onPage, elsewhere, aligned, if_false, List.not_mem_nil, false_and,
      exists_false, false_imp_iff]
  · intro _ onStack
    exact absurd onStack (by decide)

theorem rightImage_aligned :
    ∃ next, envCreate (some (onesProgram 100 200 0x800000)) 10 3 clearMachine = .ok (some 0) next ∧
      next.RightImage 0 (onesProgram 100 200 0x800000) := by
  have ran : ∃ last ∈ created (envCreate (some (onesProgram 100 200 0x800000)) 10 3 clearMachine),
      last.1 = 0 ∧ last.2.fileByte 0 0x800000 = some 1 := by
    decide +kernel
  obtain ⟨next, ran, -⟩ := of_created (fun next => next.fileByte 0 0x800000 = some 1) ran
  refine ⟨next, ran, ?_⟩
  refine (rightImage_iff_loadsRight BootLayout.small_valid clearMachine_inv
    (fun slot _ => clearMachine_vacant slot) ?_ ?_ ?_ ran).2 (loadsRight_aligned _)
  · exact List.forall_mem_singleton.2 ⟨by decide, by decide⟩
  · exact List.forall_mem_singleton.2 (by decide)
  · exact List.pairwise_singleton _ _

/-! ### The pages in the page file -/

/-- The pages the loader writes to the page file for the segments. -/
def UserProgram.Files (program : UserProgram) (page : Nat) : Prop :=
  ∃ segment ∈ program.segments, segment.Touches page ∨ page = pageOf segment.fileEnd

/-- The page file has the pages of the segments and the initial stack page. -/
def KernelState.RightPages (state : KernelState) (slot : Nat) (program : UserProgram) : Prop :=
  ∀ page, state.leaf .disk slot page ≠ 0 ↔
    (∃ segment ∈ program.segments, segment.Touches page) ∨ page = stackPage

/-- No page is written that is none of the program's, and a disk frame is left for the stack
page. -/
def UserProgram.FilesRight (program : UserProgram) (diskFrames : Nat) : Prop :=
  (∀ segment ∈ program.segments, ∀ page, segment.Strays page →
    (∃ other ∈ program.segments, other.Touches page) ∨ page = stackPage) ∧
  (program.Files stackPage ∨ Set.ncard {page | program.Files page} < diskFrames)

theorem Created.placed_iff {pageWSSize secondListSize : Nat} {pages : List Nat}
    (created : Created layout ram slot program pageWSSize secondListSize pages state next)
    (vacant : state.Vacant slot) (sound : ∀ segment ∈ program.segments, segment.Sound) (page : Nat) :
    next.leaf .disk slot page ≠ 0 ↔ program.Files page ∨ page = stackPage ∧
      (program.Files stackPage ∨ Set.ncard {page | program.Files page} < state.diskFreeFrameList.length) := by
  obtain ⟨middle, stores, filed⟩ := created.filed
  have written (page : Nat) : middle.diskFrame page ≠ 0 ↔ program.Files page := by
    have files := @lastWrite_flatMap_ne_none program program.segments (layout.bootMem ram 1) page sound
    refine Iff.trans ⟨fun some none => some ?_, fun some => ?_⟩ files
    · exact (stores.others page none).1.trans (vacant.leaf .disk page)
    · obtain ⟨content, found⟩ := Option.ne_none_iff_exists'.1 some
      exact (stores.written page content found).1
  have counted : {page | middle.diskFrame page ≠ 0} = {page | program.Files page} := by
    ext page
    exact written page
  rw [counted] at filed
  have leaf : next.leaf .disk slot page = (next.space slot).diskFrame page := rfl
  rw [leaf]
  cases filed with
  | placed stack room =>
      rw [written, not_le] at room
      by_cases onStack : page = stackPage
      · have placed := (stack.written stackPage _ (by rw [lastWrite_single, if_pos rfl])).1
        rw [onStack]
        exact ⟨fun _ => .inr ⟨rfl, room⟩, fun _ => placed⟩
      · rw [(stack.others page (by rw [lastWrite_single, if_neg (Ne.symm onStack)])).1, written]
        simp only [onStack, false_and, or_false]
  | dropped full unplaced diskFrame _ =>
      have notFiled : ¬ program.Files stackPage := fun filed => (written stackPage).2 filed unplaced
      rw [diskFrame, written]
      simp only [notFiled, not_lt.2 full, or_self, and_false, or_false]

theorem rightPages_iff_filesRight (valid : layout.Valid) (inv : Inv layout ram state)
    (vacant : ∀ slot ∈ state.envFreeList, state.Vacant slot)
    (file : ∀ segment ∈ program.segments, segment.sizeInFile ≤ segment.sizeInMemory)
    (below : ∀ segment ∈ program.segments,
      segment.virtualAddress + segment.sizeInMemory ≤ stackAddress)
    (apart : program.segments.Pairwise ProgramSegment.Apart) {pageWSSize secondListSize : Nat}
    (ran : envCreate (some program) pageWSSize secondListSize state = .ok (some slot) next) :
    next.RightPages slot program ↔ program.FilesRight state.diskFreeFrameList.length := by
  have under : stackAddress < userTop := by decide
  have sound : ∀ segment ∈ program.segments, segment.Sound := fun segment member =>
    ⟨file segment member, (below segment member).trans under.le⟩
  have inside : ∀ segment ∈ program.segments, segment.fileEnd < userTop := fun segment member => by
    have := below segment member
    have := file segment member
    simp only [ProgramSegment.fileEnd]
    omega
  have outcome := envCreate_spec valid inv vacant program sound inside apart pageWSSize secondListSize
  rw [wp_of_ok ran] at outcome
  obtain ⟨head, pages, created⟩ := outcome
  have isVacant := vacant slot (List.mem_of_mem_head? head)
  have placed (page : Nat) := created.placed_iff isVacant sound page
  constructor
  · intro right
    refine ⟨fun segment member page strays => ?_, ?_⟩
    · exact (right page).1 ((placed page).2 (.inl ⟨segment, member, .inr strays.1⟩))
    · rcases (placed stackPage).1 ((right stackPage).2 (.inr rfl)) with filed | ⟨-, room⟩
      · exact .inl filed
      · exact room
  · rintro ⟨strays, room⟩ page
    rw [placed page]
    constructor
    · rintro (⟨segment, member, touches | ends⟩ | ⟨onStack, -⟩)
      · exact .inl ⟨segment, member, touches⟩
      · by_cases touches : segment.Touches page
        · exact .inl ⟨segment, member, touches⟩
        · exact strays segment member page ⟨ends, touches⟩
      · exact .inr onStack
    · rintro (⟨segment, member, touches⟩ | onStack)
      · exact .inl ⟨segment, member, .inl touches⟩
      · exact .inr ⟨onStack, room⟩

/-- The page behind a segment that ends at a page boundary is in the page file. -/
theorem not_rightPages_full :
    ∃ next, envCreate (some (onesProgram 4096 4096 0x800000)) 10 3 clearMachine = .ok (some 0) next ∧
      ¬ next.RightPages 0 (onesProgram 4096 4096 0x800000) := by
  have stray : ∃ last ∈ created (envCreate (some (onesProgram 4096 4096 0x800000)) 10 3 clearMachine),
      last.1 = 0 ∧ last.2.leaf .disk 0 0x801 ≠ 0 := by
    decide +kernel
  obtain ⟨next, ran, placed⟩ := of_created (fun next => next.leaf .disk 0 0x801 ≠ 0) stray
  refine ⟨next, ran, fun right => ?_⟩
  rcases (right 0x801).1 placed with ⟨segment, member, touches⟩ | onStack
  · rw [List.mem_singleton.1 member] at touches
    exact absurd touches (by decide)
  · exact absurd onStack (by decide)

theorem files_aligned (page : Nat) : (onesProgram 100 200 0x800000).Files page ↔ page = 0x800 := by
  simp only [UserProgram.Files, onesProgram, List.mem_singleton, exists_eq_left, ProgramSegment.Touches,
    ProgramSegment.firstPage, ProgramSegment.endPage, ProgramSegment.fileEnd, pageOf, pageUp, pageSize]
  omega

theorem rightPages_aligned :
    ∃ next, envCreate (some (onesProgram 100 200 0x800000)) 10 3 clearMachine = .ok (some 0) next ∧
      next.RightPages 0 (onesProgram 100 200 0x800000) := by
  have ran : ∃ last ∈ created (envCreate (some (onesProgram 100 200 0x800000)) 10 3 clearMachine),
      last.1 = 0 ∧ last.2.fileByte 0 0x800000 = some 1 := by
    decide +kernel
  obtain ⟨next, ran, -⟩ := of_created (fun next => next.fileByte 0 0x800000 = some 1) ran
  refine ⟨next, ran, ?_⟩
  refine (rightPages_iff_filesRight BootLayout.small_valid clearMachine_inv
    (fun slot _ => clearMachine_vacant slot) ?_ ?_ ?_ ran).2 ⟨?_, .inr ?_⟩
  · exact List.forall_mem_singleton.2 (by decide)
  · exact List.forall_mem_singleton.2 (by decide)
  · exact List.pairwise_singleton _ _
  · intro segment member page strays
    rw [List.mem_singleton.1 member] at strays
    refine absurd ?_ strays.2
    rw [strays.1]
    decide
  · have diskFrames : clearMachine.diskFreeFrameList.length = pagesPerFile - 1 := length_insertedAtHead ..
    simp only [files_aligned, Set.ofPred_eq_eq_singleton, Set.ncard_singleton, diskFrames]
    decide

end Fos.Kernel
