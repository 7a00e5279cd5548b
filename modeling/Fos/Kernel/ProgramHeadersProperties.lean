import Fos.Kernel.ProgramHeaders
import Fos.Foundation.Weakest

/-! `PROGRAM_SEGMENT_FOREACH` runs its body on the LOAD headers of the table, and reads one header too many. -/

set_option autoImplicit false

namespace Fos.Kernel

open Foundation

variable {Inner : Type}

/-! ### The segments that are still to come -/

namespace ElfImage

variable (image : ElfImage)

def IsLoad (index : Nat) : Prop := (image.ph index).pType = elfProgLoad

instance (index : Nat) : Decidable (image.IsLoad index) :=
  inferInstanceAs (Decidable ((image.ph index).pType = elfProgLoad))

/-- The segments of the LOAD headers from an index on, in the order of the table. -/
def segmentsFrom (index : Nat) : List ProgramSegment :=
  ((List.range' index (image.ePhnum - index)).filter fun later => image.IsLoad later).map
    fun later => image.segmentOf (image.ph later)

def loadSegments : List ProgramSegment := image.segmentsFrom 0

theorem segmentsFrom_ePhnum : image.segmentsFrom image.ePhnum = [] := by
  simp [segmentsFrom]

variable {image : ElfImage} {index : Nat}

private theorem segmentsFrom_eq (inside : index < image.ePhnum) :
    image.segmentsFrom index = if image.IsLoad index then
      image.segmentOf (image.ph index) :: image.segmentsFrom (index + 1) else image.segmentsFrom (index + 1) := by
  have split : image.ePhnum - index = image.ePhnum - (index + 1) + 1 := by omega
  simp only [segmentsFrom, split, List.range'_succ, List.filter_cons, decide_eq_true_eq]
  split <;> rfl

theorem segmentsFrom_of_isLoad (inside : index < image.ePhnum) (load : image.IsLoad index) :
    image.segmentsFrom index = image.segmentOf (image.ph index) :: image.segmentsFrom (index + 1) :=
  (segmentsFrom_eq inside).trans (if_pos load)

theorem segmentsFrom_of_not_isLoad (inside : index < image.ePhnum) (other : ¬ image.IsLoad index) :
    image.segmentsFrom index = image.segmentsFrom (index + 1) :=
  (segmentsFrom_eq inside).trans (if_neg other)

theorem segmentsFrom_length_le (index : Nat) : (image.segmentsFrom index).length ≤ image.ePhnum := by
  simp only [segmentsFrom, List.length_map]
  apply le_trans (List.length_filter_le _ _)
  simp

theorem ePhnum_lt_wordSize (image : ElfImage) : image.ePhnum < 65536 := by
  have low := (image.byte ((image.ptrProgramStart + 44) % wordSize)).toNat_lt
  have high := (image.byte ((image.ptrProgramStart + 44 + 1) % wordSize)).toNat_lt
  simp only [ePhnum, uint16]
  omega

/-- All headers that have been read are in the table. -/
def Inside (image : ElfImage) (reads : List Nat) : Prop := ∀ index ∈ reads, index < image.ePhnum

/-- The last header that has been read is the one behind the table. -/
def Overread (image : ElfImage) (reads : List Nat) : Prop :=
  ∃ earlier, reads = earlier ++ [image.ePhnum] ∧ image.Inside earlier

theorem Inside.append {reads : List Nat} (within : image.Inside reads) (inside : index < image.ePhnum) :
    image.Inside (reads ++ [index]) := by
  intro later listed
  cases List.mem_append.mp listed with
  | inl earlier => exact within later earlier
  | inr last =>
      cases List.mem_singleton.mp last
      exact inside

theorem Overread.not_inside {reads : List Nat} (overread : image.Overread reads) : ¬ image.Inside reads := by
  intro within
  obtain ⟨earlier, rfl, _⟩ := overread
  exact lt_irrefl _ (within image.ePhnum (by simp))

end ElfImage

/-! ### One step of the enumeration -/

/-- What the cursor of the macro says about the segments that are still to come, and about the reads. -/
inductive Ahead (image : ElfImage) : Option SegmentCursor → List ProgramSegment → List Nat → Prop
  | ended {reads : List Nat} : image.Overread reads → Ahead image none [] reads
  | visiting {seg : SegmentCursor} {reads : List Nat} :
      seg.segmentId < image.ePhnum → image.Inside reads →
      Ahead image (some seg) (seg.toProgramSegment :: image.segmentsFrom (seg.segmentId + 1)) reads

/-- Where the `while` loop stops. -/
inductive Skipped (image : ElfImage) (id : Nat) : Nat → List Nat → Prop
  | load {index : Nat} {reads : List Nat} : index < image.ePhnum → image.Inside reads →
      image.segmentsFrom id = image.segmentOf (image.ph index) :: image.segmentsFrom (index + 1) →
      Skipped image id index reads
  | ended {reads : List Nat} : image.Overread reads → image.segmentsFrom id = [] →
      Skipped image id image.ePhnum reads

theorem Skipped.after {image : ElfImage} {id index : Nat} {reads : List Nat} (inside : id < image.ePhnum)
    (other : ¬ image.IsLoad id) (skipped : Skipped image (id + 1) index reads) : Skipped image id index reads := by
  have same := ElfImage.segmentsFrom_of_not_isLoad inside other
  cases skipped with
  | load found within segments => exact .load found within (same.trans segments)
  | ended overread segments => exact .ended overread (same.trans segments)

/-- The type of the header behind the table is read when no LOAD header is left. -/
theorem skipHeaders_spec (image : ElfImage) (id : Nat) (state : Enumerating Inner)
    (bound : id ≤ image.ePhnum) (within : image.Inside state.reads) :
    wp (skipHeaders image id) (fun index next => Skipped image id index next.reads ∧ next.inner = state.inner)
      (fun _ _ => False) state := by
  rw [skipHeaders]
  simp only [readHeader, wp_bind, wp_modify, wp_pure, dite_eq_ite, wp_ite]
  constructor
  · intro more
    have kept := within.append more.2
    apply wp_mono_returns (skipHeaders_spec image (id + 1) _ more.2 kept)
    intro index next outcome
    exact ⟨outcome.1.after more.2 more.1, outcome.2⟩
  · intro stop
    apply And.intro _ trivial
    cases Nat.lt_or_eq_of_le bound with
    | inl inside =>
        have load : image.IsLoad id := not_not.mp fun other => stop ⟨other, inside⟩
        exact .load inside (within.append inside) (ElfImage.segmentsFrom_of_isLoad inside load)
    | inr ended =>
        subst ended
        exact .ended ⟨_, rfl, within⟩ image.segmentsFrom_ePhnum
termination_by image.ePhnum - id

theorem checkMagic_spec {image : ElfImage} (magic : image.eMagic = elfMagic) {post : Unit → Enumerating Inner → Prop}
    {fail : Stop → Enumerating Inner → Prop} {state : Enumerating Inner} :
    wp (checkMagic image) post fail state ↔ post () state := by
  simp [checkMagic, magic]

theorem programSegmentNext_spec {image : ElfImage} (magic : image.eMagic = elfMagic) (seg : SegmentCursor)
    (state : Enumerating Inner) (bound : seg.segmentId < image.ePhnum) (within : image.Inside state.reads) :
    wp (programSegmentNext image seg)
      (fun next after => Ahead image next (image.segmentsFrom (seg.segmentId + 1)) after.reads ∧
        after.inner = state.inner)
      (fun _ _ => False) state := by
  simp only [programSegmentNext, wp_bind, checkMagic_spec magic]
  apply wp_mono_returns (skipHeaders_spec image (seg.segmentId + 1) state bound within)
  intro index after outcome
  obtain ⟨skipped, same⟩ := outcome
  cases skipped with
  | load inside reads segments =>
      simp only [inside, if_true, readHeader, wp_bind, wp_modify, wp_pure, segments]
      exact ⟨.visiting inside (reads.append inside), same⟩
  | ended overread segments =>
      simp only [lt_irrefl, if_false, wp_pure, segments]
      exact ⟨.ended overread, same⟩

/-- The test of the end marker by the macro is included. -/
theorem programSegmentFirst_spec {image : ElfImage} (magic : image.eMagic = elfMagic) (tmp : SegmentCursor)
    (state : Enumerating Inner) (within : image.Inside state.reads) :
    wp (programSegmentFirst image tmp)
      (fun first after => Ahead image (if first.segmentId = wordSize - 1 then none else some first)
        image.loadSegments after.reads ∧ after.inner = state.inner)
      (fun _ _ => False) state := by
  simp only [programSegmentFirst, wp_bind, checkMagic_spec magic]
  apply wp_mono_returns (skipHeaders_spec image 0 state (Nat.zero_le _) within)
  intro index after outcome
  obtain ⟨skipped, same⟩ := outcome
  cases skipped with
  | load inside reads segments =>
      have unmarked : index ≠ wordSize - 1 := by
        have bound := image.ePhnum_lt_wordSize
        simp only [wordSize]
        omega
      simp only [inside, if_true, readHeader, wp_bind, wp_modify, wp_pure, ElfImage.loadSegments, segments, unmarked,
        if_false]
      exact ⟨.visiting inside (reads.append inside), same⟩
  | ended overread segments =>
      simp only [lt_irrefl, if_false, if_true, wp_pure, ElfImage.loadSegments, segments]
      exact ⟨.ended overread, same⟩

/-! ### The whole enumeration -/

theorem wp_onInner {Result : Type} {program : EStateM Stop Inner Result} {post : Result → Enumerating Inner → Prop}
    {fail : Stop → Enumerating Inner → Prop} {state : Enumerating Inner} :
    wp (onInner program) post fail state ↔
      wp program (fun result inner => post result { state with inner := inner })
        (fun stop inner => fail stop { state with inner := inner }) state.inner := by
  simp only [wp, onInner]
  cases program state.inner <;> rfl

/-- The loop is the body on one segment after the other, and a read behind the table. -/
theorem loopSegments_spec {image : ElfImage} (magic : image.eMagic = elfMagic)
    {body : ProgramSegment → EStateM Stop Inner Unit} {post : Unit → Enumerating Inner → Prop}
    {fail : Stop → Enumerating Inner → Prop} {rounds : Nat} {next : Option SegmentCursor}
    {segments : List ProgramSegment} {state : Enumerating Inner} (ahead : Ahead image next segments state.reads)
    (enough : segments.length ≤ rounds)
    (holds : wp (forM segments body) (fun _ inner => ∀ reads, image.Overread reads → post () ⟨reads, inner⟩)
      (fun stop inner => ∀ reads, image.Inside reads → fail stop ⟨reads, inner⟩) state.inner) :
    wp (loopSegments image body rounds next) post fail state := by
  induction rounds generalizing next segments state with
  | zero =>
      cases ahead with
      | ended overread => exact holds state.reads overread
      | visiting => simp at enough
  | succ rounds ih =>
      cases ahead with
      | ended overread => exact holds state.reads overread
      | visiting bound within =>
          simp only [List.forM_cons, wp_bind] at holds
          simp only [loopSegments, wp_bind, wp_onInner]
          apply wp_mono holds
          · intro _ inner rest
            apply wp_mono_returns (programSegmentNext_spec magic _ ⟨state.reads, inner⟩ bound within)
            intro next after outcome
            obtain ⟨later, same⟩ := outcome
            apply ih later (Nat.le_of_succ_le_succ enough)
            rw [same]
            exact rest
          · intro stop inner failed
            exact failed state.reads within

/-- The macro runs its body on the segments of the LOAD headers in their order. When it ends, the header behind
the table has been read, once and as the last one. -/
theorem programSegmentForeach_spec {image : ElfImage} (magic : image.eMagic = elfMagic) (tmp : SegmentCursor)
    {body : ProgramSegment → EStateM Stop Inner Unit} {post : Unit → Enumerating Inner → Prop}
    {fail : Stop → Enumerating Inner → Prop} {inner : Inner}
    (holds : wp (forM image.loadSegments body)
      (fun _ inner => ∀ reads, image.Overread reads → post () ⟨reads, inner⟩)
      (fun stop inner => ∀ reads, image.Inside reads → fail stop ⟨reads, inner⟩) inner) :
    wp (programSegmentForeach image tmp body) post fail ⟨[], inner⟩ := by
  simp only [programSegmentForeach, wp_bind]
  apply wp_mono_returns (programSegmentFirst_spec magic tmp ⟨[], inner⟩ (by simp [ElfImage.Inside]))
  intro first after outcome
  obtain ⟨ahead, same⟩ := outcome
  apply loopSegments_spec magic ahead (ElfImage.segmentsFrom_length_le 0)
  rw [same]
  exact holds

/-- The macro runs its body once for each LOAD header, in the order of the table, ends, and reads only headers of
the table. -/
def EnumeratesExactly (image : ElfImage) (tmp : SegmentCursor) (body : ProgramSegment → EStateM Stop Inner Unit)
    (inner : Inner) : Prop :=
  wp (programSegmentForeach image tmp body)
    (fun _ next => forM image.loadSegments body inner = .ok () next.inner ∧ image.Inside next.reads)
    (fun _ _ => False) ⟨[], inner⟩

/-- The first part of it holds. -/
theorem programSegmentForeach_visits {image : ElfImage} (magic : image.eMagic = elfMagic) (tmp : SegmentCursor)
    (body : ProgramSegment → EStateM Stop Inner Unit) (inner : Inner) :
    wp (programSegmentForeach image tmp body)
      (fun _ next => forM image.loadSegments body inner = .ok () next.inner)
      (fun stop next => forM image.loadSegments body inner = .error stop next.inner) ⟨[], inner⟩ := by
  apply programSegmentForeach_spec magic
  unfold wp
  cases outcome : forM image.loadSegments body inner with
  | ok _ after => exact fun _ _ => rfl
  | error stop after => exact fun _ _ => rfl

/-- The second part does not: nothing but a body that fails keeps the macro from the header behind the table. -/
theorem overread_of_programSegmentForeach {image : ElfImage} (magic : image.eMagic = elfMagic) (tmp : SegmentCursor)
    (body : ProgramSegment → EStateM Stop Inner Unit) (inner : Inner) :
    wp (programSegmentForeach image tmp body) (fun _ next => image.Overread next.reads) (fun _ _ => True)
      ⟨[], inner⟩ := by
  apply programSegmentForeach_spec magic
  unfold wp
  cases forM image.loadSegments body inner with
  | ok _ after => exact fun _ overread => overread
  | error stop after => exact fun _ _ => trivial

private theorem inside_of_enumeratesExactly {image : ElfImage} {tmp : SegmentCursor}
    {body : ProgramSegment → EStateM Stop Inner Unit} {inner : Inner}
    (enumerates : EnumeratesExactly image tmp body inner) :
    wp (programSegmentForeach image tmp body) (fun _ next => image.Inside next.reads) (fun _ _ => False)
      ⟨[], inner⟩ :=
  wp_mono_returns enumerates (fun _ _ outcome => outcome.2)

private theorem overreads {image : ElfImage} (magic : image.eMagic = elfMagic) {tmp : SegmentCursor}
    {body : ProgramSegment → EStateM Stop Inner Unit} {inner : Inner} :
    ¬ EnumeratesExactly image tmp body inner := by
  intro enumerates
  have within := inside_of_enumeratesExactly enumerates
  have overread := overread_of_programSegmentForeach magic tmp body inner
  obtain ⟨_, next, read, inside⟩ := exists_of_wp overread within
  exact read.not_inside inside

/-- No image is enumerated without a read behind its table, whatever the headers are and whatever the body does. -/
theorem not_enumeratesExactly_of_eMagic (image : ElfImage) (magic : image.eMagic = elfMagic) (tmp : SegmentCursor)
    (body : ProgramSegment → EStateM Stop Inner Unit) (inner : Inner) :
    ¬ EnumeratesExactly image tmp body inner :=
  overreads magic

/-- The body that notes the segments it is run on. -/
def visit (segment : ProgramSegment) : EStateM Stop (List ProgramSegment) Unit :=
  modify fun visited => visited ++ [segment]

/-- An image at address 0x1000 with one program header, of type LOAD, that maps 4 bytes to 0x800000. -/
def smallImage : ElfImage where
  ptrProgramStart := 0x1000
  byte
    | 0x1000 => 0x7F
    | 0x1001 => 0x45
    | 0x1002 => 0x4C
    | 0x1003 => 0x46
    | 0x101C => 52
    | 0x102C => 1
    | 0x1034 => 1
    | 0x1038 => 84
    | 0x103E => 0x80
    | 0x1044 => 4
    | 0x1048 => 4
    | _ => 0

theorem not_enumeratesExactly_smallImage : ¬ EnumeratesExactly smallImage ⟨⟨0, 0, 0, 0⟩, 0⟩ visit [] :=
  not_enumeratesExactly_of_eMagic smallImage (by decide) ⟨⟨0, 0, 0, 0⟩, 0⟩ visit []

/-- The segment is visited, with its offset, sizes and address, and then the type of `ph[1]` is read. -/
theorem not_enumeratesExactly :
    smallImage.ePhnum = 1 ∧ smallImage.loadSegments = [⟨0x1054, 4, 4, 0x800000⟩] ∧
      ¬ EnumeratesExactly smallImage ⟨⟨0, 0, 0, 0⟩, 0⟩ visit [] :=
  ⟨by decide, rfl, overreads (by decide)⟩

/-! ### The loader of `env_create` -/

/-- The state the body in `env_create` works on: the kernel, and the two locals that go from segment to segment. -/
structure SegmentRound where
  kernel : KernelState
  remainingWSPages : Nat
  lastTableNumber : Nat

def withKernel {Result : Type} (program : KernelM Result) : EStateM Stop SegmentRound Result := fun state =>
  match program state.kernel with
  | .ok result kernel => .ok result { state with kernel := kernel }
  | .error stop kernel => .error stop { state with kernel := kernel }

def loadSegment (slot : Nat) (program : UserProgram) (segment : ProgramSegment) : EStateM Stop SegmentRound Unit := do
  let state ← get
  let loaded ← withKernel (programSegmentAllocMapCopyWorkingset slot program segment state.remainingWSPages
    state.lastTableNumber)
  withKernel (addSegmentToPageFile slot program segment)
  modify fun after => { after with
    remainingWSPages := state.remainingWSPages - loaded.1
    lastTableNumber := loaded.2 }

theorem wp_withKernel {Result : Type} {program : KernelM Result} {post : Result → SegmentRound → Prop}
    {fail : Stop → SegmentRound → Prop} {state : SegmentRound} :
    wp (withKernel program) post fail state ↔
      wp program (fun result kernel => post result { state with kernel := kernel })
        (fun stop kernel => fail stop { state with kernel := kernel }) state.kernel := by
  simp only [wp, withKernel]
  cases program state.kernel <;> rfl

theorem wp_forM_loadSegment (slot : Nat) (program : UserProgram) {post : Unit → KernelState → Prop}
    {fail : Stop → KernelState → Prop} {segments : List ProgramSegment} {state : SegmentRound} :
    wp (forM segments (loadSegment slot program)) (fun _ after => post () after.kernel)
        (fun stop after => fail stop after.kernel) state ↔
      wp (loadSegments slot program segments state.remainingWSPages state.lastTableNumber) post fail
        state.kernel := by
  induction segments generalizing state with
  | nil => rfl
  | cons segment rest ih =>
      simp only [List.forM_cons, loadSegment, loadSegments, wp_bind, wp_get, wp_withKernel, wp_modify, ih]

/-- The macro over an image does to the kernel what loading the segments of a program does whose segments are those
of the LOAD headers. -/
theorem programSegmentForeach_loadSegment {image : ElfImage} (magic : image.eMagic = elfMagic) (tmp : SegmentCursor)
    (slot : Nat) (program : UserProgram) (segments : program.segments = image.loadSegments)
    {post : Unit → KernelState → Prop} {fail : Stop → KernelState → Prop} (state : SegmentRound)
    (holds : wp (loadSegments slot program program.segments state.remainingWSPages state.lastTableNumber) post fail
      state.kernel) :
    wp (programSegmentForeach image tmp (loadSegment slot program))
      (fun _ after => post () after.inner.kernel) (fun stop after => fail stop after.inner.kernel) ⟨[], state⟩ := by
  apply programSegmentForeach_spec magic
  rw [segments] at holds
  apply wp_mono ((wp_forM_loadSegment slot program).mpr holds)
  · exact fun _ _ met _ _ => met
  · exact fun _ _ met _ _ => met

end Fos.Kernel
