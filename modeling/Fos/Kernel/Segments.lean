import Fos.Kernel.Actions
import Fos.Kernel.Environment
import Mathlib.Tactic.SplitIfs

/-! Program segments: the pages they touch, and what the loader writes to the page file for
them. -/

set_option autoImplicit false

namespace Fos.Kernel

theorem Page.byte_words (page : Page) {offset : Nat} (inside : offset < pageSize) :
    page.words.byte offset = page.byte offset := by
  have word : offset / 4 < 1024 := by
    simp only [pageSize] at inside
    omega
  simp only [Page.byte, Page.words, if_pos word]

/-! ### Writes -/

/-- The last content a list of writes gives a page. -/
def lastWrite : List (Nat × Page) → Nat → Option Page
  | [], _ => none
  | (written, content) :: writes, page =>
      (lastWrite writes page).or (if written = page then some content else none)

section Writes

variable {first second : List (Nat × Page)} {page : Nat}

theorem lastWrite_append (first second : List (Nat × Page)) (page : Nat) :
    lastWrite (first ++ second) page = (lastWrite second page).or (lastWrite first page) := by
  induction first with
  | nil => simp [lastWrite]
  | cons write first ih =>
      obtain ⟨written, content⟩ := write
      rw [List.cons_append, lastWrite, ih, lastWrite, Option.or_assoc]

theorem lastWrite_single (written : Nat) (content : Page) (page : Nat) :
    lastWrite [(written, content)] page = if written = page then some content else none := by
  simp [lastWrite]

theorem lastWrite_eq_none {writes : List (Nat × Page)} :
    lastWrite writes page = none ↔ page ∉ writes.map Prod.fst := by
  induction writes with
  | nil => simp [lastWrite]
  | cons write writes ih =>
      obtain ⟨written, content⟩ := write
      rw [lastWrite, Option.or_eq_none_iff, ih, List.map_cons, List.mem_cons, not_or, and_comm]
      simp [eq_comm]

/-- Writes to consecutive pages. -/
def consecutive (first count : Nat) (content : Nat → Page) : List (Nat × Page) :=
  (List.range count).map fun index => (first + index, content index)

theorem consecutive_zero (first : Nat) (content : Nat → Page) : consecutive first 0 content = [] := rfl

theorem consecutive_succ (first count : Nat) (content : Nat → Page) :
    consecutive first (count + 1) content =
      (first, content 0) :: consecutive (first + 1) count fun index => content (index + 1) := by
  simp only [consecutive, List.range_succ_eq_map, List.map_cons, List.map_map, Nat.add_zero,
    List.cons.injEq, true_and]
  refine List.map_congr_left fun index _ => ?_
  simp only [Function.comp, Prod.mk.injEq, and_true]
  omega

theorem lastWrite_consecutive (first count : Nat) (content : Nat → Page) (page : Nat) :
    lastWrite (consecutive first count content) page =
      if first ≤ page ∧ page < first + count then some (content (page - first)) else none := by
  induction count generalizing first content with
  | zero =>
      rw [consecutive_zero, lastWrite, if_neg]
      omega
  | succ count ih =>
      rw [consecutive_succ, lastWrite, ih]
      by_cases head : first = page
      · rw [if_neg (by omega), if_pos head, if_pos (by omega), head, Nat.sub_self]
        rfl
      · rw [if_neg head, Option.or_none]
        by_cases inside : first + 1 ≤ page ∧ page < first + 1 + count
        · rw [if_pos inside, if_pos (by omega), show page - (first + 1) + 1 = page - first by omega]
        · rw [if_neg inside, if_neg (by omega)]

end Writes

/-! ### Segments -/

/-- The number of the first page that starts at or after an address. -/
def pageUp (address : Nat) : Nat := (address + (pageSize - 1)) / pageSize

theorem roundUp_eq {address : Nat} (low : address ≤ userTop) :
    roundUp address = pageUp address * pageSize := by
  simp only [roundUp, roundDown, pageUp, pageSize, wordSize, userTop, uenvs] at low ⊢
  omega

namespace ProgramSegment

variable (segment : ProgramSegment)

def firstPage : Nat := pageOf segment.virtualAddress

/-- The number of the page after the last one. -/
def endPage : Nat := pageUp (segment.virtualAddress + segment.sizeInMemory)

/-- The pages of `[ROUNDDOWN(p_va), ROUNDUP(p_va + p_memsz))`. -/
def Touches (page : Nat) : Prop := segment.firstPage ≤ page ∧ page < segment.endPage

/-- Where the part that is in the file ends. -/
def fileEnd : Nat := segment.virtualAddress + segment.sizeInFile

/-- A segment with `p_filesz <= p_memsz` below `USER_TOP`. -/
structure Sound : Prop where
  file : segment.sizeInFile ≤ segment.sizeInMemory
  below : segment.virtualAddress + segment.sizeInMemory ≤ userTop

/-- The segment starts inside a page and ends with its file part before that page does. -/
def Short : Prop :=
  segment.virtualAddress % pageSize ≠ 0 ∧
    segment.virtualAddress % pageSize + segment.sizeInFile < pageSize

instance : Decidable segment.Short := inferInstanceAs (Decidable (_ ∧ _))

/-- Where in the file the bytes of the last page are taken from. -/
def lastSource : Nat :=
  segment.ptrStart + (pageUp segment.virtualAddress * pageSize - segment.virtualAddress) +
    (pageOf segment.fileEnd - pageUp segment.virtualAddress) * pageSize

end ProgramSegment

variable (program : UserProgram) (segment : ProgramSegment)

/-- The first page as it is put together in `ptr_temp_page`. -/
def firstContent : Page := Page.ofBytes fun offset =>
  if segment.virtualAddress % pageSize ≤ offset ∧
      segment.firstPage * pageSize + offset < pageUp segment.virtualAddress * pageSize then
    program.image (segment.ptrStart + (offset - segment.virtualAddress % pageSize))
  else 0

def middleContent (index : Nat) : Page := Page.ofBytes fun offset =>
  program.image (segment.ptrStart + (pageUp segment.virtualAddress * pageSize - segment.virtualAddress) +
    index * pageSize + offset)

def lastContent : Page := Page.ofBytes fun offset =>
  if pageOf segment.fileEnd * pageSize + offset < segment.fileEnd then
    program.image (segment.lastSource + offset)
  else 0

/-- What the loader writes to the page file for a segment, in order; `zero` is
`ptr_zero_page`. -/
def segmentWrites (zero : Page) : List (Nat × Page) :=
  [(segment.firstPage, firstContent program segment)] ++
    consecutive (pageUp segment.virtualAddress)
      (pageOf segment.fileEnd - pageUp segment.virtualAddress) (middleContent program segment) ++
    [(pageOf segment.fileEnd, lastContent program segment)] ++
    consecutive (pageUp segment.fileEnd) (segment.endPage - pageUp segment.fileEnd) fun _ => zero

section Content

variable {program segment}

/-- The page-file content of a page, by where it lies in the segment. -/
theorem lastWrite_segment (zero : Page) (page : Nat) :
    lastWrite (segmentWrites program segment zero) page =
      if pageUp segment.fileEnd ≤ page ∧ page < segment.endPage then some zero
      else if pageOf segment.fileEnd = page then some (lastContent program segment)
      else if pageUp segment.virtualAddress ≤ page ∧ page < pageOf segment.fileEnd then
        some (middleContent program segment (page - pageUp segment.virtualAddress))
      else if segment.firstPage = page then some (firstContent program segment)
      else none := by
  have zeros : (pageUp segment.fileEnd ≤ page ∧ page < pageUp segment.fileEnd +
      (segment.endPage - pageUp segment.fileEnd)) ↔
        (pageUp segment.fileEnd ≤ page ∧ page < segment.endPage) := by omega
  have middle : (pageUp segment.virtualAddress ≤ page ∧ page < pageUp segment.virtualAddress +
      (pageOf segment.fileEnd - pageUp segment.virtualAddress)) ↔
        (pageUp segment.virtualAddress ≤ page ∧ page < pageOf segment.fileEnd) := by omega
  simp only [segmentWrites, lastWrite_append, lastWrite_single, lastWrite_consecutive, zeros, middle]
  split <;> split <;> split <;> simp

/-- The segment's own pages are written, and the page its file part ends at. -/
theorem lastWrite_segment_ne_none (sound : segment.Sound) (zero : Page) (page : Nat) :
    lastWrite (segmentWrites program segment zero) page ≠ none ↔
      segment.Touches page ∨ page = pageOf segment.fileEnd := by
  have file := sound.file
  have bounds : segment.firstPage ≤ pageUp segment.virtualAddress ∧
      pageUp segment.virtualAddress ≤ segment.firstPage + 1 ∧
      segment.firstPage ≤ pageOf segment.fileEnd ∧ pageOf segment.fileEnd ≤ pageUp segment.fileEnd ∧
      pageUp segment.fileEnd ≤ pageOf segment.fileEnd + 1 ∧ pageUp segment.fileEnd ≤ segment.endPage := by
    simp only [ProgramSegment.endPage, ProgramSegment.firstPage, ProgramSegment.fileEnd, pageUp, pageOf,
      pageSize]
    omega
  have first : segment.firstPage = segment.endPage → segment.firstPage = pageOf segment.fileEnd := by
    simp only [ProgramSegment.endPage, ProgramSegment.firstPage, ProgramSegment.fileEnd, pageUp, pageOf,
      pageSize]
    omega
  rw [lastWrite_segment, ProgramSegment.Touches]
  split_ifs <;> simp only [ne_eq, reduceCtorEq, not_false_eq_true, not_true_eq_false, true_iff, false_iff] <;>
    omega

/-- The byte of the file that the page file gets for byte `index` of a segment. A segment that
starts inside a page and does not reach the end of that page is read one page too far: the
source pointer has already been moved past the first page when the last page is put
together. -/
theorem lastWrite_file (sound : segment.Sound) (zero : Page) {index : Nat}
    (inFile : index < segment.sizeInFile) :
    ∃ content, lastWrite (segmentWrites program segment zero) (pageOf (segment.virtualAddress + index)) =
        some content ∧
      content.byte ((segment.virtualAddress + index) % pageSize) =
        program.image (segment.ptrStart + index + if segment.Short then pageSize else 0) % 256 := by
  have file := sound.file
  rw [lastWrite_segment]
  by_cases last : pageOf segment.fileEnd = pageOf (segment.virtualAddress + index)
  · refine ⟨_, (if_neg ?_).trans (if_pos last), ?_⟩
    · simp only [ProgramSegment.fileEnd, pageUp, pageOf, pageSize] at last ⊢
      omega
    · rw [lastContent, Page.byte_ofBytes, if_pos]
      · congr 2
        by_cases short : segment.Short
        · rw [if_pos short]
          simp only [ProgramSegment.lastSource, ProgramSegment.Short, ProgramSegment.fileEnd, pageUp,
            pageOf, pageSize] at last short ⊢
          omega
        · rw [if_neg short]
          simp only [ProgramSegment.lastSource, ProgramSegment.Short, ProgramSegment.fileEnd, pageUp,
            pageOf, pageSize] at last short ⊢
          omega
      · simp only [ProgramSegment.fileEnd, pageOf, pageSize] at last ⊢
        omega
  · have long : ¬ segment.Short := by
      simp only [ProgramSegment.Short, ProgramSegment.fileEnd, pageOf, pageSize] at last ⊢
      omega
    rw [if_neg long, Nat.add_zero]
    by_cases middle : pageUp segment.virtualAddress ≤ pageOf (segment.virtualAddress + index)
    · refine ⟨_, (if_neg ?_).trans ((if_neg last).trans (if_pos ?_)), ?_⟩
      · simp only [ProgramSegment.fileEnd, pageUp, pageOf, pageSize] at last middle ⊢
        omega
      · simp only [ProgramSegment.fileEnd, pageUp, pageOf, pageSize] at last middle ⊢
        omega
      · rw [middleContent, Page.byte_ofBytes]
        congr 2
        simp only [ProgramSegment.fileEnd, pageUp, pageOf, pageSize] at last middle ⊢
        omega
    · refine ⟨_, (if_neg ?_).trans ((if_neg last).trans ((if_neg fun both => middle both.1).trans
        (if_pos ?_))), ?_⟩
      · simp only [ProgramSegment.fileEnd, pageUp, pageOf, pageSize] at last middle ⊢
        omega
      · simp only [ProgramSegment.firstPage, pageUp, pageOf, pageSize] at middle ⊢
        omega
      · rw [firstContent, Page.byte_ofBytes, if_pos]
        · congr 2
          simp only [pageUp, pageOf, pageSize] at middle ⊢
          omega
        · simp only [ProgramSegment.firstPage, pageUp, pageOf, pageSize] at middle ⊢
          omega

/-- The rest of the page that holds the last byte of the file is zero. -/
theorem lastWrite_tail (zero : Page) (some : 0 < segment.sizeInFile) {offset : Nat}
    (inside : offset < pageSize)
    (beyond : segment.fileEnd ≤ pageOf (segment.fileEnd - 1) * pageSize + offset) :
    ∃ content, lastWrite (segmentWrites program segment zero) (pageOf (segment.fileEnd - 1)) =
        .some content ∧ content.byte offset = 0 := by
  have last : pageOf segment.fileEnd = pageOf (segment.fileEnd - 1) := by
    simp only [ProgramSegment.fileEnd, pageOf, pageSize] at inside beyond ⊢
    omega
  rw [lastWrite_segment]
  refine ⟨_, (if_neg ?_).trans (if_pos last), ?_⟩
  · simp only [ProgramSegment.fileEnd, pageUp, pageOf, pageSize] at last inside beyond ⊢
    omega
  · rw [lastContent, Page.byte_ofBytes, if_neg]
    rw [last]
    exact not_lt.2 beyond

/-- A segment that ends with its file part at a page boundary gives the next page zeros. -/
theorem lastWrite_stray (sound : segment.Sound) (zero : Page)
    (outside : ¬ segment.Touches (pageOf segment.fileEnd)) :
    ∃ content, lastWrite (segmentWrites program segment zero) (pageOf segment.fileEnd) = some content ∧
      ∀ offset, content.byte offset = 0 := by
  have file := sound.file
  have aligned : segment.fileEnd % pageSize = 0 ∧ segment.endPage = pageOf segment.fileEnd := by
    simp only [ProgramSegment.Touches, ProgramSegment.firstPage, ProgramSegment.endPage,
      ProgramSegment.fileEnd, pageUp, pageOf, pageSize] at outside ⊢
    omega
  rw [lastWrite_segment]
  refine ⟨_, (if_neg ?_).trans (if_pos rfl), fun offset => ?_⟩
  · rw [aligned.2]
    omega
  · rw [lastContent, Page.byte_ofBytes, if_neg]
    have := eq_mul_of_aligned aligned.1
    omega

/-! ### Memory -/

/-- A page as the copying loops leave it. -/
def Copied (program : UserProgram) (segment : ProgramSegment) (page : Nat) (content : Page) : Prop :=
  ∀ offset < pageSize, segment.virtualAddress ≤ page * pageSize + offset →
    content.byte offset = segmentByte program segment 0 (page * pageSize + offset) % 256

end Content

end Fos.Kernel
