import Fos.Foundation.Loops
import Fos.Kernel.BootMappingProperties
import Fos.Kernel.BootProperties
import Fos.Kernel.Startup

/-! The boot code ends in the state from which all runs start: its own check passes, and what it has written is
what the layout says. -/

set_option autoImplicit false

namespace Fos.Kernel

open Foundation

attribute [local irreducible] wp

/-! ### Words that were written -/

/-- The words the boot code has written, by frame and index. -/
abbrev Words := Nat → Nat → Option Nat

namespace Words

variable (words : Words) (frame index word : Nat)

def set : Words := fun other position => if other = frame ∧ position = index then some word else words other position

variable {words frame index word} in
theorem set_same : words.set frame index word frame index = some word := if_pos ⟨rfl, rfl⟩

variable {words frame index word} in
theorem set_other {other position : Nat} (elsewhere : ¬ (other = frame ∧ position = index)) :
    words.set frame index word other position = words other position := if_neg elsewhere

/-- Zeros at a kernel address. -/
def clear (address size : Nat) : Words := fun frame index =>
  let place := kernelBase + frame * pageSize + 4 * index
  if address ≤ place ∧ place < address + size then some 0 else words frame index

/-- Entries for `count` frames from `first` on, in one page table. -/
def mapPages (table index first count perm : Nat) : Words := fun other position =>
  if other = table ∧ index ≤ position ∧ position < index + count then
    some (constructEntry (toPhysicalAddress (first + (position - index))) (perm ||| permPresent))
  else words other position

/-- The entries of a page directory for page tables that lie behind each other. -/
def nameTables (directory index table count : Nat) : Words := fun other position =>
  if other = directory ∧ index ≤ position ∧ position < index + count then
    some (constructEntry (toPhysicalAddress (table + (position - index))) (permPresent ||| permWriteable))
  else words other position

theorem nameTables_succ (directory index table count other position : Nat) :
    (words.nameTables directory index table count).set directory (index + count)
      (constructEntry (toPhysicalAddress (table + count)) (permPresent ||| permWriteable)) other position =
        words.nameTables directory index table (count + 1) other position := by
  cases Classical.em (other = directory ∧ position = index + count) with
  | inl here =>
      rw [here.1, here.2, set_same, nameTables, if_pos ⟨rfl, by omega, by omega⟩, Nat.add_sub_cancel_left]
  | inr elsewhere =>
      rw [set_other elsewhere]
      unfold nameTables
      apply if_congr _ rfl rfl
      omega

/-- The memory is mapped by page tables that lie behind each other. -/
def mapMemory (table tables : Nat) : Words := fun other position =>
  if table ≤ other ∧ other < table + tables then
    some (constructEntry (toPhysicalAddress ((other - table) * 1024 + position)) (permWriteable ||| permPresent))
  else words other position

end Words

variable {start state : BootState} {words later : Words} {free endOfKernel directory address : Nat}

/-- The words that were written hold what was written to them last, and the others what they held at the start. -/
structure BootState.Writes (state start : BootState) (words : Words) (free : Nat) : Prop where
  mem : ∀ frame, ∀ index < 1024, state.mem frame index = (words frame index).getD (start.mem frame index)
  numberOfFrames : state.numberOfFrames = start.numberOfFrames
  ptrFreeMem : state.ptrFreeMem = kernelBase + free

namespace BootState.Writes

variable (writes : state.Writes start words free)
include writes

theorem congr (same : ∀ frame, ∀ index < 1024, words frame index = later frame index) :
    state.Writes start later free where
  mem frame index inPage := by rw [writes.mem frame index inPage, same frame index inPage]
  numberOfFrames := writes.numberOfFrames
  ptrFreeMem := writes.ptrFreeMem

theorem freeMem : state.freeMem endOfKernel = kernelBase + free := by
  have some : kernelBase + free ≠ 0 := by
    simp only [kernelBase]
    omega
  rw [BootState.freeMem, writes.ptrFreeMem, if_neg some]

theorem readWord {frame index word : Nat} (inPage : index < 1024) (written : words frame index = some word) :
    state.mem frame index = word := by
  rw [writes.mem frame index inPage, written, Option.getD_some]

theorem writeWord (frame index word : Nat) :
    (state.writeWord frame index word).Writes start (words.set frame index word) free where
  mem other position inPage := by
    rw [BootState.writeWord_mem, Words.set]
    split
    · rfl
    · exact writes.mem other position inPage
  numberOfFrames := writes.numberOfFrames
  ptrFreeMem := writes.ptrFreeMem

theorem clear (address size : Nat) : (state.clear address size).Writes start (words.clear address size) free where
  mem other position inPage := by
    simp only [BootState.clear_mem, Words.clear, inPage, true_and]
    split
    · rfl
    · exact writes.mem other position inPage
  numberOfFrames := writes.numberOfFrames
  ptrFreeMem := writes.ptrFreeMem

theorem setPtrFreeMem (free' : Nat) : (state.setPtrFreeMem (kernelBase + free')).Writes start words free' where
  mem := writes.mem
  numberOfFrames := writes.numberOfFrames
  ptrFreeMem := rfl

end BootState.Writes

/-! ### Allocation -/

theorem bootAllocateSpace_of_free {size : Nat} (isFree : state.freeMem endOfKernel = kernelBase + free)
    (room : pagesOf free + pagesOf size < 65536) :
    Boot.bootAllocateSpace endOfKernel size pageSize state = .ok (kernelBase + pagesOf free * pageSize)
      (state.setPtrFreeMem (kernelBase + (pagesOf free * pageSize + size))) := by
  have raised : (kernelBase + free + (pageSize - 1)) % wordSize - (kernelBase + free + (pageSize - 1)) % wordSize % pageSize =
      kernelBase + pagesOf free * pageSize := by
    simp only [pagesOf, kernelBase, pageSize, wordSize] at room ⊢
    omega
  have after : (kernelBase + pagesOf free * pageSize + size) % wordSize = kernelBase + (pagesOf free * pageSize + size) := by
    simp only [pagesOf, kernelBase, pageSize, wordSize] at room ⊢
    omega
  apply eq_ok_of_wp
  simp only [Boot.bootAllocateSpace, wp_bind, wp_get, wp_modify, wp_pure, isFree, raised, after]
  exact ⟨trivial, trivial⟩

theorem pagesOf_mul (pages : Nat) : pagesOf (pages * pageSize) = pages := by
  simp only [pagesOf, pageSize]
  omega

theorem pagesOf_mul_add (pages size : Nat) : pagesOf (pages * pageSize + size) = pages + pagesOf size := by
  simp only [pagesOf, pageSize]
  omega

/-- An array is cleared where it was allocated. -/
theorem allocateArray_writes {image : KernelImage} {size : Nat} (writes : state.Writes start words free)
    (room : pagesOf free + pagesOf size < 65536) :
    wp (Boot.allocateArray image size)
      (fun array next => array = kernelBase + pagesOf free * pageSize ∧
        next.Writes start (words.clear (kernelBase + pagesOf free * pageSize) size) (pagesOf free * pageSize + size))
      (fun _ _ => False) state := by
  simp only [Boot.allocateArray, wp_bind, wp_of_ok (bootAllocateSpace_of_free writes.freeMem room), wp_modify, wp_pure,
    true_and]
  exact (writes.setPtrFreeMem _).clear _ _

/-! ### Page tables -/

private theorem pdx_small (address : Nat) : pdx address < 1024 := by
  rw [pdx_eq]
  exact Nat.mod_lt _ (by decide)

private theorem pdx_page {page : Nat} (word : page < 1048576) : pdx (page * pageSize) = page / 1024 := by
  rw [pdx_of_lt (by simp only [pageSize, wordSize]; omega), pageOf_mul]

private theorem ptx_page (page : Nat) : ptx (page * pageSize) = page % 1024 := by
  rw [ptx_eq, pageOf_mul]

private theorem frameOf_bootTable (frame : Nat) :
    frameOf (constructEntry (toPhysicalAddress frame) (permPresent ||| permWriteable)) = frame :=
  frameOf_constructEntry frame (by decide)

/-- The page table of a region that has none lies behind what is allocated. -/
theorem bootGetPageTable_new (writes : state.Writes start words free) (inMemory : 0 < start.numberOfFrames)
    (empty : words directory (pdx address) = some 0) (room : pagesOf free + 1 < 65536) :
    wp (Boot.bootGetPageTable endOfKernel directory address true)
      (fun table next => table = some (pagesOf free) ∧
        next.Writes start (words.set directory (pdx address)
          (constructEntry (toPhysicalAddress (pagesOf free)) (permPresent ||| permWriteable))) ((pagesOf free + 1) * pageSize))
      (fun _ _ => False) state := by
  have zero : state.mem directory (pdx address) = 0 := writes.readWord (pdx_small address) empty
  have frames : ¬ state.numberOfFrames ≤ 0 := by
    rw [writes.numberOfFrames]
    omega
  have low : ¬ kernelBase + pagesOf free * pageSize < kernelBase := by omega
  have physical : kernelBase + pagesOf free * pageSize - kernelBase = toPhysicalAddress (pagesOf free) := by
    rw [toPhysicalAddress_eq, Nat.add_sub_cancel_left]
  have taken : pagesOf free * pageSize + pageSize = (pagesOf free + 1) * pageSize := (Nat.succ_mul _ _).symm
  have onePage : pagesOf pageSize = 1 := by decide
  simp only [Boot.bootGetPageTable, Boot.kernelVirtualAddress, Boot.kernelPhysicalAddress, wp_bind, wp_get, wp_ite, wp_throw,
    wp_pure, wp_modify, zero, extractAddress, frameOf, Nat.zero_sub, Nat.zero_mod, Nat.zero_shiftRight, frames,
    wp_of_ok (bootAllocateSpace_of_free writes.freeMem (onePage.symm ▸ room)), low, physical, not_false_eq_true, false_implies,
    true_implies, true_and, and_true, not_true_eq_false]
  refine ⟨congrArg some (frameOf_toPhysicalAddress _), ?_⟩
  rw [taken]
  exact (writes.setPtrFreeMem _).writeWord _ _ _

theorem bootGetPageTable_old (writes : state.Writes start words free) {entry : Nat}
    (present : words directory (pdx address) = some entry)
    (inMemory : 0 < frameOf entry ∧ frameOf entry < start.numberOfFrames) :
    Boot.bootGetPageTable endOfKernel directory address true state = .ok (some (frameOf entry)) state := by
  have read : state.mem directory (pdx address) = entry := writes.readWord (pdx_small address) present
  have frames : ¬ state.numberOfFrames ≤ frameOf entry := by
    rw [writes.numberOfFrames]
    omega
  have some : extractAddress entry ≠ 0 := by
    rw [extractAddress_eq, toPhysicalAddress_eq]
    simp only [pageSize]
    omega
  apply eq_ok_of_wp
  simp only [Boot.bootGetPageTable, Boot.kernelVirtualAddress, wp_bind, wp_get, wp_ite, wp_throw, wp_pure, read,
    frameOf_extractAddress, frames, some, false_implies, not_false_eq_true, true_implies, and_self]

/-! ### Ranges -/

/-- Where the words are that map the pages from `page` on, and that nothing else is written. -/
structure Words.Mapped (words later : Words) (tables : Nat → Nat) (page first steps perm : Nat) : Prop where
  entry : ∀ step < steps, later (tables ((page + step) / 1024)) ((page + step) % 1024) =
    some (constructEntry ((first + step) * pageSize % wordSize) (perm ||| permPresent))
  rest : ∀ frame, ∀ index < 1024, (∀ step < steps, ¬ (frame = tables ((page + step) / 1024) ∧ index = (page + step) % 1024)) →
    later frame index = words frame index

/-- The pages of a range whose page tables are there are mapped. -/
theorem bootMapFrom_writes (tables : Nat → Nat) {perm : Nat} : ∀ (steps page first : Nat) (state : BootState) (words : Words),
    state.Writes start words free → page + steps ≤ 1048576 →
    (∀ step < steps, ∃ entry, words directory ((page + step) / 1024) = some entry ∧
      frameOf entry = tables ((page + step) / 1024) ∧ 0 < frameOf entry ∧ frameOf entry < start.numberOfFrames ∧
      frameOf entry ≠ directory) →
    words.Mapped later tables page first steps perm →
    wp (Boot.bootMapFrom endOfKernel directory perm steps (page * pageSize % wordSize) (first * pageSize % wordSize))
      (fun _ next => next.Writes start later free) (fun _ _ => False) state := by
  intro steps
  induction steps with
  | zero =>
      intro page first state words writes _ _ mapped
      rw [Boot.bootMapFrom, wp_pure]
      exact writes.congr fun frame index inPage => (mapped.rest frame index inPage (by simp)).symm
  | succ steps ih =>
      intro page first state words writes inside present mapped
      obtain ⟨entry, isEntry, isTable, positive, inMemory, apart⟩ := present 0 (Nat.succ_pos _)
      rw [Nat.add_zero] at isEntry isTable
      have small : page * pageSize % wordSize = page * pageSize := by
        simp only [pageSize, wordSize]
        omega
      have region : pdx (page * pageSize) = page / 1024 := pdx_page (by omega)
      have further (number : Nat) : (number * pageSize % wordSize + pageSize) % wordSize =
          (number + 1) * pageSize % wordSize := by
        rw [Nat.mod_add_mod, Nat.succ_mul]
      rw [← region] at isEntry
      rw [Boot.bootMapFrom, wp_bind, further, further, small, Boot.bootMapPage, wp_bind,
        wp_of_ok (bootGetPageTable_old writes isEntry ⟨positive, inMemory⟩)]
      simp only [wp_modify, ptx_page, isTable]
      apply ih (page + 1) (first + 1) _ _ (writes.writeWord _ _ _) (by omega)
      · intro step short
        have next := present (step + 1) (by omega)
        rw [show page + (step + 1) = page + 1 + step by omega] at next
        obtain ⟨other, isOther, rest⟩ := next
        refine ⟨other, ?_, rest⟩
        have notTable : directory ≠ tables (page / 1024) := fun same => apart (isTable.trans same.symm)
        rw [Words.set_other fun both => notTable both.1]
        exact isOther
      · constructor
        · intro step short
          have next := mapped.entry (step + 1) (by omega)
          rw [show page + (step + 1) = page + 1 + step by omega, show first + (step + 1) = first + 1 + step by omega] at next
          exact next
        · intro frame index inPage elsewhere
          cases Classical.em (frame = tables (page / 1024) ∧ index = page % 1024) with
          | inl here =>
              have written := mapped.entry 0 (Nat.succ_pos _)
              rw [Nat.add_zero, Nat.add_zero] at written
              rw [here.1, here.2, written, Words.set_same]
          | inr notHere =>
              rw [Words.set_other notHere]
              apply mapped.rest frame index inPage
              intro step short
              cases step with
              | zero => exact notHere
              | succ step =>
                  have other := elsewhere step (by omega)
                  rwa [show page + 1 + step = page + (step + 1) by omega] at other

/-- The pages of a range in one region that has no page table yet. -/
theorem bootMapFrom_new {perm page first steps table : Nat} (writes : state.Writes start words free)
    (isTable : pagesOf free = table) (inMemory : table < start.numberOfFrames) (positive : 0 < table)
    (apart : table ≠ directory) (room : table + 1 < 65536) (inRegion : page % 1024 + (steps + 1) ≤ 1024)
    (inWords : page < 1048576) (physical : first + (steps + 1) ≤ 1048576) (empty : words directory (page / 1024) = some 0) :
    wp (Boot.bootMapFrom endOfKernel directory perm (steps + 1) (page * pageSize) (first * pageSize))
      (fun _ next => next.Writes start ((words.set directory (page / 1024)
          (constructEntry (toPhysicalAddress table) (permPresent ||| permWriteable))).mapPages table (page % 1024) first
          (steps + 1) perm) ((table + 1) * pageSize))
      (fun _ _ => False) state := by
  subst isTable
  have region : pdx (page * pageSize) = page / 1024 := pdx_page inWords
  have inside (step : Nat) (short : step < steps + 1) : (page + step) / 1024 = page / 1024 ∧
      (page + step) % 1024 = page % 1024 + step := by omega
  rw [← region] at empty
  rw [Boot.bootMapFrom, wp_bind, Boot.bootMapPage, wp_bind]
  apply wp_mono (bootGetPageTable_new writes (Nat.zero_lt_of_lt inMemory) empty room) _ fun _ _ failed => failed
  rintro _ next ⟨rfl, writes⟩
  simp only [wp_modify, ptx_page]
  rw [← Nat.succ_mul, ← Nat.succ_mul]
  rw [region] at writes
  apply bootMapFrom_writes (fun _ => pagesOf free) steps (page + 1) (first + 1) _ _ (writes.writeWord _ _ _) (by omega)
  · intro step short
    obtain ⟨sameRegion, -⟩ := inside (step + 1) (by omega)
    rw [show page + 1 + step = page + (step + 1) by omega, sameRegion]
    refine ⟨_, ?_, frameOf_bootTable _, ?_⟩
    · rw [Words.set_other fun both => apart both.1.symm, Words.set_same]
    · rw [frameOf_bootTable]
      exact ⟨positive, inMemory, apart⟩
  · constructor
    · intro step short
      obtain ⟨-, index⟩ := inside (step + 1) (by omega)
      have small : (first + 1 + step) * pageSize % wordSize =
          toPhysicalAddress (first + (page % 1024 + (step + 1) - page % 1024)) := by
        rw [toPhysicalAddress_eq]
        simp only [pageSize, wordSize]
        omega
      rw [show page + 1 + step = page + (step + 1) by omega, index, Words.mapPages, if_pos ⟨rfl, by omega, by omega⟩, small]
    · intro frame index inPage elsewhere
      unfold Words.mapPages
      split
      · next here =>
          cases decEq index (page % 1024) with
          | isTrue isFirst =>
              rw [here.1, isFirst, Words.set_same, Nat.sub_self, Nat.add_zero, toPhysicalAddress_eq]
          | isFalse later =>
              have next := elsewhere (index - page % 1024 - 1) (by omega)
              have place := (inside (index - page % 1024 - 1 + 1) (by omega)).2
              rw [show page + 1 + (index - page % 1024 - 1) = page + (index - page % 1024 - 1 + 1) by omega, place] at next
              exact absurd ⟨here.1, by omega⟩ next
      · next notHere => exact (Words.set_other fun both => notHere ⟨both.1, by omega, by omega⟩).symm

/-! ### The window -/

/-- The page tables for the memory at `KERNEL_BASE` lie behind each other. -/
theorem createWindowTables_writes {image : KernelImage} {table : Nat} (writes : state.Writes start words (table * pageSize))
    (inMemory : 0 < start.numberOfFrames) (room : table + 64 < 65536)
    (empty : ∀ index < 64, words directory (960 + index) = some 0) :
    wp (Boot.createWindowTables image directory)
      (fun _ next => next.Writes start (words.nameTables directory 960 table 64) ((table + 64) * pageSize))
      (fun _ _ => False) state := by
  have count : (0xFFFFFFFF - kernelBase + (ptSize - 1)) / ptSize = 64 := by decide
  rw [Boot.createWindowTables, count]
  clear count
  apply wp_forM_range fun done (state : BootState) =>
    state.Writes start (words.nameTables directory 960 table done) ((table + done) * pageSize)
  · exact writes.congr fun frame index _ => (if_neg (by omega)).symm
  · intro done short state writes
    have word : (960 + done) * 1024 < 1048576 := by omega
    have address : kernelBase + done * ptSize = (960 + done) * 1024 * pageSize := by
      simp only [kernelBase, ptSize, pageSize]
      omega
    have region : pdx (kernelBase + done * ptSize) = 960 + done := by
      rw [address, pdx_page word, Nat.mul_div_cancel _ (by decide)]
    have missing : words.nameTables directory 960 table done directory (pdx (kernelBase + done * ptSize)) = some 0 := by
      rw [region, Words.nameTables, if_neg (by omega)]
      exact empty done (by omega)
    rw [wp_bind]
    have enough : pagesOf ((table + done) * pageSize) + 1 < 65536 := by
      rw [pagesOf_mul]
      omega
    apply wp_mono (bootGetPageTable_new writes inMemory missing enough) _ fun _ _ failed => failed
    rintro _ next ⟨-, writes⟩
    rw [pagesOf_mul, region] at writes
    rw [wp_pure]
    exact writes.congr fun frame index _ => words.nameTables_succ ..

/-! ### The words of the boot code, one part after the other -/

namespace KernelImage

variable (image : KernelImage) (numberOfFrames : Nat)

/-- The page directory, with page tables for the stack and for the memory. -/
def tableWords : Words :=
  (((Words.clear (fun _ _ => none) (kernelBase + image.firstFrame * pageSize) pageSize).set image.firstFrame 958
    (constructEntry (toPhysicalAddress (image.firstFrame + 1)) (permPresent ||| permWriteable))).mapPages
      (image.firstFrame + 1) 1016 (frameOf (image.ptrStackBottom - kernelBase)) 8 permWriteable).nameTables
        image.firstFrame 960 (image.firstFrame + 2) 64

/-- The arrays of frames, and the entries for the page directory itself. -/
def listingWords : Words :=
  (((image.tableWords.clear (kernelBase + image.framesInfo * pageSize) (numberOfFrames * sizeofFrameInfo)).clear
    (kernelBase + image.diskFramesInfo numberOfFrames * pageSize) (pagesPerFile * sizeofFrameInfo)).set image.firstFrame 959
      (constructEntry (toPhysicalAddress image.firstFrame) (permPresent ||| permWriteable))).set image.firstFrame 957
        (toPhysicalAddress image.firstFrame ||| permUser ||| permPresent)

/-- The array of environments. -/
def envsWords : Words :=
  ((((image.listingWords numberOfFrames).clear (kernelBase + image.envs numberOfFrames * pageSize) (nenv * sizeofEnv)).set
    image.firstFrame 955 (constructEntry (toPhysicalAddress (image.envsTable numberOfFrames))
        (permPresent ||| permWriteable))).mapPages
      (image.envsTable numberOfFrames) 0 (image.envs numberOfFrames) (pagesOf (nenv * sizeofEnv)) permUser).set
          image.firstFrame 955
        (constructEntry (toPhysicalAddress (image.envsTable numberOfFrames)) (permPresent ||| permWriteable) |||
          (permUser ||| permPresent))

def memoryWords : Words := (image.envsWords numberOfFrames).mapMemory (image.firstFrame + 2) 64

end KernelImage

/-- Clearing an array does not touch the frames in front of it. -/
theorem Words.clear_below {first size frame index : Nat} (below : frame < first) (inPage : index < 1024) :
    words.clear (kernelBase + first * pageSize) size frame index = words frame index := by
  apply if_neg
  simp only [pageSize]
  omega

theorem Words.clear_page {frame index : Nat} (inPage : index < 1024) :
    words.clear (kernelBase + frame * pageSize) pageSize frame index = some 0 := by
  apply if_pos
  simp only [pageSize]
  omega

theorem Words.mapPages_other {table index first count perm frame position : Nat} (other : frame ≠ table) :
    words.mapPages table index first count perm frame position = words frame position :=
  if_neg fun here => other here.1

theorem Words.nameTables_other {index table count frame position : Nat} (other : frame ≠ directory) :
    words.nameTables directory index table count frame position = words frame position :=
  if_neg fun here => other here.1

/-- The page tables of the boot directory lie in front of the arrays. -/
theorem KernelImage.tables_le (image : KernelImage) (numberOfFrames : Nat) : image.firstFrame + 66 = image.framesInfo ∧
    image.framesInfo ≤ image.diskFramesInfo numberOfFrames ∧ image.diskFramesInfo numberOfFrames ≤ image.envs numberOfFrames ∧
    image.envs numberOfFrames ≤ image.envsTable numberOfFrames :=
  ⟨rfl, Nat.le_add_right .., Nat.le_add_right .., Nat.le_add_right ..⟩

theorem KernelImage.firstFrame_lt (image : KernelImage) (numberOfFrames : Nat) : image.firstFrame < image.framesInfo ∧
    image.firstFrame < image.diskFramesInfo numberOfFrames ∧ image.firstFrame < image.envs numberOfFrames ∧
    image.firstFrame < image.envsTable numberOfFrames := by
  have order := image.tables_le numberOfFrames
  omega

section Directory

variable {image : KernelImage} {numberOfFrames index : Nat}

theorem tableWords_directory (inPage : index < 1024) : image.tableWords image.firstFrame index =
    some (if 960 ≤ index then constructEntry (toPhysicalAddress (image.firstFrame + 2 + (index - 960)))
        (permPresent ||| permWriteable)
      else if index = 958 then constructEntry (toPhysicalAddress (image.firstFrame + 1))
          (permPresent ||| permWriteable) else 0) := by
  unfold KernelImage.tableWords
  cases Nat.lt_or_ge index 960 with
  | inr window =>
      rw [Words.nameTables, if_pos ⟨rfl, window, by omega⟩, if_pos window]
  | inl below =>
      rw [Words.nameTables, if_neg (by omega), Words.mapPages_other (by omega), if_neg (by omega)]
      cases decEq index 958 with
      | isTrue stack => rw [stack, Words.set_same, if_pos rfl]
      | isFalse other => rw [Words.set_other fun both => other both.2, Words.clear_page inPage, if_neg other]

theorem listingWords_directory (inPage : index < 1024) (notListing : index ≠ 957 ∧ index ≠ 959) :
    image.listingWords numberOfFrames image.firstFrame index = image.tableWords image.firstFrame index := by
  unfold KernelImage.listingWords
  rw [Words.set_other fun both => notListing.1 both.2, Words.set_other fun both => notListing.2 both.2,
    Words.clear_below (image.firstFrame_lt numberOfFrames).2.1 inPage,
    Words.clear_below (image.firstFrame_lt numberOfFrames).1 inPage]

theorem envsWords_directory (inPage : index < 1024) (notEnvs : index ≠ 955) :
    image.envsWords numberOfFrames image.firstFrame index = image.listingWords numberOfFrames image.firstFrame index := by
  unfold KernelImage.envsWords
  rw [Words.set_other fun both => notEnvs both.2, Words.mapPages_other (image.firstFrame_lt numberOfFrames).2.2.2.ne,
    Words.set_other fun both => notEnvs both.2, Words.clear_below (image.firstFrame_lt numberOfFrames).2.2.1 inPage]

end Directory

/-! ### The kernel's address space -/

section Space

variable {image : KernelImage}

/-- Nothing is allocated, and the memory has room for what will be. -/
structure BootState.Fresh (start : BootState) (image : KernelImage) : Prop where
  none : start.ptrFreeMem = 0
  sound : image.Sound
  room : image.envsTable start.numberOfFrames + 1 < start.numberOfFrames
  frames : start.numberOfFrames ≤ 65536

/-- The first page is taken, and nothing is written. -/
theorem BootState.Writes.onePage (start : BootState) (first : Nat) :
    (start.setPtrFreeMem (kernelBase + (first * pageSize + pageSize))).Writes start (fun _ _ => none)
      ((first + 1) * pageSize) where
  mem _ _ _ := rfl
  numberOfFrames := rfl
  ptrFreeMem := by rw [BootState.setPtrFreeMem_ptrFreeMem, Nat.add_mul, Nat.one_mul]

theorem allocateDirectory_writes (fresh : start.Fresh image) :
    wp (Boot.allocateArray image pageSize)
      (fun array next => array = kernelBase + image.firstFrame * pageSize ∧ next.Writes start
        (Words.clear (fun _ _ => none) (kernelBase + image.firstFrame * pageSize) pageSize) ((image.firstFrame + 1) * pageSize))
      (fun _ _ => False) start := by
  have isFree : start.freeMem image.endOfKernel = kernelBase + (image.endOfKernel - kernelBase) := by
    have loaded := (Nat.le_add_right _ _).trans fresh.sound.loaded
    rw [BootState.freeMem, fresh.none, if_pos rfl, Nat.add_sub_cancel' loaded]
  have first : pagesOf (image.endOfKernel - kernelBase) = image.firstFrame := rfl
  have onePage : pagesOf pageSize = 1 := by decide
  have enough : pagesOf (image.endOfKernel - kernelBase) + pagesOf pageSize < 65536 := by
    have order := image.tables_le start.numberOfFrames
    have room := fresh.room
    have frames := fresh.frames
    rw [first, onePage]
    omega
  simp only [Boot.allocateArray, wp_bind, wp_of_ok (bootAllocateSpace_of_free isFree enough), wp_modify, wp_pure, first,
    true_and]
  exact (BootState.Writes.onePage start image.firstFrame).clear _ _

theorem kernelPhysicalAddress_of_le (above : kernelBase ≤ address) :
    Boot.kernelPhysicalAddress address state = .ok (address - kernelBase) state := by
  apply eq_ok_of_wp
  simp only [Boot.kernelPhysicalAddress, wp_ite, wp_throw, wp_pure]
  exact ⟨fun below => absurd above (Nat.not_le.2 below), fun _ => ⟨trivial, trivial⟩⟩

theorem KernelImage.Sound.stackBottom (sound : image.Sound) :
    frameOf (image.ptrStackBottom - kernelBase) * pageSize = image.ptrStackBottom - kernelBase := by
  rw [frameOf_eq]
  exact Nat.div_mul_cancel (Nat.dvd_sub (Nat.dvd_of_mod_eq_zero sound.aligned) (by decide))

theorem mapStack_writes (fresh : start.Fresh image) (writes : state.Writes start
      (Words.clear (fun _ _ => none) (kernelBase + image.firstFrame * pageSize) pageSize) ((image.firstFrame + 1) * pageSize)) :
    wp (Boot.bootMapRange image.endOfKernel image.firstFrame (kernelStackTop - kernelStackSize) kernelStackSize
        (image.ptrStackBottom - kernelBase) permWriteable)
      (fun _ next => next.Writes start (((Words.clear (fun _ _ => none) (kernelBase + image.firstFrame * pageSize) pageSize).set
        image.firstFrame 958 (constructEntry (toPhysicalAddress (image.firstFrame + 1)) (permPresent ||| permWriteable))).mapPages
          (image.firstFrame + 1) 1016 (frameOf (image.ptrStackBottom - kernelBase)) 8 permWriteable)
        ((image.firstFrame + 2) * pageSize))
      (fun _ _ => False) state := by
  have count : (kernelStackSize + (pageSize - 1)) / pageSize = 7 + 1 := by decide
  have stack : kernelStackTop - kernelStackSize = 982008 * pageSize := by decide
  have bottom := fresh.sound.stackBottom
  have high : frameOf (image.ptrStackBottom - kernelBase) < 1048568 := by
    rw [frameOf_eq]
    apply Nat.div_lt_of_lt_mul
    exact (Nat.sub_le _ _).trans_lt fresh.sound.stack.2
  have order := image.tables_le start.numberOfFrames
  have room := fresh.room
  have frames := fresh.frames
  rw [Boot.bootMapRange, count, stack, ← bottom]
  nth_rewrite 2 [bottom]
  apply bootMapFrom_new writes (pagesOf_mul _)
  · omega
  · omega
  · omega
  · omega
  · decide
  · decide
  · omega
  · exact Words.clear_page (by decide)

/-- Up to the page tables of the memory. -/
theorem tables_writes (fresh : start.Fresh image) (writes : state.Writes start
      (((Words.clear (fun _ _ => none) (kernelBase + image.firstFrame * pageSize) pageSize).set
        image.firstFrame 958 (constructEntry (toPhysicalAddress (image.firstFrame + 1)) (permPresent ||| permWriteable))).mapPages
          (image.firstFrame + 1) 1016 (frameOf (image.ptrStackBottom - kernelBase)) 8 permWriteable)
        ((image.firstFrame + 2) * pageSize)) :
    wp (Boot.createWindowTables image image.firstFrame)
      (fun _ next => next.Writes start image.tableWords (image.framesInfo * pageSize)) (fun _ _ => False) state := by
  have order := image.tables_le start.numberOfFrames
  have room := fresh.room
  have frames := fresh.frames
  apply createWindowTables_writes writes
  · omega
  · omega
  · intro index short
    rw [Words.mapPages_other (by omega), Words.set_other (by omega), Words.clear_page (by omega)]

/-- The arrays of frames lie behind each other. -/
theorem framesInfo_writes (fresh : start.Fresh image)
    (writes : state.Writes start image.tableWords (image.framesInfo * pageSize)) :
    wp (Boot.allocateArray image (state.numberOfFrames * sizeofFrameInfo % wordSize))
      (fun _ next => next.Writes start
        (image.tableWords.clear (kernelBase + image.framesInfo * pageSize) (start.numberOfFrames * sizeofFrameInfo))
        (image.framesInfo * pageSize + start.numberOfFrames * sizeofFrameInfo))
      (fun _ _ => False) state := by
  have order := image.tables_le start.numberOfFrames
  have room := fresh.room
  have frames := fresh.frames
  have small : start.numberOfFrames * sizeofFrameInfo % wordSize = start.numberOfFrames * sizeofFrameInfo := by
    apply Nat.mod_eq_of_lt
    exact (Nat.mul_le_mul_right _ frames).trans_lt (by decide)
  have diskFrames : image.framesInfo + pagesOf (start.numberOfFrames * sizeofFrameInfo) =
      image.diskFramesInfo start.numberOfFrames :=
    rfl
  rw [writes.numberOfFrames, small]
  have enough : pagesOf (image.framesInfo * pageSize) + pagesOf (start.numberOfFrames * sizeofFrameInfo) < 65536 := by
    rw [pagesOf_mul, diskFrames]
    omega
  apply wp_mono (allocateArray_writes writes enough) _ fun _ _ failed => failed
  rintro _ next ⟨-, writes⟩
  rwa [pagesOf_mul] at writes

theorem diskFramesInfo_writes (fresh : start.Fresh image) (writes : state.Writes start words
      (image.framesInfo * pageSize + start.numberOfFrames * sizeofFrameInfo)) :
    wp (Boot.allocateArray image (pagesPerFile * sizeofFrameInfo % wordSize))
      (fun _ next => next.Writes start
        (words.clear (kernelBase + image.diskFramesInfo start.numberOfFrames * pageSize) (pagesPerFile * sizeofFrameInfo))
        (image.diskFramesInfo start.numberOfFrames * pageSize + pagesPerFile * sizeofFrameInfo))
      (fun _ _ => False) state := by
  have order := image.tables_le start.numberOfFrames
  have room := fresh.room
  have frames := fresh.frames
  have small : pagesPerFile * sizeofFrameInfo % wordSize = pagesPerFile * sizeofFrameInfo := Nat.mod_eq_of_lt (by decide)
  have first : pagesOf (image.framesInfo * pageSize + start.numberOfFrames * sizeofFrameInfo) =
      image.diskFramesInfo start.numberOfFrames := pagesOf_mul_add _ _
  have envs : image.diskFramesInfo start.numberOfFrames + pagesOf (pagesPerFile * sizeofFrameInfo) =
      image.envs start.numberOfFrames := rfl
  have enough : pagesOf (image.framesInfo * pageSize + start.numberOfFrames * sizeofFrameInfo) +
      pagesOf (pagesPerFile * sizeofFrameInfo) < 65536 := by
    rw [first, envs]
    omega
  rw [small]
  apply wp_mono (allocateArray_writes writes enough) _ fun _ _ failed => failed
  rintro _ next ⟨-, writes⟩
  rwa [first] at writes

theorem envs_writes (fresh : start.Fresh image) (writes : state.Writes start words
      (image.diskFramesInfo start.numberOfFrames * pageSize + pagesPerFile * sizeofFrameInfo)) :
    wp (Boot.allocateArray image (nenv * sizeofEnv))
      (fun array next => array = kernelBase + image.envs start.numberOfFrames * pageSize ∧ next.Writes start
        (words.clear (kernelBase + image.envs start.numberOfFrames * pageSize) (nenv * sizeofEnv))
        (image.envs start.numberOfFrames * pageSize + nenv * sizeofEnv))
      (fun _ _ => False) state := by
  have order := image.tables_le start.numberOfFrames
  have room := fresh.room
  have frames := fresh.frames
  have first : pagesOf (image.diskFramesInfo start.numberOfFrames * pageSize + pagesPerFile * sizeofFrameInfo) =
      image.envs start.numberOfFrames := pagesOf_mul_add _ _
  have table : image.envs start.numberOfFrames + pagesOf (nenv * sizeofEnv) = image.envsTable start.numberOfFrames := rfl
  have enough : pagesOf (image.diskFramesInfo start.numberOfFrames * pageSize + pagesPerFile * sizeofFrameInfo) +
      pagesOf (nenv * sizeofEnv) < 65536 := by
    rw [first, table]
    omega
  apply wp_mono (allocateArray_writes writes enough) _ fun _ _ failed => failed
  intro array next result
  rwa [first] at result

theorem mapEnvs_writes (fresh : start.Fresh image) (writes : state.Writes start
      ((image.listingWords start.numberOfFrames).clear (kernelBase + image.envs start.numberOfFrames * pageSize)
          (nenv * sizeofEnv))
      (image.envs start.numberOfFrames * pageSize + nenv * sizeofEnv)) :
    wp (Boot.bootMapRange image.endOfKernel image.firstFrame uenvs (nenv * sizeofEnv)
        (image.envs start.numberOfFrames * pageSize) permUser)
      (fun _ next => next.Writes start ((((image.listingWords start.numberOfFrames).clear
        (kernelBase + image.envs start.numberOfFrames * pageSize) (nenv * sizeofEnv)).set image.firstFrame 955
          (constructEntry (toPhysicalAddress (image.envsTable start.numberOfFrames)) (permPresent ||| permWriteable))).mapPages
            (image.envsTable start.numberOfFrames) 0 (image.envs start.numberOfFrames) (pagesOf (nenv * sizeofEnv)) permUser)
        ((image.envsTable start.numberOfFrames + 1) * pageSize))
      (fun _ _ => False) state := by
  have order := image.tables_le start.numberOfFrames
  have below := image.firstFrame_lt start.numberOfFrames
  have room := fresh.room
  have frames := fresh.frames
  have table : pagesOf (image.envs start.numberOfFrames * pageSize + nenv * sizeofEnv) = image.envsTable start.numberOfFrames :=
    pagesOf_mul_add _ _
  have count : pagesOf (nenv * sizeofEnv) = 237 + 1 := by decide
  have page : uenvs = 977920 * pageSize := by decide
  have steps : (nenv * sizeofEnv + (pageSize - 1)) / pageSize = 237 + 1 := count
  rw [Boot.bootMapRange, steps, page, count]
  apply bootMapFrom_new writes table
  · omega
  · omega
  · omega
  · omega
  · decide
  · decide
  · omega
  · rw [Words.clear_below below.2.2.1 (by decide), listingWords_directory (by decide) (by decide),
      tableWords_directory (by decide)]
    rfl

/-- The page directory as the layout has it. -/
theorem memoryWords_directory {numberOfFrames index : Nat} (inPage : index < 1024) :
    image.memoryWords numberOfFrames image.firstFrame index = some ((image.layout numberOfFrames).directoryWord index) := by
  have vptRegion : pdx vpt = 959 := by decide
  have uvptRegion : pdx uvpt = 957 := by decide
  have stackRegion : pdx (kernelStackTop - kernelStackSize) = 958 := by decide
  have envsRegion : pdx uenvs = 955 := by decide
  have baseRegion : pdx kernelBase = 960 := by decide
  have perms : permPresent ||| permWriteable ||| (permUser ||| permPresent) = permPresent ||| permWriteable ||| permUser := by
    decide
  have notWindow : ¬ (image.firstFrame + 2 ≤ image.firstFrame ∧ image.firstFrame < image.firstFrame + 2 + 64) := by omega
  rw [KernelImage.memoryWords, Words.mapMemory, if_neg notWindow]
  simp only [BootLayout.directoryWord, vptRegion, uvptRegion, stackRegion, envsRegion, baseRegion, KernelImage.layout]
  cases decEq index 955 with
  | isTrue isEnvs =>
      subst isEnvs
      rw [KernelImage.envsWords, Words.set_same, if_neg (by omega), if_neg (by omega), if_neg (by omega), if_pos rfl,
        constructEntry, constructEntry, Nat.or_assoc, perms]
  | isFalse notEnvs =>
      rw [envsWords_directory inPage notEnvs]
      cases decEq index 957 with
      | isTrue isListing =>
          subst isListing
          rw [KernelImage.listingWords, Words.set_same, if_neg (by omega), if_pos rfl, constructEntry, Nat.or_assoc]
      | isFalse notUser =>
          cases decEq index 959 with
          | isTrue isListing =>
              subst isListing
              rw [KernelImage.listingWords, Words.set_other (by omega), Words.set_same, if_pos rfl]
          | isFalse notListing =>
              rw [listingWords_directory inPage ⟨notUser, notListing⟩, tableWords_directory inPage]
              simp only [notEnvs, notUser, notListing, if_false, inPage, and_true]
              congr 1
              cases decEq index 958 with
              | isTrue isStack =>
                  subst isStack
                  rw [if_neg (by omega), if_pos rfl, if_pos rfl]
              | isFalse notStack =>
                  simp only [notStack, if_false]

/-- The memory is mapped page by page. -/
theorem memory_writes (fresh : start.Fresh image)
    (writes : state.Writes start (image.envsWords start.numberOfFrames) free) :
    wp (Boot.bootMapRange image.endOfKernel image.firstFrame kernelBase (0xFFFFFFFF - kernelBase) 0 permWriteable)
      (fun _ next => next.Writes start (image.memoryWords start.numberOfFrames) free) (fun _ _ => False) state := by
  have order := image.tables_le start.numberOfFrames
  have room := fresh.room
  have frames := fresh.frames
  have steps : (0xFFFFFFFF - kernelBase + (pageSize - 1)) / pageSize = 65536 := by decide
  have base : kernelBase = 983040 * pageSize % wordSize := by decide
  have zero : 0 = 0 * pageSize % wordSize := by decide
  rw [Boot.bootMapRange, steps, base, zero]
  apply bootMapFrom_writes (fun region => image.firstFrame + 2 + (region - 960)) 65536 983040 0 state _ writes
  · decide
  · intro step short
    have region : 960 ≤ (983040 + step) / 1024 ∧ (983040 + step) / 1024 < 1024 := by omega
    refine ⟨constructEntry (toPhysicalAddress (image.firstFrame + 2 + ((983040 + step) / 1024 - 960)))
      (permPresent ||| permWriteable), ?_, frameOf_bootTable _, ?_⟩
    · rw [envsWords_directory region.2 (by omega), listingWords_directory region.2 (by omega),
        tableWords_directory region.2, if_pos region.1]
    · rw [frameOf_bootTable]
      omega
  · constructor
    · intro step short
      have region : (983040 + step) / 1024 - 960 = step / 1024 := by omega
      have place : (983040 + step) % 1024 = step % 1024 := by omega
      have small : (0 + step) * pageSize % wordSize = toPhysicalAddress ((image.firstFrame + 2 + step / 1024 -
          (image.firstFrame + 2)) * 1024 + step % 1024) := by
        rw [Nat.add_sub_cancel_left, Nat.div_add_mod', toPhysicalAddress_eq, Nat.zero_add]
        apply Nat.mod_eq_of_lt
        simp only [pageSize, wordSize]
        omega
      rw [region, place, KernelImage.memoryWords, Words.mapMemory, if_pos ⟨by omega, by omega⟩, small]
    · intro frame index inPage elsewhere
      apply if_neg
      rintro ⟨above, below⟩
      have next := elsewhere ((frame - (image.firstFrame + 2)) * 1024 + index) (by omega)
      apply next
      omega

theorem memoryWords_other {numberOfFrames frame index : Nat}
    (outside : ¬ (image.firstFrame + 2 ≤ frame ∧ frame < image.firstFrame + 2 + 64)) :
    image.memoryWords numberOfFrames frame index = image.envsWords numberOfFrames frame index := if_neg outside

/-- The entries of the page tables for the memory. -/
theorem memoryWords_region {numberOfFrames index : Nat} (above : 960 ≤ index) (inPage : index < 1024) :
    image.memoryWords numberOfFrames image.firstFrame index =
      some (constructEntry (toPhysicalAddress (image.firstFrame + 2 + (index - 960))) (permPresent ||| permWriteable)) := by
  rw [memoryWords_other (by omega), envsWords_directory inPage (by omega), listingWords_directory inPage (by omega),
    tableWords_directory inPage, if_pos above]

theorem memoryWords_stackRegion {numberOfFrames : Nat} : image.memoryWords numberOfFrames image.firstFrame 958 =
    some (constructEntry (toPhysicalAddress (image.firstFrame + 1)) (permPresent ||| permWriteable)) := by
  rw [memoryWords_other (by omega), envsWords_directory (by decide) (by decide), listingWords_directory (by decide) (by decide),
    tableWords_directory (by decide), if_neg (by decide), if_pos rfl]

theorem memoryWords_window {numberOfFrames table index : Nat} (inside : table < 64) :
    image.memoryWords numberOfFrames (image.firstFrame + 2 + table) index =
      some (constructEntry (toPhysicalAddress (table * 1024 + index)) (permWriteable ||| permPresent)) := by
  rw [KernelImage.memoryWords, Words.mapMemory, if_pos ⟨by omega, by omega⟩, Nat.add_sub_cancel_left]

theorem memoryWords_stack {numberOfFrames index : Nat} (above : 1016 ≤ index) (inPage : index < 1024) :
    image.memoryWords numberOfFrames (image.firstFrame + 1) index =
      some (constructEntry (toPhysicalAddress (frameOf (image.ptrStackBottom - kernelBase) + (index - 1016)))
        (permWriteable ||| permPresent)) := by
  have order := image.tables_le numberOfFrames
  rw [memoryWords_other (by omega), KernelImage.envsWords, Words.set_other (by omega), Words.mapPages_other (by omega),
    Words.set_other (by omega), Words.clear_below (by omega) inPage, KernelImage.listingWords, Words.set_other (by omega),
    Words.set_other (by omega), Words.clear_below (by omega) inPage, Words.clear_below (by omega) inPage,
    KernelImage.tableWords, Words.nameTables_other (by omega), Words.mapPages, if_pos ⟨rfl, above, by omega⟩]

theorem memoryWords_envs {numberOfFrames index : Nat} (inside : index < pagesOf (nenv * sizeofEnv)) :
    image.memoryWords numberOfFrames (image.envsTable numberOfFrames) index =
      some (constructEntry (toPhysicalAddress (image.envs numberOfFrames + index)) (permUser ||| permPresent)) := by
  have order := image.tables_le numberOfFrames
  rw [memoryWords_other (by omega), KernelImage.envsWords, Words.set_other (by omega), Words.mapPages,
    if_pos ⟨rfl, Nat.zero_le _, by omega⟩, Nat.sub_zero]

/-! ### The check -/

private theorem hasPerm_bootEntry (frame : Nat) {perm : Nat} :
    hasPerm (constructEntry (toPhysicalAddress frame) (perm ||| permPresent)) permPresent = true := by
  rw [hasPerm_present, testBit_constructEntry _ (by decide), Nat.testBit_or]
  simp

private theorem extractAddress_bootEntry (frame : Nat) {perm : Nat} (low : perm < pageSize) :
    extractAddress (constructEntry (toPhysicalAddress frame) perm) = frame * pageSize := by
  rw [extractAddress_eq, frameOf_constructEntry frame low, toPhysicalAddress_eq]

/-- The walk through a page table that was written. -/
theorem checkVa2pa_writes (writes : state.Writes start words free) {page : Nat} (table frame perm : Nat) (word : page < 1048576)
    (region : words directory (page / 1024) =
      some (constructEntry (toPhysicalAddress table) (permPresent ||| permWriteable)))
    (inMemory : table < start.numberOfFrames) (low : perm ||| permPresent < pageSize)
    (entry : words table (page % 1024) = some (constructEntry (toPhysicalAddress frame) (perm ||| permPresent))) :
    Boot.checkVa2pa directory (page * pageSize) state = .ok (frame * pageSize) state := by
  have readDirectory := writes.readWord (by omega) region
  have readTable := writes.readWord (Nat.mod_lt _ (by decide)) entry
  have present : hasPerm (constructEntry (toPhysicalAddress table) (permPresent ||| permWriteable)) permPresent = true := by
    rw [Nat.or_comm]
    exact hasPerm_bootEntry table
  have exists_ : ¬ state.numberOfFrames ≤ table := by
    rw [writes.numberOfFrames]
    omega
  apply eq_ok_of_wp
  simp only [Boot.checkVa2pa, Boot.kernelVirtualAddress, wp_bind, wp_get, wp_ite, wp_throw, wp_pure, pdx_page word, ptx_page,
    readDirectory, present, frameOf_extractAddress, frameOf_bootTable, exists_, readTable, hasPerm_bootEntry,
    extractAddress_bootEntry _ low, not_true_eq_false, not_false_eq_true, false_implies, true_implies, and_self]

private theorem checkPage_writes {page physical : Nat} {text : String}
    (found : Boot.checkVa2pa directory (page * pageSize) state = .ok physical state) :
    wp (Boot.checkPage directory (page * pageSize) physical text) (fun _ next => next = state) (fun _ _ => False) state := by
  simp only [Boot.checkPage, wp_bind, wp_of_ok found, Boot.check, beq_self_eq_true, if_true, wp_pure]

section Check

variable (fresh : start.Fresh image) (writes : state.Writes start (image.memoryWords start.numberOfFrames) free)
include fresh writes

theorem checkMemory_writes :
    wp (Boot.checkMemory image.firstFrame) (fun _ next => next = state) (fun _ _ => False) state := by
  have bound : kernelPages = 65536 := by
    unfold kernelPages
    decide
  have order := image.tables_le start.numberOfFrames
  have room := fresh.room
  apply wp_forM_range (fun _ next => next = state) rfl
  rintro page short _ rfl
  have base : 983040 * pageSize = kernelBase := by decide
  have address : kernelBase + page * pageSize = (983040 + page) * pageSize := by
    rw [Nat.add_mul, base]
  have region : 960 ≤ (983040 + page) / 1024 ∧ (983040 + page) / 1024 < 1024 := by omega
  have same : (983040 + page) / 1024 - 960 = page / 1024 := by omega
  have place : (983040 + page) % 1024 = page % 1024 := by omega
  rw [address]
  apply checkPage_writes
  apply checkVa2pa_writes writes (image.firstFrame + 2 + page / 1024) page permWriteable
  · omega
  · rw [memoryWords_region region.1 region.2, same]
  · omega
  · decide
  · rw [place, memoryWords_window (by omega), Nat.div_add_mod']

theorem checkStack_writes :
    wp (Boot.checkStack image image.firstFrame) (fun _ next => next = state) (fun _ _ => False) state := by
  have order := image.tables_le start.numberOfFrames
  have room := fresh.room
  have count : kernelStackSize / pageSize = 8 := by decide
  rw [Boot.checkStack, count]
  apply wp_forM_range (fun _ next => next = state) rfl
  rintro page short _ rfl
  have top : kernelStackTop - kernelStackSize = 982008 * pageSize := by decide
  have region : (982008 + page) / 1024 = 958 := by omega
  have place : (982008 + page) % 1024 = 1016 + page := by omega
  have bottom := fresh.sound.stackBottom
  rw [wp_bind, wp_of_ok (kernelPhysicalAddress_of_le fresh.sound.stack.1), top, ← bottom, ← Nat.add_mul, ← Nat.add_mul]
  apply checkPage_writes
  apply checkVa2pa_writes writes (image.firstFrame + 1) (frameOf (image.ptrStackBottom - kernelBase) + page) permWriteable
  · omega
  · rw [region]
    exact memoryWords_stackRegion
  · omega
  · decide
  · rw [place, memoryWords_stack (by omega) (by omega), Nat.add_sub_cancel_left]

omit fresh writes in
/-- The entries `check_boot_pgdir` expects not to be zero. -/
theorem directoryWord_eq_zero_iff {layout : BootLayout} {index : Nat} (inPage : index < 1024) : layout.directoryWord index = 0 ↔
    ¬ (index = pdx vpt ∨ index = pdx uvpt ∨ index = pdx (kernelStackTop - 1) ∨ index = pdx uenvs) ∧ ¬ index ≥ pdx kernelBase := by
  have stackRegion : pdx (kernelStackTop - kernelStackSize) = pdx (kernelStackTop - 1) := by decide
  unfold BootLayout.directoryWord
  rw [stackRegion]
  have some (frame : Nat) : constructEntry (toPhysicalAddress frame) (permPresent ||| permWriteable) ≠ 0 :=
    constructEntry_ne_zero frame (by decide) (by decide)
  split
  · next here => exact iff_of_false (some _) fun zero => zero.1 (.inl here)
  · next notVpt =>
      split
      · next here =>
          exact iff_of_false (constructEntry_ne_zero _ (by decide) (by decide)) fun zero => zero.1 (.inr (.inl here))
      · next notUvpt =>
          split
          · next here => exact iff_of_false (some _) fun zero => zero.1 (.inr (.inr (.inl here)))
          · next notStack =>
              split
              · next here =>
                  exact iff_of_false (constructEntry_ne_zero _ (by decide) (by decide))
                    fun zero => zero.1 (.inr (.inr (.inr here)))
              · next notEnvs =>
                  split
                  · next window => exact iff_of_false (some _) fun zero => zero.2 window.1
                  · next below =>
                      refine iff_of_true rfl ⟨?_, fun above => below ⟨above, inPage⟩⟩
                      rintro (here | here | here | here)
                      · exact notVpt here
                      · exact notUvpt here
                      · exact notStack here
                      · exact notEnvs here

omit fresh in
theorem checkDirectoryEntry_writes {index : Nat} (inPage : index < 1024) :
    wp (Boot.checkDirectoryEntry image.firstFrame index) (fun _ next => next = state) (fun _ _ => False) state := by
  have read := writes.readWord inPage (memoryWords_directory inPage)
  have zero := @directoryWord_eq_zero_iff (image.layout start.numberOfFrames) index inPage
  simp only [Boot.checkDirectoryEntry, wp_bind, wp_get, wp_ite, read]
  refine ⟨fun listed => ?_, fun notListed => ⟨fun above => ?_, fun below => ?_⟩⟩
  · have some : (image.layout start.numberOfFrames).directoryWord index ≠ 0 := fun none => (zero.1 none).1 listed
    simp only [Boot.check, bne_iff_ne, ne_eq, some, not_false_eq_true, if_true, wp_pure]
  · have some : (image.layout start.numberOfFrames).directoryWord index ≠ 0 := fun none => (zero.1 none).2 above
    simp only [Boot.check, bne_iff_ne, ne_eq, some, not_false_eq_true, if_true, wp_pure]
  · have none := zero.2 ⟨notListed, below⟩
    simp only [Boot.check, none, beq_self_eq_true, if_true, wp_pure]

theorem checkBootPgdir_writes :
    wp (Boot.checkBootPgdir image image.firstFrame) (fun _ next => next = state) (fun _ _ => False) state := by
  rw [Boot.checkBootPgdir, wp_bind]
  apply wp_mono_returns (checkMemory_writes fresh writes)
  rintro _ _ rfl
  rw [wp_bind]
  apply wp_mono_returns (checkStack_writes fresh writes)
  rintro _ _ rfl
  have bound : npdEntries = 1024 := by
    unfold npdEntries
    rfl
  apply wp_forM_range (fun _ next => next = _) rfl
  rintro index inPage _ rfl
  exact checkDirectoryEntry_writes writes (bound ▸ inPage)

end Check

/-! ### Paging -/

/-- Some entries of the page directory are as they may be. -/
structure BootState.Blurred (state start : BootState) (words : Words) (free directory first last : Nat) : Prop where
  mem : ∀ frame, ∀ index < 1024, ¬ (frame = directory ∧ first ≤ index ∧ index < last) →
    state.mem frame index = (words frame index).getD (start.mem frame index)
  numberOfFrames : state.numberOfFrames = start.numberOfFrames
  ptrFreeMem : state.ptrFreeMem = kernelBase + free

theorem copyEntries_blurred {count : Nat} (writes : state.Writes start words free) :
    wp (Boot.copyEntries directory count)
      (fun _ next => next.Blurred start words free directory 0 count) (fun _ _ => False) state := by
  apply wp_forM_range fun done (next : BootState) => next.Blurred start words free directory 0 done
  · exact ⟨fun frame index inPage _ => writes.mem frame index inPage, writes.numberOfFrames, writes.ptrFreeMem⟩
  · intro done short next blurred
    rw [wp_modify]
    refine ⟨fun frame index inPage outside => ?_, blurred.numberOfFrames, blurred.ptrFreeMem⟩
    rw [BootState.writeWord_mem, if_neg (by omega)]
    exact blurred.mem frame index inPage (by omega)

theorem clearEntries_writes {count : Nat} (zero : ∀ index < count, words directory index = some 0)
    (blurred : state.Blurred start words free directory 0 count) :
    wp (Boot.clearEntries directory count) (fun _ next => next.Writes start words free) (fun _ _ => False) state := by
  have loop : wp (Boot.clearEntries directory count)
      (fun _ next => next.Blurred start words free directory count count) (fun _ _ => False) state := by
    apply wp_forM_range fun done (next : BootState) => next.Blurred start words free directory done count
    · exact blurred
    · intro done short next blurred
      rw [wp_modify]
      refine ⟨fun frame index inPage outside => ?_, blurred.numberOfFrames, blurred.ptrFreeMem⟩
      rw [BootState.writeWord_mem]
      split
      · next here => rw [here.1, here.2, zero done short, Option.getD_some]
      · next elsewhere => exact blurred.mem frame index inPage (by omega)
  apply wp_mono_returns loop
  intro _ next sharp
  exact ⟨fun frame index inPage => sharp.mem frame index inPage (by omega), sharp.numberOfFrames, sharp.ptrFreeMem⟩

/-- The kernel's page tables at address zero are taken out again. -/
theorem turnOnPaging_writes (writes : state.Writes start (image.memoryWords start.numberOfFrames) free) :
    wp (Boot.turnOnPaging image.firstFrame)
      (fun _ next => next.Writes start (image.memoryWords start.numberOfFrames) free) (fun _ _ => False) state := by
  rw [Boot.turnOnPaging, wp_bind, wp_get, wp_bind]
  generalize isCount : pdx state.ptrFreeMem - pdx kernelBase = count
  have few : count ≤ 64 := by
    have small := pdx_small state.ptrFreeMem
    have base : pdx kernelBase = 960 := by decide
    omega
  have zero : ∀ index < count, image.memoryWords start.numberOfFrames image.firstFrame index = some 0 := by
    intro index short
    have inPage : index < 1024 := by omega
    have none := @directoryWord_eq_zero_iff (image.layout start.numberOfFrames) index inPage
    have regions : pdx vpt = 959 ∧ pdx uvpt = 957 ∧ pdx (kernelStackTop - 1) = 958 ∧ pdx uenvs = 955 ∧ pdx kernelBase = 960 := by
      decide
    rw [memoryWords_directory inPage, none.2]
    rw [regions.1, regions.2.1, regions.2.2.1, regions.2.2.2.1, regions.2.2.2.2]
    omega
  apply wp_mono_returns (copyEntries_blurred writes)
  exact fun _ next blurred => clearEntries_writes zero blurred

theorem setupListing_writes
    (writes : state.Writes start ((image.tableWords.clear (kernelBase + image.framesInfo * pageSize)
        (start.numberOfFrames * sizeofFrameInfo)).clear (kernelBase + image.diskFramesInfo start.numberOfFrames * pageSize)
          (pagesPerFile * sizeofFrameInfo)) free) :
    wp (Boot.setupListing image.firstFrame)
      (fun _ next => next.Writes start (image.listingWords start.numberOfFrames) free) (fun _ _ => False) state := by
  have vptRegion : pdx vpt = 959 := by decide
  have uvptRegion : pdx uvpt = 957 := by decide
  rw [Boot.setupListing, wp_bind, wp_modify, wp_modify, vptRegion, uvptRegion]
  exact (writes.writeWord _ _ _).writeWord _ _ _

/-- `initialize_kernel_VM` returns, and has written the words of the layout. -/
theorem initializeKernelVM_writes (fresh : start.Fresh image) :
    wp (Boot.initializeKernelVM image)
      (fun directory next => directory = image.firstFrame ∧ next.Writes start (image.memoryWords start.numberOfFrames)
        ((image.envsTable start.numberOfFrames + 1) * pageSize))
      (fun _ _ => False) start := by
  have above (frame : Nat) : kernelBase ≤ kernelBase + frame * pageSize := Nat.le_add_right _ _
  have envsRegion : pdx uenvs = 955 := by decide
  have frame (number : Nat) : frameOf (number * pageSize) = number := by
    rw [frameOf_eq, Nat.mul_div_cancel _ (by decide)]
  rw [Boot.initializeKernelVM, wp_bind]
  apply wp_mono_returns (allocateDirectory_writes fresh)
  rintro _ next ⟨rfl, writes⟩
  rw [wp_bind, wp_of_ok (kernelPhysicalAddress_of_le (above _)), Nat.add_sub_cancel_left, frame, wp_bind,
    wp_of_ok (kernelPhysicalAddress_of_le fresh.sound.stack.1), wp_bind]
  apply wp_mono_returns (mapStack_writes fresh writes)
  intro _ next writes
  rw [wp_bind]
  apply wp_mono_returns (tables_writes fresh writes)
  intro _ next writes
  rw [wp_bind, wp_get, wp_bind]
  apply wp_mono_returns (framesInfo_writes fresh writes)
  intro _ next writes
  rw [wp_bind]
  apply wp_mono_returns (diskFramesInfo_writes fresh writes)
  intro _ next writes
  rw [wp_bind]
  apply wp_mono_returns (setupListing_writes writes)
  intro _ next writes
  rw [wp_bind]
  apply wp_mono_returns (envs_writes fresh writes)
  rintro _ next ⟨rfl, writes⟩
  rw [wp_bind, wp_of_ok (kernelPhysicalAddress_of_le (above _)), Nat.add_sub_cancel_left, wp_bind]
  apply wp_mono_returns (mapEnvs_writes fresh writes)
  intro _ next writes
  have entry : next.mem image.firstFrame 955 =
      constructEntry (toPhysicalAddress (image.envsTable start.numberOfFrames)) (permPresent ||| permWriteable) := by
    apply writes.readWord (by decide)
    rw [Words.mapPages_other (image.firstFrame_lt _).2.2.2.ne, Words.set_same]
  rw [wp_bind, wp_modify, envsRegion, entry, wp_bind]
  apply wp_mono_returns (memory_writes fresh (writes.writeWord _ _ _))
  intro _ next writes
  rw [wp_bind]
  apply wp_mono_returns (checkBootPgdir_writes fresh writes)
  rintro _ _ rfl
  rw [wp_bind]
  apply wp_mono_returns (turnOnPaging_writes writes)
  intro _ next writes
  rw [wp_pure]
  exact ⟨rfl, writes⟩

end Space

/-! ### Free lists -/

section Lists

variable {kernel : KernelState} {first count : Nat}

/-- One more frame of a range has a value. -/
private theorem update_range (references : Nat → Nat) (first count value : Nat) :
    Function.update (fun frame => if first ≤ frame ∧ frame < first + count then value else references frame)
        (first + count) value =
      fun frame => if first ≤ frame ∧ frame < first + (count + 1) then value else references frame := by
  funext frame
  cases decEq frame (first + count) with
  | isTrue same => rw [same, Function.update_self, if_pos ⟨by omega, by omega⟩]
  | isFalse other =>
      rw [Function.update_of_ne other]
      apply if_congr _ rfl rfl
      omega

theorem foldl_markFrame : (List.range' first count).foldl KernelState.markFrame kernel =
    { kernel with references := fun frame => if first ≤ frame ∧ frame < first + count then 1 else kernel.references frame } := by
  induction count with
  | zero =>
      have empty (frame : Nat) : ¬ (first ≤ frame ∧ frame < first + 0) := by omega
      simp only [List.range'_zero, List.foldl_nil, empty, if_false]
  | succ count ih =>
      rw [List.range'_1_concat, List.foldl_append, ih, List.foldl_cons, List.foldl_nil, KernelState.markFrame, update_range]

theorem foldl_putFrame : (List.range' first count).foldl KernelState.putFrame kernel =
    { kernel with
      references := fun frame => if first ≤ frame ∧ frame < first + count then 0 else kernel.references frame
      freeFrameList := insertedAtHead first count ++ kernel.freeFrameList } := by
  induction count with
  | zero =>
      have empty (frame : Nat) : ¬ (first ≤ frame ∧ frame < first + 0) := by omega
      simp only [List.range'_zero, List.foldl_nil, empty, if_false, insertedAtHead, List.nil_append]
  | succ count ih =>
      rw [List.range'_1_concat, List.foldl_append, ih, List.foldl_cons, List.foldl_nil, KernelState.putFrame, update_range]
      rfl

theorem foldl_putDiskFrame : (List.range' first count).foldl KernelState.putDiskFrame kernel =
    { kernel with diskFreeFrameList := insertedAtHead first count ++ kernel.diskFreeFrameList } := by
  induction count with
  | zero => rfl
  | succ count ih =>
      rw [List.range'_1_concat, List.foldl_append, ih, List.foldl_cons, List.foldl_nil]
      rfl

/-- The records of the environments are zero before and after. -/
theorem foldl_putEnv (slots : List Nat) : ∀ kernel : KernelState, (kernel.envs = fun _ => Env.zero) →
    slots.foldl KernelState.putEnv kernel = { kernel with envFreeList := slots.reverse ++ kernel.envFreeList } := by
  induction slots with
  | nil => exact fun _ _ => rfl
  | cons slot slots ih =>
      intro kernel zero
      have same : Function.update kernel.envs slot { kernel.envs slot with envStatus := .free, envId := 0 } = kernel.envs := by
        rw [Function.update_eq_self_iff, zero]
        rfl
      have rest := ih { kernel with envFreeList := slot :: kernel.envFreeList } zero
      rw [List.foldl_cons, KernelState.putEnv, same, rest, List.reverse_cons, List.append_assoc]
      rfl

end Lists

/-! ### The state all runs start from -/

/-- The frames `initialize_paging` has marked are those the layout does not manage. -/
theorem BootLayout.references_eq {layout : BootLayout} (valid : layout.Valid) (frame : Nat) :
    (if layout.rangeEnd ≤ frame ∧ frame < layout.rangeEnd + (layout.numberOfFrames - layout.rangeEnd) then 0
      else if 256 ≤ frame ∧ frame < 256 + (layout.rangeEnd - 256) then 1
      else if 160 ≤ frame ∧ frame < 160 + (256 - 160) then 1
      else if 3 ≤ frame ∧ frame < 3 + (160 - 3) then 0
      else if frame = 2 then 1 else if frame = 1 then 1 else if frame = 0 then 1 else 0) =
      if frame < layout.numberOfFrames ∧ ¬ layout.Managed frame then 1 else 0 := by
  have frames := valid.frames
  have directory := valid.directory
  have hole : physIOMem / pageSize = 160 := by decide
  simp only [BootLayout.Managed, hole]
  grind

variable {image : KernelImage} {directory : Nat} {disk : Nat → Page}

/-- What `initialize_paging` leaves. -/
theorem initializePaging_eq {layout : BootLayout} (valid : layout.Valid) {kernel : KernelState}
    (frames : kernel.numberOfFrames = layout.numberOfFrames) (unused : kernel.references = fun _ => 0) :
    initializePaging (kernelBase + layout.rangeEnd * pageSize) kernel =
      { kernel with
        mem := kernel.clearPages.mem
        references := (layout.boot kernel.mem kernel.disk).references
        freeFrameList := (layout.boot kernel.mem kernel.disk).freeFrameList
        diskFreeFrameList := (layout.boot kernel.mem kernel.disk).diskFreeFrameList } := by
  have directory := valid.directory
  have inMemory := valid.frames
  have hole : roundUp physIOMem / pageSize = 160 ∧ physIOMem / pageSize = 160 ∧ physExtendedMem / pageSize = 256 := by decide
  have rangeEnd : roundUp (kernelBase + layout.rangeEnd * pageSize - kernelBase) / pageSize = layout.rangeEnd := by
    rw [Nat.add_sub_cancel_left, roundUp, roundDown]
    simp only [pageSize, wordSize]
    omega
  have references := funext (layout.references_eq valid)
  simp only [initializePaging, initializeDiskPageFile, rangeEnd, hole, List.foldl_cons, List.foldl_nil, foldl_markFrame,
    foldl_putFrame, foldl_putDiskFrame, KernelState.markFrame, KernelState.clearPages, frames, unused, BootLayout.boot,
    List.append_nil, Function.update_apply, references]

theorem Words.clear_outside {words : Words} {first size frame index : Nat}
    (outside : frame < first ∨ first + pagesOf size ≤ frame)
    (inPage : index < 1024) : words.clear (kernelBase + first * pageSize) size frame index = words frame index := by
  apply if_neg
  simp only [pagesOf, pageSize] at outside ⊢
  omega

/-- The boot code writes to no other frames. -/
theorem memoryWords_none {numberOfFrames frame index : Nat}
    (outside : frame < image.firstFrame ∨ image.envsTable numberOfFrames < frame) (inPage : index < 1024) :
    image.memoryWords numberOfFrames frame index = none := by
  have order := image.tables_le numberOfFrames
  have onePage : pagesOf pageSize = 1 := by decide
  have framesInfo : image.framesInfo + pagesOf (numberOfFrames * sizeofFrameInfo) = image.diskFramesInfo numberOfFrames := rfl
  have diskFramesInfo : image.diskFramesInfo numberOfFrames + pagesOf (pagesPerFile * sizeofFrameInfo) =
      image.envs numberOfFrames := rfl
  have envs : image.envs numberOfFrames + pagesOf (nenv * sizeofEnv) = image.envsTable numberOfFrames := rfl
  rw [memoryWords_other (by omega), KernelImage.envsWords, Words.set_other (by omega), Words.mapPages_other (by omega),
    Words.set_other (by omega), Words.clear_outside (by omega) inPage, KernelImage.listingWords, Words.set_other (by omega),
    Words.set_other (by omega), Words.clear_outside (by omega) inPage, Words.clear_outside (by omega) inPage,
    KernelImage.tableWords, Words.nameTables_other (by omega), Words.mapPages_other (by omega), Words.set_other (by omega),
    Words.clear_outside (by omega) inPage]

/-- The kernel image fills the first megabyte of the extended memory, or less. -/
theorem KernelImage.Sound.firstFrame_le (sound : image.Sound) : 256 ≤ image.firstFrame := by
  have megabyte : physExtendedMem = 256 * pageSize := by decide
  have loaded : 256 * pageSize ≤ image.endOfKernel - kernelBase := by
    rw [← megabyte]
    exact Nat.le_sub_of_add_le' sound.loaded
  rw [KernelImage.firstFrame, pagesOf, Nat.le_div_iff_mul_le (by decide)]
  exact loaded.trans (Nat.le_add_right _ _)

theorem KernelImage.layout_valid {numberOfFrames : Nat} (sound : image.Sound)
    (room : image.envsTable numberOfFrames + 1 < numberOfFrames) (frames : numberOfFrames ≤ 65536) :
    (image.layout numberOfFrames).Valid := by
  have order := image.tables_le numberOfFrames
  have loaded := sound.firstFrame_le
  constructor <;> simp only [KernelImage.layout, windowTables]
  · exact ⟨room.le, frames⟩
  · omega
  · omega
  · intro index inWindow
    omega
  · omega
  · intro first _ second _ same
    omega
  · refine ⟨by omega, by omega, by omega, fun index inWindow => ?_⟩
    omega
  · decide

/-- What the layout says of a word was written there. -/
theorem memoryWords_of_bootWord {numberOfFrames frame index word : Nat} (sound : image.Sound) (inPage : index < 1024)
    (described : (image.layout numberOfFrames).bootWord frame index = some word) :
    image.memoryWords numberOfFrames frame index = some word ∧ 3 ≤ frame ∨ (frame = 1 ∨ frame = 2) ∧ index < 256 ∧ word = 0 := by
  have order := image.tables_le numberOfFrames
  have loaded := sound.firstFrame_le
  have low : 3 ≤ image.firstFrame := loaded.trans' (by decide)
  have stackPlace : ptx (kernelStackTop - kernelStackSize) = 1016 := by decide
  unfold BootLayout.bootWord at described
  rw [stackPlace] at described
  split at described
  · next isDirectory =>
      cases described
      left
      rw [isDirectory]
      exact ⟨memoryWords_directory inPage, low⟩
  · next notDirectory =>
      split at described
      · next isStack =>
          cases described
          left
          rw [isStack.1]
          exact ⟨memoryWords_stack isStack.2.1 inPage, low.trans (Nat.le_succ _)⟩
      · next notStack =>
          split at described
          · next isEnvs =>
              cases described
              left
              rw [isEnvs.1]
              exact ⟨memoryWords_envs isEnvs.2, low.trans (image.firstFrame_lt numberOfFrames).2.2.2.le⟩
          · next notEnvs =>
              split at described
              · next table found =>
                  cases described
                  left
                  have inWindow := List.mem_range.1 (List.mem_of_find?_eq_some found)
                  have isTable : (image.layout numberOfFrames).windowTable table = frame := by simpa using List.find?_some found
                  rw [← isTable]
                  exact ⟨memoryWords_window inWindow, low.trans ((Nat.le_add_right _ _).trans (Nat.le_add_right _ _))⟩
              · next none =>
                  split at described
                  · next here =>
                      cases described
                      exact .inr ⟨here.1, here.2, rfl⟩
                  · cases described

/-- The state after `FOS_initialize`. -/
theorem fosInitialize_writes {start : BootState} (fresh : start.Fresh image) :
    wp (fosInitialize image disk)
      (fun state _ => ∃ after, state.Same ((image.layout start.numberOfFrames).boot after disk) ∧
        ∀ frame, (image.layout start.numberOfFrames).Managed frame → ∀ index < 1024, after frame index = start.mem frame index)
      (fun _ _ => False) start := by
  have valid := image.layout_valid fresh.sound fresh.room fresh.frames
  rw [fosInitialize, wp_bind]
  apply wp_mono_returns (initializeKernelVM_writes fresh)
  rintro _ next ⟨rfl, writes⟩
  have ptrFreeMem : next.ptrFreeMem = kernelBase + (image.layout start.numberOfFrames).rangeEnd * pageSize := writes.ptrFreeMem
  have paged := @initializePaging_eq _ valid (next.kernelState image.firstFrame disk) writes.numberOfFrames rfl
  rw [wp_bind, wp_get, wp_pure, ptrFreeMem, envInit, paged, foldl_putEnv _ _ rfl, List.reverse_reverse, initializeQueues]
  refine ⟨(next.kernelState image.firstFrame disk).clearPages.mem, ⟨?_, ?_⟩, ?_⟩
  · intro frame index inPage
    change _ = ((image.layout start.numberOfFrames).bootWord frame index).getD _
    cases described : (image.layout start.numberOfFrames).bootWord frame index with
    | none => rfl
    | some word =>
        cases memoryWords_of_bootWord fresh.sound inPage described with
        | inl written =>
            have notPage : ¬ ((frame = 1 ∨ frame = 2) ∧ index < 256) := by omega
            exact (if_neg notPage).trans (writes.readWord inPage written.1)
        | inr cleared => exact (if_pos ⟨cleared.1, cleared.2.1⟩).trans cleared.2.2.symm
  · have same : next.numberOfFrames = (image.layout start.numberOfFrames).numberOfFrames := writes.numberOfFrames
    simp only [BootState.kernelState, same, BootLayout.boot, List.append_nil]
    rfl
  · intro frame managed index inPage
    have order := image.tables_le start.numberOfFrames
    have loaded := fresh.sound.firstFrame_le
    have hole : physIOMem / pageSize = 160 := by decide
    have outside : 3 ≤ frame ∧ (frame < image.firstFrame ∨ image.envsTable start.numberOfFrames < frame) := by
      cases managed with
      | inl low =>
        rw [hole] at low
        omega
      | inr high =>
        have above : image.envsTable start.numberOfFrames + 1 ≤ frame := high.1
        omega
    have notPage : ¬ ((frame = 1 ∨ frame = 2) ∧ index < 256) := by omega
    change (if (frame = 1 ∨ frame = 2) ∧ index < 256 then 0 else next.mem frame index) = _
    rw [if_neg notPage, writes.mem frame index inPage, memoryWords_none outside.2 inPage]
    rfl

private theorem frames_le {maxpa : Nat} (small : ¬ maxpa > kernelVirtualArea) : maxpa / pageSize ≤ 65536 :=
  Nat.div_le_of_le_mul ((Nat.le_of_not_lt small).trans (by decide))

/-- The kernel can map all memory it accepts. -/
theorem detectMemory_le {nvram : Nvram} {numberOfFrames : Nat} (detected : detectMemory nvram = some numberOfFrames) :
    numberOfFrames ≤ 65536 := by
  simp only [detectMemory, Option.ite_none_left_eq_some, Option.some.injEq] at detected
  rw [← detected.2]
  exact frames_le detected.1

/-- Booting leads to the state all runs start from, over what was in the frames that are managed. -/
theorem fosInitialize_boots {nvram : Nvram} {image : KernelImage} {numberOfFrames : Nat} {ram disk : Nat → Page}
    (sound : image.Sound) (detected : detectMemory nvram = some numberOfFrames)
    (room : image.envsTable numberOfFrames + 1 < numberOfFrames) :
    (image.layout numberOfFrames).Valid ∧
      wp (fosInitialize image disk)
        (fun state _ => ∃ after, state.Same ((image.layout numberOfFrames).boot after disk) ∧
          ∀ frame, (image.layout numberOfFrames).Managed frame → ∀ index < 1024, after frame index = ram frame index)
        (fun _ _ => False) ⟨ram, numberOfFrames, 0⟩ := by
  have frames := detectMemory_le detected
  have valid := image.layout_valid sound room frames
  have fresh : BootState.Fresh ⟨ram, numberOfFrames, 0⟩ image := ⟨rfl, sound, room, frames⟩
  refine ⟨valid, ?_⟩
  apply wp_mono_returns (fosInitialize_writes fresh)
  rintro state _ ⟨after, same, unchanged⟩
  exact ⟨after, same, unchanged⟩

private theorem small_sound : KernelImage.Sound ⟨kernelBase + 0x200000, kernelBase + 0x110000⟩ := by
  constructor <;> decide

/-- 32 MB of memory, and a kernel of one megabyte. -/
theorem fosInitialize_boots_small :
    ∃ layout : BootLayout, layout.Valid ∧
      wp (fosInitialize ⟨kernelBase + 0x200000, kernelBase + 0x110000⟩ fun _ _ => 0)
        (fun state _ => ∃ after, state.Same (layout.boot after fun _ _ => 0) ∧
          ∀ frame, layout.Managed frame → ∀ index < 1024, after frame index = 7)
        (fun _ _ => False) ⟨fun _ _ => 7, 8192, 0⟩ :=
  ⟨_, @fosInitialize_boots ⟨640, 31744, 256⟩ _ 8192 _ _ small_sound (by decide) (by decide)⟩

end Fos.Kernel
