import Fos.Foundation.Runs
import Fos.Kernel.TeardownProperties

/-! The storage of frames of shared objects in `kern/memory_manager.c`: a page directory whose
page tables hold frames by index. -/

set_option autoImplicit false

namespace Fos.Kernel

open Foundation

def addFrameToStorage (framesStorage frame index : Nat) : KernelM Unit := do
  let va := index * pageSize % wordSize
  let table ← match ← getPageTable framesStorage va with
    | some table => pure table
    | none => staticCpt framesStorage va
  modify fun state => state.writeWord table (ptx va) (constructEntry (toPhysicalAddress frame) (0 ||| permPresent))

def getFrameFromStorage (framesStorage index : Nat) : KernelM (Option Nat) := do
  let va := index * pageSize % wordSize
  let (frame, _) ← getFrameInfo framesStorage va
  return frame

/-- One round of `clear_frames_storage`. -/
def clearStorageEntry (framesStorage i : Nat) : KernelM Unit := do
  let entry := (← get).mem framesStorage i
  if entry ≠ 0 then
    freeFrame (← toFrameInfo (extractAddress entry))
    modify fun state => state.writeWord framesStorage i 0

def clearFramesStorage (framesStorage : Nat) : KernelM Unit := loopFrom (clearStorageEntry framesStorage) 0 1024

/-- Indices of the storage are page numbers of a 32-bit address. -/
abbrev storageSize : Nat := 0x100000

/-! ### What a storage holds -/

variable {directory index frame table : Nat} {contents : Nat → Option Nat} {state next : KernelState}

/-- The entry of a frame in a table of the storage. -/
def storageEntry : Option Nat → Nat
  | none => 0
  | some frame => constructEntry (toPhysicalAddress frame) (0 ||| permPresent)

theorem storageEntry_present (frame : Nat) : storageEntry (some frame) ≠ 0 ∧ frameOf (storageEntry (some frame)) = frame :=
  ⟨constructEntry_ne_zero frame (by decide) (by decide), frameOf_constructEntry frame (by decide)⟩

namespace KernelState

/-- The word of the directory an index leads to. -/
def storageWord (state : KernelState) (directory index : Nat) : Nat := state.mem directory (index / 1024)

/-- The word stored at an index, 0 without a table. -/
def stored (state : KernelState) (directory index : Nat) : Nat :=
  if state.storageWord directory index = 0 then 0
  else state.mem (frameOf (state.storageWord directory index)) (index % 1024)

end KernelState

/-- The frames of the machine that are free, and the directory, which is none of them. -/
structure StorageFrames (directory : Nat) (state : KernelState) : Prop where
  size : state.numberOfFrames ≤ 0x100000
  root : directory < state.numberOfFrames
  inUse : directory ∉ state.freeFrameList
  free : ∀ frame ∈ state.freeFrameList, frame < state.numberOfFrames
  nodup : state.freeFrameList.Nodup

/-- A frame that is the page table at a place of the directory. -/
structure IsStorageTable (directory : Nat) (state : KernelState) (position frame : Nat) : Prop where
  word : state.mem directory position = constructEntry (toPhysicalAddress frame) (permPresent ||| permUser ||| permWriteable)
  low : frame < state.numberOfFrames
  notFree : frame ∉ state.freeFrameList
  notRoot : frame ≠ directory

/-- The storage holds frames at indices. Its tables are in use, each for itself. -/
structure StorageHolds (directory : Nat) (state : KernelState) (contents : Nat → Option Nat) : Prop
    extends StorageFrames directory state where
  tables : ∀ position < 1024, state.mem directory position ≠ 0 →
    IsStorageTable directory state position (frameOf (state.mem directory position))
  apart : ∀ first < 1024, ∀ second < 1024, state.mem directory first ≠ 0 → state.mem directory second ≠ 0 →
    frameOf (state.mem directory first) = frameOf (state.mem directory second) → first = second
  shown : ∀ index < storageSize, state.stored directory index = storageEntry (contents index)
  frames : ∀ index < storageSize, ∀ frame ∈ contents index, frame < state.numberOfFrames

theorem storageAddress (low : index < storageSize) : pdx (index * pageSize % wordSize) = index / 1024 ∧
    ptx (index * pageSize % wordSize) = index % 1024 := by
  have small : index * pageSize < wordSize := by
    unfold storageSize at low
    simp only [pageSize, wordSize]
    omega
  rw [Nat.mod_eq_of_lt small, pdx_of_lt small, ptx_eq, pageOf_mul]
  exact ⟨rfl, rfl⟩

theorem storagePosition (low : index < storageSize) : index / 1024 < 1024 := Nat.div_lt_of_lt_mul low

/-! ### The calls -/

namespace StorageHolds

theorem present (holds : StorageHolds directory state contents) (low : index < storageSize)
    (nonzero : state.storageWord directory index ≠ 0) :
    IsStorageTable directory state (index / 1024) (frameOf (state.storageWord directory index)) :=
  holds.tables (index / 1024) (storagePosition low) nonzero

theorem wp_getPageTable (holds : StorageHolds directory state contents) (low : index < storageSize)
    {post : Option Nat → KernelState → Prop} {fail : Stop → KernelState → Prop} :
    wp (getPageTable directory (index * pageSize % wordSize)) post fail state ↔
      post (if state.storageWord directory index = 0 then none else some (frameOf (state.storageWord directory index)))
        state := by
  have word : state.mem directory (pdx (index * pageSize % wordSize)) = state.storageWord directory index :=
    congrArg (state.mem directory) (storageAddress low).1
  simp only [getPageTable, wp_bind, wp_get, word]
  cases Nat.decEq (state.storageWord directory index) 0 with
  | isTrue absent =>
      have zero : frameOf (extractAddress 0) < state.numberOfFrames := Nat.zero_lt_of_lt holds.root
      rw [absent, wp_staticKernelVirtualAddress zero]
      simp only [hasPerm_zero, Bool.false_eq_true, if_false, ne_eq, not_true_eq_false, if_true, wp_pure]
  | isFalse nonzero =>
      have table := holds.present low nonzero
      have granted : hasPerm (state.storageWord directory index) permPresent = true := by
        rw [KernelState.storageWord, table.word, hasPerm_present, testBit_constructEntry _ (by decide)]
        decide
      have bound : frameOf (extractAddress (state.storageWord directory index)) < state.numberOfFrames := by
        rw [frameOf_extractAddress]
        exact table.low
      rw [wp_staticKernelVirtualAddress bound]
      simp only [granted, if_true, if_neg nonzero, wp_pure, frameOf_extractAddress]

theorem wp_getFrameFromStorage (holds : StorageHolds directory state contents) (low : index < storageSize)
    {post : Option Nat → KernelState → Prop} {fail : Stop → KernelState → Prop} :
    wp (getFrameFromStorage directory index) post fail state ↔ post (contents index) state := by
  have entry := holds.shown index low
  unfold KernelState.stored at entry
  simp only [getFrameFromStorage, getFrameInfo, wp_bind, holds.wp_getPageTable low]
  split at entry
  · next absent =>
      have none : contents index = none := by
        cases found : contents index with
        | none => rfl
        | some frame =>
            rw [found] at entry
            exact absurd entry.symm (storageEntry_present frame).1
      simp only [if_pos absent, wp_pure, none]
  · next nonzero =>
      simp only [if_neg nonzero, wp_bind, wp_get, (storageAddress low).2, entry]
      cases found : contents index with
      | none => simp only [storageEntry, ne_eq, not_true_eq_false, if_false, wp_pure]
      | some frame =>
          obtain ⟨stored, names⟩ := storageEntry_present frame
          have bound : frameOf (extractAddress (storageEntry (some frame))) < state.numberOfFrames := by
            rw [frameOf_extractAddress, names]
            exact holds.frames index low frame found
          simp only [ne_eq, stored, not_false_eq_true, if_true, wp_bind, wp_toFrameInfo bound, wp_pure,
            frameOf_extractAddress, names]

/-- A free frame becomes a table of zeros. -/
theorem addTable (holds : StorageHolds directory state contents) {position : Nat} {rest : List Nat}
    (inside : position < 1024) (absent : state.mem directory position = 0) (free : state.freeFrameList = table :: rest)
    (size : next.numberOfFrames = state.numberOfFrames) (left : next.freeFrameList = rest)
    (word : next.mem directory position =
      constructEntry (toPhysicalAddress table) (permPresent ||| permUser ||| permWriteable))
    (words : ∀ other, other ≠ position → next.mem directory other = state.mem directory other)
    (zero : next.mem table = Page.zero)
    (others : ∀ frame, frame ≠ directory → frame ≠ table → next.mem frame = state.mem frame) :
    StorageHolds directory next contents := by
  have inFree : table ∈ state.freeFrameList := free ▸ List.mem_cons_self ..
  have notRoot : table ≠ directory := fun same => holds.inUse (same ▸ inFree)
  have nodup := holds.nodup
  rw [free] at nodup
  have fewer {frame : Nat} (member : frame ∈ rest) : frame ∈ state.freeFrameList := free ▸ List.mem_cons_of_mem _ member
  have names : frameOf (next.mem directory position) = table := by
    rw [word, frameOf_constructEntry table (by decide)]
  have isThere : next.mem directory position ≠ 0 := by
    rw [word]
    exact constructEntry_ne_zero table (by decide) (by decide)
  have old {other : Nat} (bound : other < 1024) (nonzero : state.mem directory other ≠ 0) :
      frameOf (state.mem directory other) ≠ table :=
    fun same => (holds.tables other bound nonzero).notFree (same ▸ inFree)
  constructor
  · constructor
    · exact size ▸ holds.size
    · exact size ▸ holds.root
    · rw [left]
      exact fun member => holds.inUse (fewer member)
    · rw [left, size]
      exact fun frame member => holds.free frame (fewer member)
    · exact left ▸ (List.nodup_cons.1 nodup).2
  · intro other bound nonzero
    cases Nat.decEq other position with
    | isTrue same =>
        subst same
        rw [names]
        exact ⟨word, size ▸ holds.free table inFree, left ▸ (List.nodup_cons.1 nodup).1, notRoot⟩
    | isFalse different =>
        rw [words other different] at nonzero ⊢
        have is := holds.tables other bound nonzero
        exact ⟨(words other different).trans is.word, size ▸ is.low, left ▸ fun member => is.notFree (fewer member), is.notRoot⟩
  · intro first firstBound second secondBound firstSome secondSome same
    cases Nat.decEq first position with
    | isTrue here =>
        cases Nat.decEq second position with
        | isTrue there => exact here.trans there.symm
        | isFalse there =>
            rw [words second there] at same secondSome
            rw [here, names] at same
            exact absurd same.symm (old secondBound secondSome)
    | isFalse here =>
        rw [words first here] at same firstSome
        cases Nat.decEq second position with
        | isTrue there =>
            rw [there, names] at same
            exact absurd same (old firstBound firstSome)
        | isFalse there =>
            rw [words second there] at same secondSome
            exact holds.apart first firstBound second secondBound firstSome secondSome same
  · intro index low
    rw [← holds.shown index low]
    unfold KernelState.stored KernelState.storageWord
    cases Nat.decEq (index / 1024) position with
    | isTrue here => rw [here, if_neg isThere, if_pos absent, names, zero]; rfl
    | isFalse there =>
        rw [words _ there]
        split
        · rfl
        · next nonzero =>
            have is := holds.tables _ (storagePosition low) nonzero
            rw [others _ is.notRoot (old (storagePosition low) nonzero)]
  · rw [size]
    exact holds.frames

/-- An entry is written. -/
theorem writeEntry (holds : StorageHolds directory state contents) (low : index < storageSize)
    (nonzero : state.storageWord directory index ≠ 0) (frameLow : frame < state.numberOfFrames) :
    StorageHolds directory
      (state.writeWord (frameOf (state.storageWord directory index)) (index % 1024) (storageEntry (some frame)))
      (Function.update contents index (some frame)) := by
  have table := holds.present low nonzero
  have words (position : Nat) : (state.writeWord (frameOf (state.storageWord directory index)) (index % 1024)
      (storageEntry (some frame))).mem directory position = state.mem directory position := by
    rw [KernelState.writeWord_mem, if_neg fun here => table.notRoot here.1.symm]
  constructor
  · exact ⟨holds.size, holds.root, holds.inUse, holds.free, holds.nodup⟩
  · intro position bound nonzero
    rw [words] at nonzero ⊢
    have is := holds.tables position bound nonzero
    exact ⟨(words position).trans is.word, is.low, is.notFree, is.notRoot⟩
  · intro first firstBound second secondBound
    rw [words, words]
    exact holds.apart first firstBound second secondBound
  · intro other otherLow
    have storageWords : (state.writeWord (frameOf (state.storageWord directory index)) (index % 1024)
        (storageEntry (some frame))).storageWord directory other = state.storageWord directory other := words _
    unfold KernelState.stored
    rw [storageWords]
    cases Nat.decEq other index with
    | isTrue same =>
        subst same
        rw [if_neg nonzero, Function.update_self, KernelState.writeWord_mem]
        exact if_pos ⟨rfl, rfl⟩
    | isFalse different =>
        rw [Function.update_of_ne different, ← holds.shown other otherLow]
        unfold KernelState.stored
        split
        · rfl
        · next otherNonzero =>
            rw [KernelState.writeWord_mem]
            apply if_neg
            rintro ⟨sameTable, samePosition⟩
            have sameWord := holds.apart _ (storagePosition otherLow) _ (storagePosition low) otherNonzero nonzero sameTable
            exact different (by rw [← Nat.div_add_mod other 1024, ← Nat.div_add_mod index 1024, sameWord, samePosition])
  · intro other otherLow found member
    cases Nat.decEq other index with
    | isTrue same =>
        subst same
        rw [Function.update_self] at member
        cases member
        exact frameLow
    | isFalse different =>
        rw [Function.update_of_ne different] at member
        exact holds.frames other otherLow found member

/-- `add_frame_to_storage` stores the frame, or panics before it has changed anything. -/
theorem addFrameToStorage_spec (holds : StorageHolds directory state contents) (low : index < storageSize)
    (frameLow : frame < state.numberOfFrames) :
    wp (addFrameToStorage directory frame index) (fun _ next =>
      next.numberOfFrames = state.numberOfFrames ∧ StorageHolds directory next (Function.update contents index (some frame)))
      (fun _ next => next = state) state := by
  obtain ⟨pdxEq, ptxEq⟩ := storageAddress low
  simp only [addFrameToStorage, wp_bind, holds.wp_getPageTable low]
  cases Nat.decEq (state.storageWord directory index) 0 with
  | isFalse nonzero =>
      simp only [if_neg nonzero, ptxEq]
      exact ⟨rfl, holds.writeEntry low nonzero frameLow⟩
  | isTrue absent =>
      simp only [if_pos absent, staticCpt, createTable, allocateFrame, wp_bind, wp_get]
      cases free : state.freeFrameList with
      | nil => rfl
      | cons table rest =>
          have inFree : table ∈ state.freeFrameList := free ▸ List.mem_cons_self ..
          have bound : frameOf (toPhysicalAddress table) <
              ((state.setFreeFrameList rest).setReferences table 0).numberOfFrames := by
            rw [frameOf_toPhysicalAddress]
            exact holds.free table inFree
          have notRoot : table ≠ directory := fun same => holds.inUse (same ▸ inFree)
          simp only [wp_bind, wp_modify, wp_pure, wp_staticKernelVirtualAddress bound, frameOf_toPhysicalAddress, pdxEq, ptxEq]
          let linked := (((state.setFreeFrameList rest).setReferences table 0).setReferences table 1).writeWord directory
            (index / 1024) (constructEntry (toPhysicalAddress table) (permPresent ||| permUser ||| permWriteable))
          have created : StorageHolds directory (linked.writeFrame table Page.zero) contents := by
            have size : (linked.writeFrame table Page.zero).numberOfFrames = state.numberOfFrames := rfl
            have left : (linked.writeFrame table Page.zero).freeFrameList = rest := rfl
            apply holds.addTable (storagePosition low) absent free size left
            · rw [KernelState.writeFrame_mem, if_neg notRoot.symm, KernelState.writeWord_mem, if_pos ⟨rfl, rfl⟩]
            · intro other different
              rw [KernelState.writeFrame_mem, if_neg notRoot.symm, KernelState.writeWord_mem,
                if_neg fun here => different here.2]
              rfl
            · exact if_pos rfl
            · intro other different notTable
              funext position
              rw [KernelState.writeFrame_mem, if_neg notTable, KernelState.writeWord_mem, if_neg fun here => different here.1]
              rfl
          have word : (linked.writeFrame table Page.zero).storageWord directory index =
              constructEntry (toPhysicalAddress table) (permPresent ||| permUser ||| permWriteable) := by
            rw [KernelState.storageWord, KernelState.writeFrame_mem, if_neg notRoot.symm, KernelState.writeWord_mem,
              if_pos ⟨rfl, rfl⟩]
          have names : frameOf ((linked.writeFrame table Page.zero).storageWord directory index) = table := by
            rw [word, frameOf_constructEntry table (by decide)]
          have nonzero : (linked.writeFrame table Page.zero).storageWord directory index ≠ 0 := by
            rw [word]
            exact constructEntry_ne_zero table (by decide) (by decide)
          have written := created.writeEntry low nonzero frameLow
          rw [names] at written
          exact ⟨rfl, written⟩

end StorageHolds

/-! ### Clearing -/

namespace KernelState

/-- The frames of the tables at the first places of the directory. -/
def storageTables (state : KernelState) (directory count : Nat) : List Nat :=
  ((List.range count).filter fun i => state.mem directory i ≠ 0).map fun i => frameOf (state.mem directory i)

end KernelState

/-- The first entries of the directory are cleared, and their tables are free. -/
structure StorageCleared (directory : Nat) (state : KernelState) (count : Nat) (next : KernelState) : Prop where
  size : next.numberOfFrames = state.numberOfFrames
  free : next.freeFrameList = (state.storageTables directory count).reverse ++ state.freeFrameList
  words : ∀ position, next.mem directory position = if position < count then 0 else state.mem directory position

namespace StorageHolds

theorem mem_storageTables (holds : StorageHolds directory state contents) (member : table ∈ state.storageTables directory 1024) :
    ∃ position, IsStorageTable directory state position table := by
  obtain ⟨position, inFilter, rfl⟩ := List.mem_map.1 member
  obtain ⟨inRange, nonzero⟩ := List.mem_filter.1 inFilter
  exact ⟨position, holds.tables position (List.mem_range.1 inRange) (of_decide_eq_true nonzero)⟩

theorem nodup_storageTables (holds : StorageHolds directory state contents) : (state.storageTables directory 1024).Nodup := by
  apply List.Nodup.map_on
  · intro first inFirst second inSecond same
    obtain ⟨firstRange, firstNonzero⟩ := List.mem_filter.1 inFirst
    obtain ⟨secondRange, secondNonzero⟩ := List.mem_filter.1 inSecond
    exact holds.apart first (List.mem_range.1 firstRange) second (List.mem_range.1 secondRange)
      (of_decide_eq_true firstNonzero) (of_decide_eq_true secondNonzero) same
  · exact List.nodup_range.filter _

theorem clearStorageEntry_spec (holds : StorageHolds directory state contents) {position : Nat} (bound : position < 1024)
    (cleared : StorageCleared directory state position next) {fail : Stop → KernelState → Prop} :
    wp (clearStorageEntry directory position) (fun _ last => StorageCleared directory state (position + 1) last) fail next := by
  have entry : next.mem directory position = state.mem directory position := by
    rw [cleared.words, if_neg (Nat.lt_irrefl _)]
  have words (other : Nat) : (if other < position + 1 then 0 else state.mem directory other) =
      if other = position then 0 else next.mem directory other := by
    rw [cleared.words]
    split <;> split <;> (try split) <;> first | rfl | omega
  simp only [clearStorageEntry, wp_bind, wp_get, entry]
  cases Nat.decEq (state.mem directory position) 0 with
  | isTrue absent =>
      have same : state.storageTables directory (position + 1) = state.storageTables directory position := by
        simp [KernelState.storageTables, List.range_succ, absent]
      simp only [absent, ne_eq, not_true_eq_false, if_false, wp_pure]
      refine ⟨cleared.size, same ▸ cleared.free, fun other => ?_⟩
      rw [words]
      split
      · next here => rw [here, entry, absent]
      · rfl
  | isFalse nonzero =>
      have is := holds.tables position bound nonzero
      have more : state.storageTables directory (position + 1) =
          state.storageTables directory position ++ [frameOf (state.mem directory position)] := by
        simp [KernelState.storageTables, List.range_succ, nonzero]
      have low : frameOf (extractAddress (state.mem directory position)) < next.numberOfFrames := by
        rw [frameOf_extractAddress, cleared.size]
        exact is.low
      simp only [ne_eq, nonzero, not_false_eq_true, if_true, wp_bind, wp_toFrameInfo low, freeFrame, wp_modify,
        frameOf_extractAddress]
      refine ⟨cleared.size, ?_, fun other => ?_⟩
      · rw [more, List.reverse_append]
        exact congrArg (frameOf (state.mem directory position) :: ·) cleared.free
      · rw [words, KernelState.writeWord_mem]
        exact if_congr (and_iff_right rfl) rfl rfl

/-- The tables of the storage become free, each once, and the storage is empty. -/
theorem clearFramesStorage_spec (holds : StorageHolds directory state contents) {fail : Stop → KernelState → Prop} :
    wp (clearFramesStorage directory) (fun _ next => StorageHolds directory next (fun _ => none) ∧
      next.freeFrameList = (state.storageTables directory 1024).reverse ++ state.freeFrameList) fail state := by
  have start : StorageCleared directory state 0 state := ⟨rfl, rfl, fun _ => (if_neg (Nat.not_lt_zero _)).symm⟩
  apply wp_mono (wp_loopFrom (StorageCleared directory state)
    (fun position next bound cleared => holds.clearStorageEntry_spec bound cleared) start) _ fun _ _ failed => failed
  intro _ next cleared
  refine ⟨?_, cleared.free⟩
  have empty {position : Nat} (bound : position < 1024) : next.mem directory position = 0 := by
    rw [cleared.words, if_pos bound]
  constructor
  · constructor
    · exact cleared.size ▸ holds.size
    · exact cleared.size ▸ holds.root
    · rw [cleared.free, List.mem_append, List.mem_reverse]
      rintro (isTable | free)
      · obtain ⟨position, is⟩ := holds.mem_storageTables isTable
        exact is.notRoot rfl
      · exact holds.inUse free
    · rw [cleared.free, cleared.size]
      intro frame member
      rcases List.mem_append.1 member with isTable | free
      · obtain ⟨position, is⟩ := holds.mem_storageTables (List.mem_reverse.1 isTable)
        exact is.low
      · exact holds.free frame free
    · rw [cleared.free]
      refine List.nodup_append.2 ⟨List.nodup_reverse.2 holds.nodup_storageTables, holds.nodup, ?_⟩
      rintro table isTable _ free rfl
      obtain ⟨position, is⟩ := holds.mem_storageTables (List.mem_reverse.1 isTable)
      exact is.notFree free
  · exact fun position bound nonzero => absurd (empty bound) nonzero
  · exact fun first bound _ _ nonzero => absurd (empty bound) nonzero
  · intro index low
    have absent : next.storageWord directory index = 0 := empty (storagePosition low)
    rw [KernelState.stored, if_pos absent]
    rfl
  · exact fun _ _ _ member => nomatch member

end StorageHolds

/-! ### Runs -/

/-- A storage in the kernel, and what was last added at each index. -/
structure Storage where
  kernel : KernelState
  lastAdded : Nat → Option Nat

inductive StorageCall where
  | add (frame index : Nat)
  | get (index : Nat)
  | clear

/-- What the calls do to a storage. One that panics adds nothing. -/
def Storage.exec (directory : Nat) (storage : Storage) : StorageCall → Storage
  | .add frame index =>
      match addFrameToStorage directory frame index storage.kernel with
      | .ok _ next => ⟨next, Function.update storage.lastAdded index (some frame)⟩
      | .error _ next => ⟨next, storage.lastAdded⟩
  | .get index => ⟨ended (getFrameFromStorage directory index storage.kernel), storage.lastAdded⟩
  | .clear => ⟨ended (clearFramesStorage directory storage.kernel), fun _ => none⟩

/-- A storage directory that starts zeroed. -/
def storageSystem (directory : Nat) : System Storage StorageCall where
  start storage := StorageFrames directory storage.kernel ∧ (∀ position < 1024, storage.kernel.mem directory position = 0) ∧
    storage.lastAdded = fun _ => none
  exec storage call := some (storage.exec directory call)

/-- Indices below 2^20, and frames of the machine. -/
def InStorage (storage : Storage) : StorageCall → Prop
  | .add frame index => frame < storage.kernel.numberOfFrames ∧ index < storageSize
  | .get index => index < storageSize
  | .clear => True

instance (storage : Storage) (call : StorageCall) : Decidable (InStorage storage call) := by
  cases call <;> unfold InStorage <;> infer_instance

/-- The storage is a map from indices to frames, and clearing it frees its tables. -/
structure IsFramesMap (directory : Nat) (storage : Storage) : Prop where
  lookup : ∀ index < storageSize, wp (getFrameFromStorage directory index)
    (fun frame next => frame = storage.lastAdded index ∧ next = storage.kernel) (fun _ _ => False) storage.kernel
  clear : wp (clearFramesStorage directory) (fun _ next =>
    next.freeFrameList = (storage.kernel.storageTables directory 1024).reverse ++ storage.kernel.freeFrameList ∧
      next.freeFrameList.Nodup ∧ ∀ index < storageSize,
        wp (getFrameFromStorage directory index) (fun frame _ => frame = none) (fun _ _ => False) next)
    (fun _ _ => False) storage.kernel

namespace StorageHolds

variable {storage : Storage}

theorem of_zeroed (frames : StorageFrames directory state) (zeroed : ∀ position < 1024, state.mem directory position = 0) :
    StorageHolds directory state fun _ => none := by
  constructor
  · exact frames
  · exact fun position bound nonzero => absurd (zeroed position bound) nonzero
  · exact fun first bound _ _ nonzero => absurd (zeroed first bound) nonzero
  · intro index low
    have absent : state.storageWord directory index = 0 := zeroed _ (storagePosition low)
    rw [KernelState.stored, if_pos absent]
    rfl
  · exact fun _ _ _ member => nomatch member

theorem exec (holds : StorageHolds directory storage.kernel storage.lastAdded) {call : StorageCall}
    (inside : InStorage storage call) :
    StorageHolds directory (storage.exec directory call).kernel (storage.exec directory call).lastAdded := by
  cases call with
  | add frame index =>
      have added := holds.addFrameToStorage_spec inside.2 inside.1
      unfold wp at added
      simp only [Storage.exec]
      cases outcome : addFrameToStorage directory frame index storage.kernel with
      | ok result next =>
          rw [outcome] at added
          exact added.2
      | error failure next =>
          rw [outcome] at added
          exact added ▸ holds
  | get index =>
      apply ended_of_wp fun next => StorageHolds directory next storage.lastAdded
      exact (holds.wp_getFrameFromStorage inside).2 holds
  | clear =>
      apply ended_of_wp fun next => StorageHolds directory next fun _ => none
      exact wp_mono holds.clearFramesStorage_spec (fun _ _ cleared => cleared.1) fun _ _ failed => failed

theorem isFramesMap (holds : StorageHolds directory storage.kernel storage.lastAdded) : IsFramesMap directory storage := by
  constructor
  · exact fun index low => (holds.wp_getFrameFromStorage low).2 ⟨rfl, rfl⟩
  · apply wp_mono holds.clearFramesStorage_spec _ fun _ _ failed => failed
    intro _ next cleared
    refine ⟨cleared.2, cleared.1.nodup, fun index low => ?_⟩
    exact (cleared.1.wp_getFrameFromStorage low).2 rfl

end StorageHolds

theorem isFramesMap_of_reaches {storage : Storage} (reached : (storageSystem directory).Reaches InStorage storage) :
    IsFramesMap directory storage := by
  have holds : StorageHolds directory storage.kernel storage.lastAdded := by
    apply reached.invariant fun storage => StorageHolds directory storage.kernel storage.lastAdded
    · rintro storage ⟨frames, zeroed, nothing⟩
      rw [nothing]
      exact .of_zeroed frames zeroed
    · intro storage call next before inside executes
      rw [← Option.some.inj executes]
      exact before.exec inside
  exact holds.isFramesMap

/-- Five frames, of which the last two are free. -/
private def fiveFrames : Storage where
  kernel := { BootLayout.small.boot (fun _ => Page.zero) fun _ => Page.zero with
    numberOfFrames := 5, freeFrameList := [3, 4], mem := fun _ => Page.zero }
  lastAdded _ := none

/-- A frame at an index of the user's half, another one at an index of the kernel's, and one
more for which there is no table left. -/
theorem isFramesMap_fiveFrames : ∃ storage, IsFramesMap 0 storage ∧ storage.lastAdded 5 = some 1 ∧
    storage.lastAdded 0xC0005 = some 2 ∧ storage.lastAdded 0xE0005 = none := by
  have start : (storageSystem 0).start fiveFrames := by
    refine ⟨⟨?_, ?_, ?_, ?_, ?_⟩, fun _ _ => rfl, rfl⟩ <;> decide
  obtain ⟨storage, ran, added⟩ : ∃ storage ∈ (storageSystem 0).attempt InStorage fiveFrames
      [.add 1 5, .add 2 0xC0005, .add 1 0xE0005], storage.lastAdded 5 = some 1 ∧
      storage.lastAdded 0xC0005 = some 2 ∧ storage.lastAdded 0xE0005 = none := by decide +kernel
  exact ⟨storage, isFramesMap_of_reaches ((System.Reaches.start start).attempt ran), added⟩

end Fos.Kernel
