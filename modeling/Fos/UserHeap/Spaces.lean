import Fos.Foundation.Slots
import Fos.Foundation.Tiling
import Fos.UserHeap.Malloc
import Mathlib.Tactic.Push

/-! The partition of the heap into spaces, and what `malloc` and `free` do to it. -/

set_option autoImplicit false

namespace Fos.UserHeap

open Foundation

def Info.span (space : Info) : Span Nat := ⟨space.strAddress, space.endAddress⟩

/-- A space lies on page borders and counts its pages. -/
structure Info.Exact (space : Info) : Prop where
  startAligned : space.strAddress % pageSize = 0
  endAligned : space.endAddress % pageSize = 0
  pages : space.pages = ((space.endAddress - space.strAddress) / pageSize : Nat)

/-- Spaces that partition the heap into runs of whole pages. -/
structure Partition (spaces : List Info) : Prop where
  exact : ∀ space ∈ spaces, space.Exact
  tiles : Tiles userHeapStart userHeapMax (spaces.map Info.span)

namespace Partition

variable {spaces rest : List Info}

theorem perm {others : List Info} (partition : Partition spaces) (same : spaces.Perm others) :
    Partition others where
  exact space member := partition.exact space (same.mem_iff.2 member)
  tiles := partition.tiles.perm (same.map _)

theorem nonempty (partition : Partition spaces) {space : Info} (member : space ∈ spaces) :
    space.strAddress < space.endAddress :=
  partition.tiles.nonempty space.span (List.mem_map_of_mem member)

theorem start_ge (partition : Partition spaces) {space : Info} (member : space ∈ spaces) :
    userHeapStart ≤ space.strAddress :=
  partition.tiles.low_le_start (List.mem_map_of_mem member)

theorem end_le (partition : Partition spaces) {space : Info} (member : space ∈ spaces) :
    space.endAddress ≤ userHeapMax :=
  partition.tiles.finish_le_high (List.mem_map_of_mem member)

theorem pages_eq (partition : Partition spaces) {space : Info} (member : space ∈ spaces) :
    space.pages * pageSize = (space.endAddress : Int) - space.strAddress := by
  have exact := partition.exact space member
  have ordered := partition.nonempty member
  rw [exact.pages]
  have := exact.startAligned
  have := exact.endAligned
  simp only [pageSize] at *
  omega

theorem pages_pos (partition : Partition spaces) {space : Info} (member : space ∈ spaces) :
    0 < space.pages := by
  have exact := partition.pages_eq member
  have ordered := partition.nonempty member
  simp only [pageSize] at exact
  omega

theorem pages_le (partition : Partition spaces) {space : Info} (member : space ∈ spaces) :
    space.pages ≤ numPages := by
  have exact := partition.pages_eq member
  have lower := partition.start_ge member
  have upper := partition.end_le member
  simp only [pageSize, numPages, userHeapStart, userHeapMax] at *
  omega

theorem whole : Partition [⟨userHeapStart, userHeapMax, numPages, true⟩] where
  exact := by
    simp only [List.mem_singleton, forall_eq]
    exact ⟨rfl, rfl, rfl⟩
  tiles := Tiles.single (by decide)

theorem set_isFree {space : Info} (partition : Partition (space :: rest)) (isFree : Bool) :
    Partition ({ space with isFree := isFree } :: rest) where
  exact := by
    simp only [List.forall_mem_cons]
    obtain ⟨first, others⟩ := List.forall_mem_cons.1 partition.exact
    exact ⟨⟨first.startAligned, first.endAligned, first.pages⟩, others⟩
  tiles := partition.tiles

/-- A space is cut after `count` pages. -/
theorem split {space : Info} (partition : Partition (space :: rest)) (count : Nat)
    (positive : 0 < count) (fits : (count : Int) < space.pages) (first last : Bool) :
    Partition (⟨space.strAddress, space.strAddress + count * pageSize, count, first⟩ ::
      ⟨space.strAddress + count * pageSize, space.endAddress, space.pages - count, last⟩ ::
        rest) where
  exact := by
    obtain ⟨whole, others⟩ := List.forall_mem_cons.1 partition.exact
    have size := partition.pages_eq (List.mem_cons_self ..)
    have startAligned := whole.startAligned
    have endAligned := whole.endAligned
    simp only [pageSize] at *
    simp only [List.forall_mem_cons]
    refine ⟨⟨startAligned, ?_, ?_⟩, ⟨?_, endAligned, ?_⟩, others⟩ <;>
      simp only [pageSize] <;> omega
  tiles := by
    have size := partition.pages_eq (List.mem_cons_self ..)
    have tiles := partition.tiles
    simp only [List.map_cons, Info.span] at tiles ⊢
    simp only [pageSize] at *
    exact Tiles.cut_iff.2 ⟨by omega, by omega, tiles⟩

/-- Two spaces that meet become one. -/
theorem join {left right : Info} (partition : Partition (left :: right :: rest))
    (meet : left.endAddress = right.strAddress) (isFree : Bool) :
    Partition (⟨left.strAddress, right.endAddress, left.pages + right.pages, isFree⟩ ::
      rest) where
  exact := by
    obtain ⟨leftExact, others⟩ := List.forall_mem_cons.1 partition.exact
    obtain ⟨rightExact, others⟩ := List.forall_mem_cons.1 others
    have leftSize := partition.pages_eq (show left ∈ _ by simp)
    have rightSize := partition.pages_eq (show right ∈ _ by simp)
    have leftNonempty := partition.nonempty (show left ∈ _ by simp)
    have rightNonempty := partition.nonempty (show right ∈ _ by simp)
    simp only [List.forall_mem_cons]
    refine ⟨⟨leftExact.startAligned, rightExact.endAligned, ?_⟩, others⟩
    simp only [pageSize] at *
    omega
  tiles := by
    have tiles := partition.tiles
    simp only [List.map_cons, Info.span, meet] at tiles ⊢
    exact (Tiles.cut_iff.1 tiles).2.2

/-- A space is determined by any address in it. -/
theorem eq_of_covers (partition : Partition spaces) {left right : Info}
    (leftMember : left ∈ spaces) (rightMember : right ∈ spaces) (address : Nat)
    (inLeft : left.span.Covers address) (inRight : right.span.Covers address) :
    left.strAddress = right.strAddress ∧ left.endAddress = right.endAddress := by
  have same := partition.tiles.eq_of_covers address (List.mem_map_of_mem leftMember)
    (List.mem_map_of_mem rightMember) inLeft inRight
  simpa [Info.span] using same

/-- No space other than the first starts where it starts. -/
theorem start_ne {space other : Info} (partition : Partition (space :: rest))
    (member : other ∈ rest) : other.strAddress ≠ space.strAddress := by
  intro same
  have apart := partition.tiles.apart
  simp only [List.map_cons, List.pairwise_cons] at apart
  refine (apart.1 other.span (List.mem_map_of_mem member)).not_both_cover
    space.strAddress ⟨le_rfl, ?_⟩ ⟨same.le, ?_⟩
  · exact partition.nonempty (List.mem_cons_self ..)
  · rw [← same]
    exact partition.nonempty (List.mem_cons_of_mem _ member)

end Partition

/-! ### The search -/

def Fits (reqPages : Int) (space : Info) : Prop :=
  space.isFree ∧ reqPages ≤ space.pages

theorem searchBestFit_eq_none {reqPages : Int} {spaces : List Info} {i : Nat}
    {minDiff : Int} {index : Option Nat}
    (absent : searchBestFit reqPages spaces i minDiff index = none) :
    index = none ∧ ∀ space ∈ spaces, Fits reqPages space → minDiff ≤ space.pages - reqPages := by
  induction spaces generalizing i minDiff index with
  | nil => exact ⟨absent, by simp⟩
  | cons space rest ih =>
      simp only [searchBestFit] at absent
      split at absent
      · exact absurd (ih absent).1 (by simp)
      · next skipped =>
          obtain ⟨none, others⟩ := ih absent
          refine ⟨none, List.forall_mem_cons.2 ⟨fun fits => ?_, others⟩⟩
          by_contra closer
          exact skipped ⟨fits.1, fits.2, not_le.1 closer⟩

/-- The space that is found leaves the fewest pages over, and is the first that does. -/
theorem searchBestFit_fewest {reqPages : Int} {spaces : List Info} {i : Nat}
    {minDiff : Int} {index : Option Nat} {found : Nat}
    (result : searchBestFit reqPages spaces i minDiff index = some found) :
    (index = some found ∧ ∀ space ∈ spaces, Fits reqPages space → minDiff ≤ space.pages - reqPages) ∨
      ∃ offset space, found = i + offset ∧ spaces[offset]? = some space ∧ Fits reqPages space ∧
        space.pages - reqPages < minDiff ∧
        (∀ other ∈ spaces, Fits reqPages other → space.pages ≤ other.pages) ∧
        ∀ (earlier : Nat) (other : Info), earlier < offset → spaces[earlier]? = some other →
          Fits reqPages other → space.pages < other.pages := by
  induction spaces generalizing i minDiff index with
  | nil => exact .inl ⟨result, by simp⟩
  | cons space rest ih =>
      simp only [searchBestFit] at result
      split at result
      · next better =>
          cases ih result with
          | inl kept =>
              obtain ⟨same, larger⟩ := kept
              refine .inr ⟨0, space, by simpa using same.symm, rfl, ⟨better.1, better.2.1⟩, better.2.2, ?_,
                fun earlier other before => absurd before (Nat.not_lt_zero earlier)⟩
              intro other member fits
              cases List.mem_cons.1 member with
              | inl same => exact same ▸ le_rfl
              | inr inRest =>
                  have := larger other inRest fits
                  omega
          | inr improved =>
              obtain ⟨offset, chosen, position, here, fits, smaller, fewest, first⟩ := improved
              refine .inr ⟨offset + 1, chosen, by omega, by simpa using here, fits, by omega, ?_, ?_⟩
              · intro other member otherFits
                cases List.mem_cons.1 member with
                | inl same =>
                    subst same
                    omega
                | inr inRest => exact fewest other inRest otherFits
              · intro earlier other before atEarlier otherFits
                cases earlier with
                | zero =>
                    obtain rfl : space = other := by simpa using atEarlier
                    omega
                | succ earlier =>
                    exact first earlier other (by omega) (by simpa using atEarlier) otherFits
      · next skipped =>
          have larger (fits : Fits reqPages space) : minDiff ≤ space.pages - reqPages := by
            by_contra closer
            exact skipped ⟨fits.1, fits.2, not_le.1 closer⟩
          cases ih result with
          | inl kept => exact .inl ⟨kept.1, List.forall_mem_cons.2 ⟨larger, kept.2⟩⟩
          | inr improved =>
              obtain ⟨offset, chosen, position, here, fits, smaller, fewest, first⟩ := improved
              refine .inr ⟨offset + 1, chosen, by omega, by simpa using here, fits, smaller, ?_, ?_⟩
              · intro other member otherFits
                cases List.mem_cons.1 member with
                | inl same =>
                    subst same
                    have := larger otherFits
                    omega
                | inr inRest => exact fewest other inRest otherFits
              · intro earlier other before atEarlier otherFits
                cases earlier with
                | zero =>
                    obtain rfl : space = other := by simpa using atEarlier
                    have := larger otherFits
                    omega
                | succ earlier =>
                    exact first earlier other (by omega) (by simpa using atEarlier) otherFits

theorem searchBestFit_eq_some {reqPages : Int} {spaces : List Info} {i : Nat}
    {minDiff : Int} {index : Option Nat} {found : Nat}
    (result : searchBestFit reqPages spaces i minDiff index = some found) :
    index = some found ∨ ∃ offset space, found = i + offset ∧ spaces[offset]? = some space ∧
      Fits reqPages space := by
  cases searchBestFit_fewest result with
  | inl kept => exact .inl kept.1
  | inr improved =>
      obtain ⟨offset, space, position, here, fits, -⟩ := improved
      exact .inr ⟨offset, space, position, here, fits⟩

/-! ### Slots and spaces -/

/-- The slots of a heap: those in use partition it, the others are zeroed. -/
structure Slots (spaces : List Info) : Prop where
  partition : Partition (inUse spaces)
  removed : ∀ space ∈ spaces, space.pages = -1 → space = Info.removed

theorem mem_inUse {spaces : List Info} {space : Info} :
    space ∈ inUse spaces ↔ space ∈ spaces ∧ space.pages ≠ -1 := by
  simp [inUse]

theorem inUse_cons_of_pos {space : Info} (present : 0 ≤ space.pages) (rest : List Info) :
    inUse (space :: rest) = space :: inUse rest := by
  simp only [inUse]
  rw [List.filter_cons_of_pos]
  simp only [ne_eq, decide_eq_true_eq]
  omega

theorem inUse_cons_removed (rest : List Info) :
    inUse (Info.removed :: rest) = inUse rest := rfl

theorem inUse_perm {spaces others : List Info} (same : spaces.Perm others) :
    (inUse spaces).Perm (inUse others) :=
  same.filter _

/-- A free slot is in use: merges clear the flag of the slot they give up. -/
theorem Slots.mem_inUse_of_isFree {spaces : List Info} (slots : Slots spaces) {space : Info}
    (member : space ∈ spaces) (isFree : space.isFree = true) : space ∈ inUse spaces := by
  refine mem_inUse.2 ⟨member, fun gone => ?_⟩
  have := slots.removed space member gone
  subst this
  cases isFree

theorem Slots.initializeSpaces {spaces : List Info} (slots : spaces = [] ∨ Slots spaces) :
    Slots (initializeSpaces spaces) := by
  rcases slots with rfl | slots
  · refine ⟨Partition.whole, ?_⟩
    simp only [UserHeap.initializeSpaces, List.length_nil, if_true, List.mem_singleton, forall_eq]
    exact fun gone => absurd gone (by decide)
  · have nonempty : spaces.length ≠ 0 := by
      intro empty
      obtain ⟨span, member, -⟩ :=
        (slots.partition.tiles.covers userHeapStart).1 (by decide)
      simp [inUse, List.length_eq_zero_iff.1 empty] at member
    simpa only [UserHeap.initializeSpaces, if_neg nonempty] using slots

end Fos.UserHeap
