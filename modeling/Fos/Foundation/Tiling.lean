import Mathlib.Order.Basic
import Mathlib.Order.Lattice
import Mathlib.Data.List.Pairwise
import Mathlib.Data.List.Perm.Basic

/-! Tilings of an interval of a linear order by spans, in no particular order. -/

set_option autoImplicit false

namespace Fos.Foundation

/-- The half-open interval from `start` to `finish`. -/
structure Span (Point : Type) where
  start : Point
  finish : Point
  deriving DecidableEq, Repr

variable {Point : Type} [LinearOrder Point]

def Span.Covers (span : Span Point) (point : Point) : Prop :=
  span.start ≤ point ∧ point < span.finish

def Span.Apart (left right : Span Point) : Prop :=
  left.finish ≤ right.start ∨ right.finish ≤ left.start

theorem Span.Apart.symm {left right : Span Point} (apart : left.Apart right) :
    right.Apart left :=
  Or.symm apart

instance : Std.Symm (@Span.Apart Point _) := ⟨fun _ _ => Span.Apart.symm⟩

theorem Span.Apart.not_both_cover {left right : Span Point} (apart : left.Apart right)
    (point : Point) (inLeft : left.Covers point) : ¬ right.Covers point := by
  intro inRight
  rcases apart with before | after
  · exact absurd (inLeft.2.trans_le before) (not_lt.2 inRight.1)
  · exact absurd (inRight.2.trans_le after) (not_lt.2 inLeft.1)

/-- The spans are nonempty and pairwise disjoint, and cover exactly the points from
`low` up to `high`. -/
structure Tiles (low high : Point) (spans : List (Span Point)) : Prop where
  nonempty : ∀ span ∈ spans, span.start < span.finish
  apart : spans.Pairwise Span.Apart
  covers : ∀ point, (low ≤ point ∧ point < high) ↔ ∃ span ∈ spans, span.Covers point

namespace Tiles

variable {low high : Point} {spans : List (Span Point)}

theorem single (ordered : low < high) : Tiles low high [⟨low, high⟩] where
  nonempty := by simpa using ordered
  apart := List.pairwise_singleton _ _
  covers := by simp [Span.Covers]

theorem perm {others : List (Span Point)} (tiles : Tiles low high spans)
    (same : spans.Perm others) : Tiles low high others where
  nonempty span member := tiles.nonempty span (same.mem_iff.2 member)
  apart := (same.pairwise_iff fun apart => Span.Apart.symm apart).1 tiles.apart
  covers point := by simpa only [same.mem_iff] using tiles.covers point

/-- Two spans that meet are one span cut in two. -/
theorem cut_iff {first cut last : Point} :
    Tiles low high (⟨first, cut⟩ :: ⟨cut, last⟩ :: spans) ↔
      first < cut ∧ cut < last ∧ Tiles low high (⟨first, last⟩ :: spans) := by
  have union (point : Point) (left : first < cut) (right : cut < last) :
      (Span.mk first last).Covers point ↔
        (Span.mk first cut).Covers point ∨ (Span.mk cut last).Covers point := by
    simp only [Span.Covers]
    constructor
    · rintro ⟨lower, upper⟩
      rcases lt_or_ge point cut with before | after
      · exact .inl ⟨lower, before⟩
      · exact .inr ⟨after, upper⟩
    · rintro (⟨lower, upper⟩ | ⟨lower, upper⟩)
      · exact ⟨lower, upper.trans right⟩
      · exact ⟨left.le.trans lower, upper⟩
  constructor
  · intro tiles
    have left : first < cut := tiles.nonempty ⟨first, cut⟩ (by simp)
    have right : cut < last := tiles.nonempty ⟨cut, last⟩ (by simp)
    refine ⟨left, right, ?_, ?_, ?_⟩
    · intro span member
      rcases List.mem_cons.1 member with rfl | inRest
      · exact left.trans right
      · exact tiles.nonempty span (by simp [inRest])
    · have apart := tiles.apart
      simp only [List.pairwise_cons, List.mem_cons, forall_eq_or_imp] at apart ⊢
      obtain ⟨⟨-, fromFirst⟩, fromSecond, rest⟩ := apart
      refine ⟨fun span member => ?_, rest⟩
      -- a span between the two halves would be empty
      rcases fromFirst span member with before | before
      · rcases fromSecond span member with after | after
        · exact .inl after
        · exact absurd (tiles.nonempty span (by simp [member]))
            (not_lt.2 (after.trans before))
      · exact .inr before
    · intro point
      rw [tiles.covers point]
      simp only [List.exists_mem_cons_iff, union point left right, or_assoc]
  · rintro ⟨left, right, tiles⟩
    refine ⟨?_, ?_, ?_⟩
    · intro span member
      simp only [List.mem_cons] at member
      rcases member with rfl | rfl | inRest
      · exact left
      · exact right
      · exact tiles.nonempty span (by simp [inRest])
    · have apart := tiles.apart
      simp only [List.pairwise_cons, List.mem_cons, forall_eq_or_imp] at apart ⊢
      obtain ⟨fromWhole, rest⟩ := apart
      refine ⟨⟨.inl le_rfl, fun span member => ?_⟩, fun span member => ?_, rest⟩
      · exact (fromWhole span member).imp right.le.trans id
      · exact (fromWhole span member).imp id fun before => before.trans left.le
    · intro point
      rw [tiles.covers point]
      simp only [List.exists_mem_cons_iff, union point left right, or_assoc]

/-- Two spans of a tiling that cover a common point are the same span. -/
theorem eq_of_covers (tiles : Tiles low high spans) {left right : Span Point} (point : Point)
    (leftMember : left ∈ spans) (rightMember : right ∈ spans)
    (inLeft : left.Covers point) (inRight : right.Covers point) : left = right := by
  by_contra different
  have apart : left.Apart right :=
    tiles.apart.forall leftMember rightMember different
  exact apart.not_both_cover point inLeft inRight

theorem start_covers (tiles : Tiles low high spans) {span : Span Point} (member : span ∈ spans) :
    span.Covers span.start :=
  ⟨le_rfl, tiles.nonempty span member⟩

theorem low_le_start (tiles : Tiles low high spans) {span : Span Point} (member : span ∈ spans) :
    low ≤ span.start :=
  ((tiles.covers _).2 ⟨span, member, tiles.start_covers member⟩).1

theorem start_lt_high (tiles : Tiles low high spans) {span : Span Point} (member : span ∈ spans) :
    span.start < high :=
  ((tiles.covers _).2 ⟨span, member, tiles.start_covers member⟩).2

theorem finish_le_high (tiles : Tiles low high spans) {span : Span Point}
    (member : span ∈ spans) : span.finish ≤ high := by
  by_contra beyond
  have inside : span.Covers high := ⟨(tiles.start_lt_high member).le, not_le.1 beyond⟩
  exact absurd ((tiles.covers high).2 ⟨span, member, inside⟩).2 (lt_irrefl _)

end Tiles

end Fos.Foundation
