import Mathlib.Logic.Function.Basic

/-! Bytes in memory, and strings that end with a NUL. -/

set_option autoImplicit false

namespace Fos.Library

/-- Memory from some place on. -/
abbrev Bytes := Nat → BitVec 8

variable {memory next : Bytes} {start index : Nat} {chars others : List (BitVec 8)} {char : BitVec 8}

/-- The bytes at an address and behind it. -/
def Stored (memory : Bytes) : Nat → List (BitVec 8) → Prop
  | _, [] => True
  | start, char :: chars => memory start = char ∧ Stored memory (start + 1) chars

namespace Stored

theorem append_iff : Stored memory start (chars ++ others) ↔
    Stored memory start chars ∧ Stored memory (start + chars.length) others := by
  induction chars generalizing start with
  | nil => simp only [List.nil_append, Stored, true_and, List.length_nil, Nat.add_zero]
  | cons char chars ih =>
      simp only [List.cons_append, Stored, ih, and_assoc, List.length_cons, Nat.add_assoc, Nat.add_comm 1]

theorem frame (stored : Stored memory start chars)
    (same : ∀ index, start ≤ index → index < start + chars.length → next index = memory index) :
    Stored next start chars := by
  induction chars generalizing start with
  | nil => trivial
  | cons char chars ih =>
      rw [List.length_cons] at same
      refine ⟨(same start (Nat.le_refl _) (by omega)).trans stored.1, ih stored.2 fun index lower upper => ?_⟩
      exact same index (Nat.le_of_succ_le lower) (by omega)

theorem get (stored : Stored memory start chars) (bound : index < chars.length) : memory (start + index) = chars[index] := by
  induction chars generalizing start index with
  | nil => exact absurd bound (Nat.not_lt_zero _)
  | cons char chars ih =>
      cases index with
      | zero => exact stored.1
      | succ index =>
          have shifted : start + (index + 1) = start + 1 + index := by omega
          exact (congrArg memory shifted).trans (ih stored.2 (Nat.lt_of_succ_lt_succ bound))

theorem of_get (each : ∀ index, (bound : index < chars.length) → memory (start + index) = chars[index]) :
    Stored memory start chars := by
  induction chars generalizing start with
  | nil => trivial
  | cons char chars ih =>
      refine ⟨each 0 (Nat.zero_lt_succ _), ih fun index bound => ?_⟩
      have shifted : start + 1 + index = start + (index + 1) := by omega
      exact (congrArg memory shifted).trans (each (index + 1) (Nat.succ_lt_succ bound))

end Stored

/-- A NUL-terminated string. -/
structure Terminated (memory : Bytes) (start : Nat) (chars : List (BitVec 8)) : Prop where
  stored : Stored memory start chars
  ends : memory (start + chars.length) = 0
  nonzero : ∀ char ∈ chars, char ≠ 0

namespace Terminated

theorem tail (terminated : Terminated memory start (char :: chars)) : Terminated memory (start + 1) chars where
  stored := terminated.stored.2
  ends := by
    rw [Nat.add_assoc, Nat.add_comm 1]
    exact terminated.ends
  nonzero other member := terminated.nonzero other (List.mem_cons_of_mem _ member)

theorem behind (terminated : Terminated memory start (others ++ chars)) : Terminated memory (start + others.length) chars where
  stored := (Stored.append_iff.1 terminated.stored).2
  ends := by
    rw [Nat.add_assoc, ← List.length_append]
    exact terminated.ends
  nonzero char member := terminated.nonzero char (List.mem_append_right _ member)

theorem frame (terminated : Terminated memory start chars)
    (same : ∀ index, start ≤ index → index ≤ start + chars.length → next index = memory index) :
    Terminated next start chars where
  stored := terminated.stored.frame fun index lower upper => same index lower (Nat.le_of_lt upper)
  ends := (same _ (Nat.le_add_right ..) (Nat.le_refl _)).trans terminated.ends
  nonzero := terminated.nonzero

/-- There is one string at an address. -/
theorem unique (terminated : Terminated memory start chars) (other : Terminated memory start others) :
    chars = others := by
  induction chars generalizing start others with
  | nil =>
      cases others with
      | nil => rfl
      | cons char rest => exact absurd (other.stored.1.symm.trans terminated.ends) (other.nonzero char (List.mem_cons_self ..))
  | cons char chars ih =>
      cases others with
      | nil => exact absurd (terminated.stored.1.symm.trans other.ends) (terminated.nonzero char (List.mem_cons_self ..))
      | cons first rest =>
          have same : char = first := terminated.stored.1.symm.trans other.stored.1
          rw [same, ih terminated.tail other.tail]

end Terminated

end Fos.Library
