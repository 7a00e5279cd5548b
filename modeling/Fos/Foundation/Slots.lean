import Mathlib.Data.List.Perm.Basic

/-! Lists used as arrays whose order carries no meaning: what is in the other slots
is the same before and after an update. -/

set_option autoImplicit false

namespace Fos.Foundation

variable {Value : Type}

/-- Updating one slot exchanges its value beside the same rest. -/
theorem exists_rest_set (values : List Value) (index : Nat) (bound : index < values.length) :
    ∃ rest, values.Perm (values[index] :: rest) ∧
      ∀ value, (values.set index value).Perm (value :: rest) :=
  ⟨values.eraseIdx index, (List.getElem_cons_eraseIdx_perm bound).symm,
    fun value => List.set_perm_cons_eraseIdx bound value⟩

/-- Updating two different slots exchanges their values beside the same rest. -/
theorem exists_rest_set_set (values : List Value) (first second : Nat)
    (firstBound : first < values.length) (secondBound : second < values.length)
    (different : first ≠ second) :
    ∃ rest, values.Perm (values[first] :: values[second] :: rest) ∧
      ∀ value other, ((values.set first value).set second other).Perm
        (value :: other :: rest) := by
  induction values generalizing first second with
  | nil => simp at firstBound
  | cons head tail ih =>
      cases first with
      | zero =>
          cases second with
          | zero => exact absurd rfl different
          | succ second =>
              obtain ⟨rest, before, after⟩ :=
                exists_rest_set tail second (by simpa using secondBound)
              exact ⟨rest, before.cons head, fun value other => (after other).cons value⟩
      | succ first =>
          cases second with
          | zero =>
              obtain ⟨rest, before, after⟩ :=
                exists_rest_set tail first (by simpa using firstBound)
              exact ⟨rest, (before.cons head).trans (.swap _ _ _),
                fun value other => ((after value).cons other).trans (.swap _ _ _)⟩
          | succ second =>
              obtain ⟨rest, before, after⟩ := ih first second
                (by simpa using firstBound) (by simpa using secondBound) (by simpa using different)
              refine ⟨head :: rest, ?_, fun value other => ?_⟩
              · exact (before.cons head).trans
                  ((List.Perm.swap _ _ _).trans ((List.Perm.swap _ _ _).cons _))
              · exact ((after value other).cons head).trans
                  ((List.Perm.swap _ _ _).trans ((List.Perm.swap _ _ _).cons _))

end Fos.Foundation
