import Fos.Foundation.Weakest
import Mathlib.Data.List.Range

/-! The rule for counted loops. -/

set_option autoImplicit false

namespace Fos.Foundation

variable {Failure State : Type} {fail : Failure → State → Prop} {state : State} {count : Nat}
  {body : Nat → EStateM Failure State Unit}

/-- What holds before the loop, and after a step if it holds before it, holds after the loop. -/
theorem wp_forM_range (invariant : Nat → State → Prop) (initial : invariant 0 state)
    (step : ∀ index < count, ∀ state, invariant index state →
      wp (body index) (fun _ next => invariant (index + 1) next) fail state) :
    wp ((List.range count).forM body) (fun _ next => invariant count next) fail state := by
  have loop : ∀ (rest done : Nat) (state : State), done + rest = count → invariant done state →
      wp ((List.range' done rest).forM body) (fun _ next => invariant count next) fail state := by
    intro rest
    induction rest with
    | zero =>
        intro done state whole holds
        rw [Nat.add_zero] at whole
        exact whole ▸ holds
    | succ rest ih =>
        intro done state whole holds
        rw [List.range'_succ, List.forM_eq_forM, List.forM_cons, wp_bind]
        apply wp_mono (step done (by omega) state holds)
        · exact fun _ next holds => ih (done + 1) next (by omega) holds
        · exact fun _ _ failed => failed
  rw [List.range_eq_range']
  exact loop count 0 state (Nat.zero_add _) initial

end Fos.Foundation
