import Fos.Foundation.Runs
import Fos.Foundation.Weakest
import Fos.Kernel.Boot

/-! `scarce_memory`: frames are taken until few are free. -/

set_option autoImplicit false

namespace Fos.Kernel

open Foundation

variable {threshold frames : Nat} {state next : KernelState}

def allocateAndForget : KernelM Unit := do
  let _ ← allocateFrame
  return ()

/-- `((100 - threshold) * number_of_frames) / 100`, rounded up. -/
def totalSizeToBeAllocated (memoryScarceThresholdPercentage numberOfFrames : Nat) : Nat :=
  let product := (100 - memoryScarceThresholdPercentage) * numberOfFrames % wordSize
  if product % 100 > 0 then product / 100 + 1 else product / 100

/-- `total - already` on unsigned values. -/
def sizeToBeAllocated (memoryScarceThresholdPercentage : Nat) (state : KernelState) : Nat :=
  let already := (state.numberOfFrames + wordSize - state.freeFrameList.length) % wordSize
  (totalSizeToBeAllocated memoryScarceThresholdPercentage state.numberOfFrames + wordSize - already) % wordSize

/-- `for (i = 0; i <= size_tobe_allocated; i++)`. The comparison is one of unsigned values, and no
run comes near an overflow of `i`: there are not as many frames. -/
def scarceMemory (memoryScarceThresholdPercentage : Nat) : KernelM Unit := do
  let size := sizeToBeAllocated memoryScarceThresholdPercentage (← get)
  loopFrom (fun _ => allocateAndForget) 0 (size + 1)

/-! ### Taking frames -/

theorem allocateFrame_takes {frame : Nat} {rest : List Nat} (free : state.freeFrameList = frame :: rest) :
    wp allocateFrame (fun result next => result = frame ∧ next.freeFrameList = rest ∧
      next.numberOfFrames = state.numberOfFrames) (fun _ _ => False) state := by
  simp only [allocateFrame, wp_bind, wp_get, free, wp_modify, wp_pure]
  exact ⟨trivial, rfl, rfl⟩

theorem allocateFrame_none (free : state.freeFrameList = []) :
    wp allocateFrame (fun _ _ => False) (fun _ _ => True) state := by
  simp only [allocateFrame, wp_bind, wp_get, free]
  exact trivial

/-- As many frames as the list has can be taken from it, and no more. -/
theorem takeFrames_spec (count : Nat) : ∀ index state, count ≤ state.freeFrameList.length →
    wp (loopFrom (fun _ => allocateAndForget) index count) (fun _ next =>
      next.freeFrameList = state.freeFrameList.drop count ∧ next.numberOfFrames = state.numberOfFrames)
      (fun _ _ => False) state := by
  induction count with
  | zero => exact fun _ _ _ => ⟨rfl, rfl⟩
  | succ count ih =>
      intro index state enough
      obtain ⟨frame, rest, free⟩ := List.exists_cons_of_length_pos (Nat.zero_lt_of_lt enough)
      rw [loopFrom, wp_bind, allocateAndForget, wp_bind]
      apply wp_mono_returns (allocateFrame_takes free)
      rintro _ next ⟨-, left, same⟩
      have remaining : count ≤ next.freeFrameList.length := by
        rw [left]
        rw [free] at enough
        exact Nat.le_of_succ_le_succ enough
      apply wp_mono_returns (ih (index + 1) next remaining)
      rintro _ last ⟨dropped, sameAgain⟩
      rw [free, List.drop_succ_cons, ← left]
      exact ⟨dropped, sameAgain.trans same⟩

theorem takeFrames_none (count : Nat) : ∀ index state, state.freeFrameList.length < count →
    wp (loopFrom (fun _ => allocateAndForget) index count) (fun _ _ => False) (fun _ _ => True) state := by
  induction count with
  | zero => exact fun _ _ fewer => absurd fewer (Nat.not_lt_zero _)
  | succ count ih =>
      intro index state fewer
      rw [loopFrom, wp_bind, allocateAndForget, wp_bind]
      cases free : state.freeFrameList with
      | nil => exact wp_mono_fails (allocateFrame_none free) fun _ _ _ => trivial
      | cons frame rest =>
          apply wp_mono_returns (allocateFrame_takes free)
          rintro _ next ⟨-, left, -⟩
          apply ih (index + 1) next
          rw [left]
          rw [free] at fewer
          exact Nat.lt_of_succ_lt_succ fewer

/-! ### How many frames are taken -/

/-- The threshold as a number of frames, rounded down. -/
def thresholdFrames (memoryScarceThresholdPercentage numberOfFrames : Nat) : Nat :=
  memoryScarceThresholdPercentage * numberOfFrames / 100

theorem thresholdFrames_le (percentage : threshold ≤ 100) : thresholdFrames threshold frames ≤ frames := by
  apply Nat.div_le_of_le_mul
  exact Nat.mul_le_mul_right _ percentage

theorem totalSizeToBeAllocated_eq (percentage : threshold ≤ 100) (memory : frames ≤ 0x10000) :
    totalSizeToBeAllocated threshold frames = frames - thresholdFrames threshold frames := by
  have parts : (100 - threshold) * frames + threshold * frames = 100 * frames := by
    rw [← Nat.add_mul, Nat.sub_add_cancel percentage]
  unfold totalSizeToBeAllocated thresholdFrames
  generalize (100 - threshold) * frames = others at parts ⊢
  generalize threshold * frames = product at parts ⊢
  have small : others < wordSize := by
    unfold wordSize
    omega
  rw [Nat.mod_eq_of_lt small]
  dsimp only
  split <;> omega

theorem sizeToBeAllocated_eq (percentage : threshold ≤ 100) (memory : state.numberOfFrames ≤ 0x10000)
    (fits : state.freeFrameList.length ≤ state.numberOfFrames) :
    sizeToBeAllocated threshold state =
      (state.freeFrameList.length + wordSize - thresholdFrames threshold state.numberOfFrames) % wordSize := by
  have few : thresholdFrames threshold state.numberOfFrames ≤ state.numberOfFrames :=
    thresholdFrames_le percentage
  rw [sizeToBeAllocated, totalSizeToBeAllocated_eq percentage memory]
  unfold wordSize
  omega

/-- What a call of `scarce_memory` is there for: with the threshold at two frames or more, it takes
no frame where fewer are free, and otherwise takes frames until just fewer are. -/
def StopsAtThreshold (threshold : Nat) (state : KernelState) : Prop :=
  wp (scarceMemory threshold) (fun _ next => 200 ≤ threshold * state.numberOfFrames →
    if 100 * state.freeFrameList.length < threshold * state.numberOfFrames then
      next.freeFrameList = state.freeFrameList
    else 100 * next.freeFrameList.length < threshold * state.numberOfFrames ∧
      threshold * state.numberOfFrames < 100 * next.freeFrameList.length + 200) (fun _ _ => False) state

instance : Decidable (StopsAtThreshold threshold state) :=
  inferInstanceAs (Decidable (wp (scarceMemory threshold) _ _ state))

theorem scarceMemory_spec (percentage : threshold ≤ 100) (memory : state.numberOfFrames ≤ 0x10000)
    (fits : state.freeFrameList.length ≤ state.numberOfFrames)
    (positive : 0 < thresholdFrames threshold state.numberOfFrames)
    (enough : thresholdFrames threshold state.numberOfFrames ≤ state.freeFrameList.length) :
    wp (scarceMemory threshold) (fun _ next => next.numberOfFrames = state.numberOfFrames ∧
      next.freeFrameList.length + 1 = thresholdFrames threshold state.numberOfFrames) (fun _ _ => False) state := by
  have size := sizeToBeAllocated_eq percentage memory fits
  have exactly : sizeToBeAllocated threshold state + thresholdFrames threshold state.numberOfFrames =
      state.freeFrameList.length := by
    unfold wordSize at size
    omega
  rw [scarceMemory, wp_bind, wp_get]
  apply wp_mono_returns (takeFrames_spec _ 0 state (by omega))
  rintro _ next ⟨dropped, same⟩
  refine ⟨same, ?_⟩
  rw [dropped, List.length_drop]
  omega

theorem scarceMemory_fails (percentage : threshold ≤ 100) (memory : state.numberOfFrames ≤ 0x10000)
    (fits : state.freeFrameList.length ≤ state.numberOfFrames)
    (tooFew : thresholdFrames threshold state.numberOfFrames = 0 ∨
      state.freeFrameList.length < thresholdFrames threshold state.numberOfFrames) :
    wp (scarceMemory threshold) (fun _ _ => False) (fun _ _ => True) state := by
  have size := sizeToBeAllocated_eq percentage memory fits
  have few : thresholdFrames threshold state.numberOfFrames ≤ state.numberOfFrames :=
    thresholdFrames_le percentage
  rw [scarceMemory, wp_bind, wp_get]
  apply takeFrames_none
  unfold wordSize at size
  omega

/-! ### In any sequence of calls -/

/-- The calls of programs: `scarce_memory`, and anything else, which leaves the memory in a state of
its own. The machine has the frames it has, and no more of them are free. -/
inductive ScarceCall where
  | scarceMemory
  | other (next : KernelState)

/-- A machine with some number of frames, of which any may be free, and the calls programs make. A panic
ends in the scheduler or at the prompt, with memory as it is. -/
def scarceSystem (memoryScarceThresholdPercentage numberOfFrames : Nat) : System KernelState ScarceCall where
  start state := state.numberOfFrames = numberOfFrames ∧ state.freeFrameList.length ≤ numberOfFrames
  exec state
    | .scarceMemory => some (ended (scarceMemory memoryScarceThresholdPercentage state))
    | .other next =>
        if next.numberOfFrames = state.numberOfFrames ∧ next.freeFrameList.length ≤ next.numberOfFrames then some next
        else none

theorem takeFrames_fits (count : Nat) : ∀ index state, state.numberOfFrames = frames →
    state.freeFrameList.length ≤ frames → wp (loopFrom (fun _ => allocateAndForget) index count)
      (fun _ next => next.numberOfFrames = frames ∧ next.freeFrameList.length ≤ frames)
      (fun _ next => next.numberOfFrames = frames ∧ next.freeFrameList.length ≤ frames) state := by
  induction count with
  | zero => exact fun _ _ same fits => ⟨same, fits⟩
  | succ count ih =>
      intro index state same fits
      rw [loopFrom, wp_bind, allocateAndForget, wp_bind]
      cases free : state.freeFrameList with
      | nil =>
          simp only [allocateFrame, wp_bind, wp_get, free]
          exact ⟨same, fits⟩
      | cons frame rest =>
          apply wp_mono_returns (allocateFrame_takes free)
          rintro _ next ⟨-, left, sameAgain⟩
          apply ih (index + 1) next (sameAgain.trans same)
          rw [left]
          rw [free] at fits
          exact Nat.le_of_succ_le fits

theorem scarceMemory_fits (same : state.numberOfFrames = frames) (fits : state.freeFrameList.length ≤ frames) :
    wp (scarceMemory threshold) (fun _ next => next.numberOfFrames = frames ∧ next.freeFrameList.length ≤ frames)
      (fun _ next => next.numberOfFrames = frames ∧ next.freeFrameList.length ≤ frames) state := by
  rw [scarceMemory, wp_bind, wp_get]
  exact takeFrames_fits _ 0 state same fits

theorem frames_of_reaches (reached : (scarceSystem threshold frames).Reaches (fun _ _ => True) state) :
    state.numberOfFrames = frames ∧ state.freeFrameList.length ≤ frames := by
  apply reached.invariant fun state => state.numberOfFrames = frames ∧ state.freeFrameList.length ≤ frames
  · exact fun _ initial => initial
  · rintro state event next ⟨same, fits⟩ - executes
    cases event with
    | scarceMemory =>
        rw [← Option.some.inj executes]
        exact ended_of_wp _ (scarceMemory_fits same fits)
    | other after =>
        simp only [scarceSystem, Option.ite_none_right_eq_some, Option.some.injEq] at executes
        obtain ⟨⟨unchanged, few⟩, rfl⟩ := executes
        have total := unchanged.trans same
        exact ⟨total, total ▸ few⟩

/-- In any sequence of calls, `scarce_memory` does what it is there for exactly if the threshold is
at least one frame and that many are free (one, where it is less than two). -/
theorem stopsAtThreshold_iff (percentage : threshold ≤ 100) (memory : frames ≤ 0x10000)
    (reached : (scarceSystem threshold frames).Reaches (fun _ _ => True) state) :
    StopsAtThreshold threshold state ↔ 100 ≤ threshold * frames ∧
      if threshold * frames < 200 then 0 < state.freeFrameList.length
      else threshold * frames ≤ 100 * state.freeFrameList.length := by
  obtain ⟨rfl, fits⟩ := frames_of_reaches reached
  have rounded : thresholdFrames threshold state.numberOfFrames = threshold * state.numberOfFrames / 100 := rfl
  constructor
  · intro stops
    have positive : thresholdFrames threshold state.numberOfFrames ≠ 0 := fun zero =>
      not_wp_of_fails (scarceMemory_fails percentage memory fits (.inl zero)) stops
    have enough : ¬ state.freeFrameList.length < thresholdFrames threshold state.numberOfFrames := fun fewer =>
      not_wp_of_fails (scarceMemory_fails percentage memory fits (.inr fewer)) stops
    have after := scarceMemory_spec percentage memory fits (Nat.pos_of_ne_zero positive) (Nat.le_of_not_lt enough)
    obtain ⟨_, next, stopped, -, left⟩ := exists_of_wp stops after
    refine ⟨by omega, ?_⟩
    split
    · omega
    · next two =>
        have result := stopped (Nat.le_of_not_lt two)
        split at result
        · rw [result] at left
          omega
        · omega
  · rintro ⟨one, condition⟩
    have positive : 0 < thresholdFrames threshold state.numberOfFrames := by omega
    have enough : thresholdFrames threshold state.numberOfFrames ≤ state.freeFrameList.length := by
      split at condition <;> omega
    apply wp_mono_returns (scarceMemory_spec percentage memory fits positive enough)
    rintro _ next ⟨-, left⟩ two
    rw [if_neg (Nat.not_lt.2 two)] at condition
    rw [if_neg (Nat.not_lt.2 condition)]
    omega

/-- A small machine after it has booted, with 1024 frames. -/
private def bootedSmall : KernelState := BootLayout.small.boot (fun _ => Page.zero) fun _ => Page.zero

private theorem bootedSmall_reached : (scarceSystem 10 1024).Reaches (fun _ _ => True) bootedSmall :=
  .start ⟨rfl, by decide +kernel⟩

theorem stopsAtThreshold_iff_booted : StopsAtThreshold 10 bootedSmall ↔ 100 ≤ 10 * 1024 ∧
    if 10 * 1024 < 200 then 0 < bootedSmall.freeFrameList.length else 10 * 1024 ≤ 100 * bootedSmall.freeFrameList.length :=
  stopsAtThreshold_iff (by decide) (by decide) bootedSmall_reached

/-- After a first call, which leaves 101 frames, a second one takes all frames
there are and panics. -/
theorem not_stopsAtThreshold_again : ∃ state, (scarceSystem 10 1024).Reaches (fun _ _ => True) state ∧
    ¬ StopsAtThreshold 10 state :=
  ⟨ended (scarceMemory 10 bootedSmall), .step .scarceMemory bootedSmall_reached trivial rfl, by decide +kernel⟩

end Fos.Kernel
