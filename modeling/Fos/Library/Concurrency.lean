import Fos.Layout
import Mathlib.Order.Monotone.Basic

/-! `env_sleep` of `lib/concurrency.c`: an environment waits until the clock has gone on for some time. -/

set_option autoImplicit false

namespace Fos.Library

structure Uint64 where
  low : BitVec 32
  hi : BitVec 32

namespace Uint64

def value (time : Uint64) : Nat := time.hi.toNat * wordSize + time.low.toNat

/-- The difference of two clock values, as `env_sleep` computes it. -/
def subtract (current base : Uint64) : Uint64 :=
  let low := current.low - base.low
  let borrow : BitVec 32 := if low > current.low then 1 else 0
  ⟨low, current.hi - base.hi - borrow⟩

theorem value_subtract {current base : Uint64} (order : base.value ≤ current.value) :
    (current.subtract base).value = current.value - base.value := by
  have currentLow := current.low.isLt
  have currentHi := current.hi.isLt
  have baseLow := base.low.isLt
  have baseHi := base.hi.isLt
  simp only [value, wordSize, subtract] at order ⊢
  split <;> rename_i borrows <;>
    simp only [gt_iff_lt, BitVec.lt_def, BitVec.toNat_sub, BitVec.toNat_ofNat, BitVec.ofNat_eq_ofNat] at borrows ⊢ <;>
    omega

theorem low_subtract {current base : Uint64} (order : base.value ≤ current.value) :
    (current.subtract base).low.toNat = (current.value - base.value) % wordSize := by
  have bounded := (current.subtract base).low.isLt
  have difference := value_subtract order
  unfold value at difference
  rw [value, value, ← difference, Nat.mul_add_mod_self_right]
  exact (Nat.mod_eq_of_lt bounded).symm

end Uint64

abbrev cyclesPerMillisec : Nat := 10000

/-- `while (cycles_counter < time_in_cycles)`, from the number of the last reading. -/
def sleepLoop (clock : Nat → Uint64) (timeInCycles : BitVec 32) : Nat → Nat → BitVec 32 → Option Nat
  | 0, _, _ => none
  | fuel + 1, reading, cyclesCounter =>
      if cyclesCounter < timeInCycles then
        let res := (clock (reading + 1)).subtract (clock 0)
        sleepLoop clock timeInCycles fuel (reading + 1) res.low
      else some reading

/-- The number of the reading of the clock after which `env_sleep` returns. -/
def envSleep (approxMilliSeconds : BitVec 32) (clock : Nat → Uint64) (fuel : Nat) : Option Nat :=
  let timeInCycles := approxMilliSeconds * BitVec.ofNat 32 cyclesPerMillisec
  sleepLoop clock timeInCycles fuel 0 0

variable {clock : Nat → Uint64} {timeInCycles : BitVec 32}

theorem sleepLoop_eq_some {last : Nat} (fuel : Nat) : ∀ reading,
    sleepLoop clock timeInCycles fuel reading ((clock reading).subtract (clock 0)).low = some last →
    timeInCycles ≤ ((clock last).subtract (clock 0)).low := by
  induction fuel with
  | zero => exact fun _ returned => nomatch returned
  | succ fuel ih =>
      intro reading returned
      rw [sleepLoop] at returned
      split at returned
      · exact ih (reading + 1) returned
      · next enough =>
          cases returned
          exact BitVec.not_lt.1 enough

/-- The loop ends at the latest with a reading whose low half is far enough from the first one. -/
theorem sleepLoop_isSome {last : Nat} (far : timeInCycles ≤ ((clock last).subtract (clock 0)).low) (fuel : Nat) :
    ∀ reading, reading ≤ last → last < reading + fuel →
    (sleepLoop clock timeInCycles fuel reading ((clock reading).subtract (clock 0)).low).isSome := by
  induction fuel with
  | zero => exact fun reading order bound => absurd bound (Nat.not_lt.2 order)
  | succ fuel ih =>
      intro reading order bound
      rw [sleepLoop]
      split
      · next early =>
          have different : reading ≠ last := by
            rintro rfl
            exact BitVec.not_lt.2 far early
          exact ih (reading + 1) (Nat.lt_of_le_of_ne order different) (by omega)
      · rfl

theorem subtract_self (time : Uint64) : (time.subtract time).low = 0 := BitVec.sub_self _

/-- When `env_sleep` returns, the time asked for has gone by, by any clock that never goes back. -/
def SleepsEnough (approxMilliSeconds : BitVec 32) : Prop :=
  ∀ clock : Nat → Uint64, Monotone (fun reading => (clock reading).value) → ∀ fuel reading,
    envSleep approxMilliSeconds clock fuel = some reading →
    (clock 0).value + approxMilliSeconds.toNat * cyclesPerMillisec ≤ (clock reading).value

/-- A clock that stands still at some value after the first reading. -/
def jumpTo (low : BitVec 32) : Nat → Uint64
  | 0 => ⟨0, 0⟩
  | _ + 1 => ⟨low, 0⟩

theorem value_jumpTo_zero (low : BitVec 32) : (jumpTo low 0).value = 0 := by
  simp [jumpTo, Uint64.value]

theorem value_jumpTo_succ (low : BitVec 32) (reading : Nat) : (jumpTo low (reading + 1)).value = low.toNat := by
  simp [jumpTo, Uint64.value]

theorem value_jumpTo_le (low : BitVec 32) (reading : Nat) : (jumpTo low reading).value ≤ low.toNat := by
  cases reading with
  | zero =>
      rw [value_jumpTo_zero]
      exact Nat.zero_le _
  | succ reading => exact (value_jumpTo_succ low reading).le

theorem jumpTo_monotone (low : BitVec 32) : Monotone fun reading => (jumpTo low reading).value := by
  apply monotone_nat_of_le_succ
  intro reading
  rw [value_jumpTo_succ]
  exact value_jumpTo_le low reading

/-- A time is slept out exactly if its cycles can be counted in 32 bits. -/
theorem sleepsEnough_iff (approxMilliSeconds : BitVec 32) :
    SleepsEnough approxMilliSeconds ↔ approxMilliSeconds.toNat * cyclesPerMillisec < wordSize := by
  constructor
  · intro enough
    let timeInCycles := approxMilliSeconds * BitVec.ofNat 32 cyclesPerMillisec
    have far : timeInCycles ≤ ((jumpTo timeInCycles 1).subtract (jumpTo timeInCycles 0)).low := by
      have low : ((jumpTo timeInCycles 1).subtract (jumpTo timeInCycles 0)).low = timeInCycles :=
        BitVec.sub_zero timeInCycles
      rw [low]
      exact BitVec.le_refl _
    have returns := sleepLoop_isSome far 2 0 (Nat.zero_le 1) (by decide)
    rw [subtract_self] at returns
    obtain ⟨reading, returned⟩ := Option.isSome_iff_exists.1 returns
    have slept := enough _ (jumpTo_monotone timeInCycles) 2 reading returned
    rw [value_jumpTo_zero, Nat.zero_add] at slept
    exact (slept.trans (value_jumpTo_le timeInCycles reading)).trans_lt timeInCycles.isLt
  · intro counted clock monotone fuel reading returned
    have order := monotone (Nat.zero_le reading)
    rw [envSleep, ← subtract_self (clock 0)] at returned
    have far := sleepLoop_eq_some fuel 0 returned
    rw [BitVec.le_def, Uint64.low_subtract order, BitVec.toNat_mul, BitVec.toNat_ofNat] at far
    unfold wordSize at counted
    have inRange : approxMilliSeconds.toNat * (cyclesPerMillisec % 2 ^ 32) % 2 ^ 32 =
        approxMilliSeconds.toNat * cyclesPerMillisec := by
      rw [Nat.mod_eq_of_lt (a := cyclesPerMillisec) (by decide)]
      exact Nat.mod_eq_of_lt counted
    rw [inRange] at far
    have difference := far.trans (Nat.mod_le ..)
    exact Nat.add_le_of_le_sub' order difference

/-- 429497 milliseconds are 2704 cycles more than can be counted. -/
theorem not_sleepsEnough : ¬ SleepsEnough 429497 := by
  intro enough
  have slept := enough _ (jumpTo_monotone 2704) 2 1 (by decide)
  exact absurd slept (by decide)

end Fos.Library
