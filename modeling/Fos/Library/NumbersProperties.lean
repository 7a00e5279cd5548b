import Fos.Library.Numbers
import Mathlib.Data.Nat.Digits.Lemmas

/-! Numbers as text: what `ltostr` writes, and when `strtol` reads the number back. -/

set_option autoImplicit false

namespace Fos.Library

variable {str next : Bytes} {first last index n : Nat} {chars : List (BitVec 8)}

/-- The character of a decimal digit. -/
def digitChar (digit : Nat) : BitVec 8 := BitVec.ofNat 8 (digit + 48)

/-! ### The digits `ltostr` writes -/

/-- The digits the loop writes, the last one first: it ends at a digit 0. -/
def written : Nat → Nat → List Nat
  | 0, _ => []
  | rounds + 1, n => n % 10 :: if n / 10 % 10 = 0 then [] else written rounds (n / 10)

theorem ltostrLoop_spec (rounds : Nat) : ∀ (n s : Nat) (str : Bytes), 0 < rounds → n < 10 ^ rounds →
    ∃ next, ltostrLoop rounds n s str = some (s + (written rounds n).length, next) ∧
      Stored next s ((written rounds n).map digitChar) ∧ ∀ index, index < s → next index = str index := by
  induction rounds with
  | zero => exact fun _ _ _ positive _ => absurd positive (Nat.lt_irrefl 0)
  | succ rounds ih =>
      intro n s str _ bound
      let first := Function.update str s (digitChar (n % 10))
      have step : ltostrLoop (rounds + 1) n s str =
          if n / 10 % 10 ≠ 0 then ltostrLoop rounds (n / 10 : Nat) (s + 1) first else some (s + 1, first) := by
        have more : ((n / 10 : Nat) : Int).tmod 10 ≠ 0 ↔ n / 10 % 10 ≠ 0 := by
          rw [← Int.natCast_ne_zero]
          rfl
        exact if_congr more rfl rfl
      have before (index : Nat) (earlier : index < s) : first index = str index :=
        Function.update_of_ne (Nat.ne_of_lt earlier) ..
      rw [step, written]
      cases Nat.decEq (n / 10 % 10) 0 with
      | isTrue ends =>
          rw [if_neg (not_not_intro ends), if_pos ends]
          exact ⟨first, rfl, ⟨Function.update_self .., trivial⟩, before⟩
      | isFalse goes =>
          rw [if_pos goes, if_neg goes]
          have smaller : n / 10 < 10 ^ rounds := Nat.div_lt_of_lt_mul (Nat.pow_succ' ▸ bound)
          have positive : 0 < rounds := by
            apply Nat.pos_of_ne_zero
            rintro rfl
            have zero : n / 10 = 0 := Nat.lt_one_iff.1 smaller
            exact goes (by rw [zero])
          obtain ⟨next, returned, stored, same⟩ := ih (n / 10) (s + 1) first positive smaller
          refine ⟨next, ?_, ⟨?_, stored⟩, ?_⟩
          · rw [returned, List.length_cons, Nat.add_assoc, Nat.add_comm 1]
          · rw [same s (Nat.lt_succ_self s)]
            exact Function.update_self ..
          · intro index earlier
            rw [same index (Nat.lt_succ_of_lt earlier), before index earlier]

/-! ### The reversal -/

theorem reverseLoop_apply (rounds : Nat) : ∀ first last str, last ≤ first + 2 * rounds → ∀ index,
    reverseLoop rounds first last str index =
      if first ≤ index ∧ index ≤ last then str (first + last - index) else str index := by
  induction rounds with
  | zero =>
      intro first last str near index
      rw [reverseLoop]
      split
      · next within =>
          have middle : first + last - index = index := by omega
          rw [middle]
      · rfl
  | succ rounds ih =>
      intro first last str near index
      rw [reverseLoop]
      split
      · rw [ih (first + 1) (last - 1) _ (by omega)]
        have sum : first + 1 + (last - 1) = first + last := by omega
        rw [sum]
        rcases Nat.lt_trichotomy index first with before | rfl | behind
        · rw [if_neg (by omega), if_neg (by omega), Function.update_of_ne (by omega), Function.update_of_ne (by omega)]
        · rw [if_neg (by omega), if_pos (by omega), Function.update_of_ne (by omega), Function.update_self,
            Nat.add_sub_cancel_left]
        · rcases Nat.lt_trichotomy index last with inside | rfl | beyond
          · rw [if_pos (by omega), if_pos (by omega), Function.update_of_ne (by omega), Function.update_of_ne (by omega)]
          · rw [if_neg (by omega), if_pos (by omega), Function.update_self, Nat.add_sub_cancel]
          · rw [if_neg (by omega), if_neg (by omega), Function.update_of_ne (by omega), Function.update_of_ne (by omega)]
      · split
        · have middle : first + last - index = index := by omega
          rw [middle]
        · rfl

theorem Stored.reverseLoop {rounds : Nat} (stored : Stored str first chars) (positive : 0 < chars.length)
    (enough : chars.length ≤ rounds) :
    Stored (reverseLoop rounds first (first + chars.length - 1) str) first chars.reverse := by
  apply Stored.of_get
  intro index bound
  rw [List.length_reverse] at bound
  rw [reverseLoop_apply _ _ _ _ (by omega), if_pos (by omega), List.getElem_reverse]
  have mirrored : first + (first + chars.length - 1) - (first + index) = first + (chars.length - 1 - index) := by omega
  rw [mirrored]
  exact stored.get (by omega)

/-! ### The text of a number -/

theorem written_digits (rounds : Nat) : ∀ n, ∀ digit ∈ written rounds n, digit < 10 := by
  induction rounds with
  | zero => exact fun n digit member => nomatch member
  | succ rounds ih =>
      intro n digit member
      rw [written] at member
      cases List.mem_cons.1 member with
      | inl last => exact last ▸ Nat.mod_lt _ (by decide)
      | inr rest =>
          split at rest
          · cases rest
          · exact ih _ digit rest

theorem digitChar_toNat {digit : Nat} (small : digit < 10) : (digitChar digit).toNat = digit + 48 := by
  rw [digitChar, BitVec.toNat_ofNat]
  exact Nat.mod_eq_of_lt (by omega)

theorem digitChar_nonzero {digit : Nat} (small : digit < 10) : digitChar digit ≠ 0 := by
  intro zero
  have code := digitChar_toNat small
  rw [zero] at code
  exact absurd code (by simp)

/-- The sign of a number. -/
def sign (value : Int) : List (BitVec 8) := if value < 0 then [45] else []

/-- A number in the range of a `long` whose negative is in it, too. -/
structure Negatable (value : Int) : Prop where
  lower : -0x80000000 < value
  upper : value < 0x80000000

theorem long_eq {value : Int} (lower : -0x80000000 ≤ value) (upper : value < 0x80000000) : long value = value := by
  unfold long toInt32 toUInt32 wordSize
  cases Int.lt_or_le value 0 with
  | inl negative => rw [if_neg (by omega)]; omega
  | inr natural => rw [if_pos (by omega)]; omega

theorem written_length_pos (n : Nat) : 0 < (written 10 n).length := Nat.zero_lt_succ _

theorem ltostr_eq {value : Int} (negatable : Negatable value) (str : Bytes) :
    ltostr value str = (ltostrLoop 10 value.natAbs (sign value).length
      (if value < 0 then Function.update str 0 45 else str)).bind fun result =>
        some (Function.update (reverseLoop result.1 (sign value).length (result.1 - 1) result.2) result.1 0) := by
  have magnitude : (if value < 0 then long (value * -1) else value) = value.natAbs := by
    have lower := negatable.lower
    have upper := negatable.upper
    split
    · rw [long_eq] <;> omega
    · omega
  have length : (if value < 0 then 1 else 0) = (sign value).length := by
    unfold sign
    split <;> rfl
  unfold ltostr
  simp only [magnitude, length]
  rfl

theorem stored_sign (value : Int) (str : Bytes) :
    Stored (if value < 0 then Function.update str 0 45 else str) 0 (sign value) := by
  unfold sign
  split
  · exact ⟨Function.update_self .., trivial⟩
  · trivial

theorem sign_nonzero {value : Int} {char : BitVec 8} (member : char ∈ sign value) : char ≠ 0 := by
  unfold sign at member
  split at member
  · rw [List.mem_singleton.1 member]
    decide
  · cases member

/-- The sign, the digits and the NUL. -/
theorem ltostr_spec {value : Int} (negatable : Negatable value) (str : Bytes) :
    ∃ next, ltostr value str = some next ∧
      Terminated next 0 (sign value ++ ((written 10 value.natAbs).map digitChar).reverse) := by
  have small : value.natAbs < 10 ^ 10 := by
    have lower := negatable.lower
    have upper := negatable.upper
    omega
  obtain ⟨filled, returned, digits, before⟩ := ltostrLoop_spec 10 value.natAbs (sign value).length
    (if value < 0 then Function.update str 0 45 else str) (by decide) small
  have positive := written_length_pos value.natAbs
  have smallDigits := written_digits 10 value.natAbs
  have signed := stored_sign value str
  rw [ltostr_eq negatable, returned]
  generalize written 10 value.natAbs = all at *
  generalize (if value < 0 then Function.update str 0 45 else str) = marked at *
  have length : (all.map digitChar).length = all.length := List.length_map ..
  have turned := digits.reverseLoop (length ▸ positive) (Nat.le_add_left _ (sign value).length)
  rw [length] at turned
  refine ⟨_, rfl, ⟨Stored.append_iff.2 ⟨?_, ?_⟩, ?_, ?_⟩⟩
  · apply signed.frame
    intro index _ inSign
    rw [Nat.zero_add] at inSign
    rw [Function.update_of_ne (by omega), reverseLoop_apply _ _ _ _ (by omega), if_neg (by omega)]
    exact before index inSign
  · rw [Nat.zero_add]
    apply turned.frame
    intro index _ inDigits
    rw [List.length_reverse, length] at inDigits
    exact Function.update_of_ne (Nat.ne_of_lt inDigits) ..
  · rw [List.length_append, List.length_reverse, length, Nat.zero_add]
    exact Function.update_self ..
  · intro char member
    cases List.mem_append.1 member with
    | inl inSign => exact sign_nonzero inSign
    | inr inDigits =>
        obtain ⟨digit, inAll, rfl⟩ := List.mem_map.1 (List.mem_reverse.1 inDigits)
        exact digitChar_nonzero (smallDigits digit inAll)

/-! ### Reading a number -/

theorem digit_digitChar {digit : Nat} (small : digit < 10) : Library.digit (digitChar digit) = some digit := by
  unfold Library.digit
  rw [digitChar_toNat small]
  dsimp only
  rw [if_pos (by omega), Nat.add_sub_cancel]

/-- The number some digits make, behind a number already read. -/
def numberFrom (value : Nat) (digits : List Nat) : Nat := digits.foldl (fun value digit => value * 10 + digit) value

theorem le_numberFrom (digits : List Nat) : ∀ value, value ≤ numberFrom value digits := by
  induction digits with
  | nil => exact fun value => Nat.le_refl value
  | cons digit digits ih =>
      intro value
      have further := ih (value * 10 + digit)
      change value ≤ numberFrom (value * 10 + digit) digits
      omega

theorem numberFrom_digits (n : Nat) : numberFrom 0 (Nat.digits 10 n).reverse = n := by
  have folded := Nat.ofDigits_digits 10 n
  rw [Nat.ofDigits_eq_foldr] at folded
  rw [numberFrom, List.foldl_reverse]
  refine Eq.trans ?_ folded
  congr 1
  funext digit value
  rw [Nat.mul_comm, Nat.add_comm]
  rfl

/-- The digits are read as long as the number stays in range. -/
theorem digitsLoop_eq (digits : List Nat) : ∀ value : Nat, (∀ digit ∈ digits, digit < 10) →
    numberFrom value digits < 0x80000000 →
    digitsLoop 10 (digits.map digitChar) value = ((numberFrom value digits : Int), []) := by
  induction digits with
  | nil => exact fun _ _ _ => rfl
  | cons digit digits ih =>
      intro value small bound
      have first := small digit (List.mem_cons_self ..)
      have inRange := (le_numberFrom digits (value * 10 + digit)).trans_lt bound
      rw [List.map_cons, digitsLoop, digit_digitChar first]
      dsimp only
      rw [if_neg (by omega), long_eq (by omega) (by omega)]
      exact ih (value * 10 + digit) (fun other member => small other (List.mem_cons_of_mem _ member)) bound

theorem strtol_ten {s : List (BitVec 8)} (start : skipWhitespace s = s) (plus : current s ≠ 43) :
    strtol s 10 = if current s = 45 then
      (long (-(digitsLoop 10 (s.drop 1) 0).1), (digitsLoop 10 (s.drop 1) 0).2) else digitsLoop 10 s 0 := by
  unfold strtol
  rw [start]
  simp only [if_neg plus]
  split <;> rfl

/-- What `strtol` makes of a sign and digits. -/
theorem strtol_digits (value : Int) {digit : Nat} {digits : List Nat} (small : ∀ other ∈ digit :: digits, other < 10)
    (bound : numberFrom 0 (digit :: digits) < 0x80000000) :
    strtol (sign value ++ (digit :: digits).map digitChar) 10 =
      (if value < 0 then long (-(numberFrom 0 (digit :: digits) : Int)) else numberFrom 0 (digit :: digits), []) := by
  have loop : digitsLoop 10 ((digit :: digits).map digitChar) 0 = ((numberFrom 0 (digit :: digits) : Int), []) :=
    digitsLoop_eq (digit :: digits) 0 small bound
  unfold sign
  split
  · have start : skipWhitespace ([45] ++ (digit :: digits).map digitChar) = [45] ++ (digit :: digits).map digitChar := rfl
    have minus : current ([45] ++ (digit :: digits).map digitChar) = 45 := rfl
    have plus : current ([45] ++ (digit :: digits).map digitChar) ≠ 43 := minus.trans_ne (by decide)
    rw [strtol_ten start plus]
    simp only [List.singleton_append, current, if_true, List.drop_one, List.tail_cons, loop]
  · have code := digitChar_toNat (small digit (List.mem_cons_self ..))
    have other (char : BitVec 8) (low : char.toNat < 48) : digitChar digit ≠ char := by
      rintro rfl
      omega
    have start : skipWhitespace ((digit :: digits).map digitChar) = (digit :: digits).map digitChar :=
      if_neg (not_or.2 ⟨other 32 (by decide), other 9 (by decide)⟩)
    rw [List.nil_append, strtol_ten start (other 43 (by decide))]
    exact (if_neg (other 45 (by decide))).trans loop

/-- The digits of a number, the first one first. -/
def decimalDigits (n : Nat) : List Nat := if n = 0 then [0] else (Nat.digits 10 n).reverse

theorem decimalDigits_lt {n : Nat} : ∀ digit ∈ decimalDigits n, digit < 10 := by
  intro digit member
  unfold decimalDigits at member
  split at member
  · rw [List.mem_singleton.1 member]
    decide
  · exact Nat.digits_lt_base (by decide) (List.mem_reverse.1 member)

theorem decimalDigits_ne_nil (n : Nat) : decimalDigits n ≠ [] := by
  unfold decimalDigits
  split
  · exact List.cons_ne_nil 0 []
  · next nonzero => exact fun empty => nonzero (Nat.digits_eq_nil_iff_eq_zero.1 (List.reverse_eq_nil_iff.1 empty))

theorem numberFrom_decimalDigits (n : Nat) : numberFrom 0 (decimalDigits n) = n := by
  unfold decimalDigits
  split
  · next zero => exact zero.symm
  · exact numberFrom_digits n

/-- The decimal representation of a number. -/
def decimal (value : Int) : List (BitVec 8) := sign value ++ (decimalDigits value.natAbs).map digitChar

theorem strtol_decimal {value : Int} (negatable : Negatable value) : strtol (decimal value) 10 = (value, []) := by
  have lower := negatable.lower
  have upper := negatable.upper
  have number := numberFrom_decimalDigits value.natAbs
  have small := @decimalDigits_lt value.natAbs
  unfold decimal
  cases digits : decimalDigits value.natAbs with
  | nil => exact absurd digits (decimalDigits_ne_nil _)
  | cons digit rest =>
      rw [digits] at number small
      rw [strtol_digits value small (by omega), number]
      split
      · have magnitude : -(value.natAbs : Int) = value := by omega
        rw [magnitude, long_eq (by omega) (by omega)]
      · have magnitude : (value.natAbs : Int) = value := by omega
        rw [magnitude]

/-! ### When all digits are written -/

/-- All digits but the last one are nonzero. -/
def OnlyLastZero (n : Nat) : Prop := ∀ digit ∈ Nat.digits 10 (n / 10), digit ≠ 0

theorem written_eq_iff (rounds : Nat) : ∀ n, 0 < n → n < 10 ^ rounds →
    (written rounds n = Nat.digits 10 n ↔ OnlyLastZero n) := by
  induction rounds with
  | zero => exact fun n positive bound => absurd bound (Nat.not_lt.2 positive)
  | succ rounds ih =>
      intro n positive bound
      have smaller : n / 10 < 10 ^ rounds := Nat.div_lt_of_lt_mul (Nat.pow_succ' ▸ bound)
      rw [written, Nat.digits_of_two_le_of_pos (by decide) positive, List.cons_inj_right, OnlyLastZero]
      cases Nat.eq_zero_or_pos (n / 10) with
      | inl zero =>
          rw [zero, Nat.digits_zero]
          simp
      | inr more =>
          rw [Nat.digits_of_two_le_of_pos (by decide) more, List.forall_mem_cons]
          split
          · next ends => simp [ends]
          · next goes =>
              rw [← Nat.digits_of_two_le_of_pos (by decide) more, ih (n / 10) more smaller]
              exact (and_iff_right goes).symm

theorem reverse_written_eq_iff {n : Nat} (bound : n < 10 ^ 10) :
    (written 10 n).reverse = decimalDigits n ↔ OnlyLastZero n := by
  unfold decimalDigits
  split
  · next zero =>
      subst zero
      simp [written, OnlyLastZero]
  · next nonzero => rw [List.reverse_inj, written_eq_iff 10 n (Nat.pos_of_ne_zero nonzero) bound]

/-- `ltostr` writes the decimal representation of a number, and `strtol` reads the number from it. -/
def RoundTrips (value : Int) : Prop :=
  ∀ str, ∃ next, ltostr value str = some next ∧ Terminated next 0 (decimal value) ∧
    (strtol (decimal value) 10).1 = value

/-- The digits can be told from their characters. -/
theorem map_digitChar_cancel {digits others : List Nat} (small : ∀ digit ∈ digits, digit < 10)
    (smallOthers : ∀ digit ∈ others, digit < 10) (same : digits.map digitChar = others.map digitChar) :
    digits = others := by
  have back : ∀ {digits : List Nat}, (∀ digit ∈ digits, digit < 10) →
      (digits.map digitChar).map (fun char => char.toNat - 48) = digits := by
    intro digits small
    rw [List.map_map]
    apply (List.map_congr_left fun digit member => _).trans (List.map_id digits)
    intro digit member
    rw [Function.comp_apply, digitChar_toNat (small digit member)]
    exact Nat.add_sub_cancel ..
  rw [← back small, same, back smallOthers]

theorem roundTrips_negatable_iff {value : Int} (negatable : Negatable value) :
    RoundTrips value ↔ OnlyLastZero value.natAbs := by
  have lower := negatable.lower
  have upper := negatable.upper
  rw [← reverse_written_eq_iff (by omega)]
  constructor
  · intro trips
    obtain ⟨next, returned, terminated, -⟩ := trips fun _ => 0
    obtain ⟨other, returnedOther, terminatedOther⟩ := ltostr_spec negatable fun _ => 0
    cases returned.symm.trans returnedOther
    have same := terminatedOther.unique terminated
    rw [decimal, List.append_cancel_left_eq, ← List.map_reverse] at same
    apply map_digitChar_cancel _ decimalDigits_lt same
    exact fun digit member => written_digits 10 _ digit (List.mem_reverse.1 member)
  · intro same str
    obtain ⟨next, returned, terminated⟩ := ltostr_spec negatable str
    rw [← List.map_reverse, same] at terminated
    exact ⟨next, returned, terminated, congrArg Prod.fst (strtol_decimal negatable)⟩

/-- The most negative number has no negative. -/
theorem not_roundTrips_least : ¬ RoundTrips (-0x80000000) := by
  intro trips
  obtain ⟨next, returned, terminated, -⟩ := trips fun _ => 0
  have point : (ltostr (-0x80000000) fun _ => 0).map (· 1) = some 46 := by decide +kernel
  rw [returned] at point
  have digits := (Stored.append_iff.1 terminated.stored).2
  have small := @decimalDigits_lt (-0x80000000 : Int).natAbs
  cases found : decimalDigits (-0x80000000 : Int).natAbs with
  | nil => exact decimalDigits_ne_nil _ found
  | cons digit rest =>
      rw [found] at digits small
      have code := digitChar_toNat (small digit (List.mem_cons_self ..))
      have wrong : next 1 = 46 := Option.some.inj point
      have different : digitChar digit ≠ 46 := by
        intro same
        rw [same] at code
        exact absurd code (by simp)
      exact different (digits.1.symm.trans wrong)

/-- The number comes back exactly if it has no digit 0 but perhaps the last one, and can be negated. -/
theorem roundTrips_iff (value : BitVec 32) :
    RoundTrips value.toInt ↔ value.toInt ≠ -0x80000000 ∧ OnlyLastZero value.toInt.natAbs := by
  have lower := value.le_two_mul_toInt
  have upper := value.two_mul_toInt_lt
  constructor
  · intro trips
    have different : value.toInt ≠ -0x80000000 := fun least => not_roundTrips_least (least ▸ trips)
    exact ⟨different, (roundTrips_negatable_iff ⟨by omega, by omega⟩).1 trips⟩
  · rintro ⟨different, digits⟩
    exact (roundTrips_negatable_iff ⟨by omega, by omega⟩).2 digits

/-- Of 100 the last digit is written. -/
theorem not_roundTrips_hundred : ¬ RoundTrips (100 : BitVec 32).toInt := by
  have value : (100 : BitVec 32).toInt = 100 := by decide
  rw [value, roundTrips_negatable_iff ⟨by decide, by decide⟩]
  intro digits
  have zero : 0 ∈ Nat.digits 10 10 := by simp
  exact digits 0 zero rfl

end Fos.Library
