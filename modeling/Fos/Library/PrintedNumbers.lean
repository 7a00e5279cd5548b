import Fos.Library.PrintfProperties
import Mathlib.Data.Int.ModEq

/-! When `strtol` reads the number back that `%d`, `%u` or `%x` has shown. -/

set_option autoImplicit false

namespace Fos.Library

variable {base count n : Nat} {s : List (BitVec 8)} {digits : List Nat} {ch : BitVec 8} {flags : Flags} {value : BitVec 32}

def numeral (digit : Nat) : BitVec 8 := literal "0123456789abcdef" digit

theorem bytes_digits (digits : List Nat) : bytes (digits.map hexDigit) = digits.map numeral := by
  rw [bytes, List.map_map]
  apply List.map_congr_left
  intro digit _
  exact BitVec.setWidth_setWidth_of_le _ (by decide)

/-! ### Reading numerals -/

theorem numeral_spec : ∀ digit < 16, Library.digit (numeral digit) = some digit ∧ numeral digit ≠ 32 ∧ numeral digit ≠ 9 ∧
    numeral digit ≠ 43 ∧ numeral digit ≠ 45 ∧ numeral digit ≠ 120 := by
  decide +kernel

/-- The number that digits make. -/
def valueFrom (base value : Nat) (digits : List Nat) : Nat := digits.foldl (fun value digit => value * base + digit) value

theorem long_congr {value other : Int} (same : value ≡ other [ZMOD wordSize]) : long value = long other := by
  unfold long toUInt32
  rw [same]

theorem long_modEq (value : Int) : long value ≡ value [ZMOD wordSize] := by
  simp only [Int.ModEq, long, toInt32, toUInt32, wordSize]
  omega

theorem long_step (value digit : Nat) : long (long value * base + digit) = long (value * base + digit : Nat) := by
  apply long_congr
  rw [Nat.cast_add, Nat.cast_mul]
  exact ((long_modEq value).mul_right _).add_right _

theorem digitsLoop_numerals (small : base ≤ 16) (digits : List Nat) : ∀ value : Nat, (∀ digit ∈ digits, digit < base) →
    digitsLoop base (digits.map numeral) (long value) = (long (valueFrom base value digits), []) := by
  induction digits with
  | nil => exact fun _ _ => rfl
  | cons digit digits ih =>
      intro value bound
      have first := bound digit List.mem_cons_self
      rw [List.map_cons, digitsLoop, (numeral_spec digit (by omega)).1]
      dsimp only
      rw [if_neg (by omega), long_step]
      exact ih (value * base + digit) fun other member => bound other (List.mem_cons_of_mem _ member)

theorem valueFrom_digitsIn (base n : Nat) : valueFrom base 0 (digitsIn base n) = n := by
  unfold digitsIn
  split
  · next zero => rw [zero, valueFrom, List.foldl_cons, Nat.zero_mul, Nat.add_zero, List.foldl_nil]
  · have folded := Nat.ofDigits_digits base n
    rw [Nat.ofDigits_eq_foldr] at folded
    rw [valueFrom, List.foldl_reverse]
    refine Eq.trans ?_ folded
    congr 1
    funext digit value
    rw [Nat.mul_comm, Nat.add_comm]
    rfl

theorem valueFrom_zeros (count : Nat) : valueFrom base 0 (List.replicate count 0 ++ digits) = valueFrom base 0 digits := by
  induction count with
  | zero => rfl
  | succ count ih =>
      rw [List.replicate_succ, List.cons_append, valueFrom, List.foldl_cons, Nat.zero_mul, Nat.add_zero]
      exact ih

theorem digitsIn_lt (many : 1 < base) : ∀ digit ∈ digitsIn base n, digit < base := by
  intro digit member
  unfold digitsIn at member
  split at member
  · rw [List.mem_singleton.1 member]
    exact Nat.zero_lt_of_lt many
  · exact Nat.digits_lt_base many (List.mem_reverse.1 member)

theorem digitsIn_ne_nil : digitsIn base n ≠ [] := by
  unfold digitsIn
  split
  · exact List.cons_ne_nil 0 []
  · next nonzero => exact fun empty => nonzero (Nat.digits_eq_nil_iff_eq_zero.1 (List.reverse_eq_nil_iff.1 empty))

/-- Without a sign, and without the prefix of a hexadecimal number. -/
theorem strtol_unsigned {base : Int} (known : base = 10 ∨ base = 16) (start : skipWhitespace s = s) (plus : current s ≠ 43)
    (minus : current s ≠ 45) (x : ¬ (current s = 48 ∧ current (s.drop 1) = 120)) : strtol s base = digitsLoop base s 0 := by
  have nonzero : base ≠ 0 := by omega
  have prefixed : ¬ ((base = 0 ∨ base = 16) ∧ current s = 48 ∧ current (s.drop 1) = 120) := fun found => x found.2
  have octal : ¬ (base = 0 ∧ current s = 48) := fun found => nonzero found.1
  unfold strtol
  rw [start]
  simp only [if_neg plus, if_neg minus, if_neg prefixed, if_neg octal, if_neg nonzero]
  rfl

theorem strtol_negative {base : Int} (known : base = 10 ∨ base = 16) (x : ¬ (current s = 48 ∧ current (s.drop 1) = 120)) :
    strtol (45 :: s) base = (long (-(digitsLoop base s 0).1), (digitsLoop base s 0).2) := by
  have nonzero : base ≠ 0 := by omega
  have prefixed : ¬ ((base = 0 ∨ base = 16) ∧ current s = 48 ∧ current (s.drop 1) = 120) := fun found => x found.2
  have octal : ¬ (base = 0 ∧ current s = 48) := fun found => nonzero found.1
  have start : skipWhitespace (45 :: s) = 45 :: s := rfl
  have minus : current (45 :: s) = 45 := rfl
  have plus : ¬ current (45 :: s) = 43 := by
    rw [minus]
    decide
  have behind : (45 :: s).drop 1 = s := rfl
  unfold strtol
  rw [start]
  simp only [if_neg plus, if_pos minus, behind, if_neg prefixed, if_neg octal, if_neg nonzero, if_true]

theorem skipWhitespace_spaces (count : Nat) : skipWhitespace (List.replicate count 32 ++ s) = skipWhitespace s := by
  induction count with
  | zero => rfl
  | succ count ih => exact ih

theorem strtol_spaces {base : Int} (count : Nat) : strtol (List.replicate count 32 ++ s) base = strtol s base := by
  unfold strtol
  rw [skipWhitespace_spaces]

/-- What does not start with a digit is no number. -/
theorem strtol_nothing {base : Int} (known : base = 10 ∨ base = 16) (none : digit ch = none) :
    (strtol (45 :: ch :: s) base).1 = 0 := by
  have x : ¬ (current (ch :: s) = 48 ∧ current ((ch :: s).drop 1) = 120) := by
    rintro ⟨zero, _⟩
    have zero : ch = 48 := zero
    rw [zero] at none
    cases none
  rw [strtol_negative known x, digitsLoop, none]
  rfl

private theorem current_numerals {digits : List Nat} (known : base ≤ 16) (small : ∀ digit ∈ digits, digit < base) :
    current (digits.map numeral) ≠ 120 := by
  cases digits with
  | nil => decide
  | cons digit digits =>
      have first := small digit List.mem_cons_self
      exact (numeral_spec digit (by omega)).2.2.2.2.2

section Numerals

variable (known : base = 10 ∨ base = 16) (small : ∀ digit ∈ digits, digit < base) (nonempty : digits ≠ [])
include known small

private theorem not_prefixed : ¬ (current (digits.map numeral) = 48 ∧ current ((digits.map numeral).drop 1) = 120) := by
  rintro ⟨_, x⟩
  cases digits with
  | nil => cases x
  | cons digit digits => exact current_numerals (by omega) (fun other member => small other (List.mem_cons_of_mem _ member)) x

theorem strtol_minus_numerals :
    strtol (45 :: digits.map numeral) base = (long (-(valueFrom base 0 digits : Int)), []) := by
  have loop := digitsLoop_numerals (by omega) digits 0 small
  have zero : long ((0 : Nat) : Int) = 0 := rfl
  rw [zero] at loop
  rw [strtol_negative (by omega) (not_prefixed known small), loop]
  dsimp only
  congr 1
  exact long_congr (long_modEq _).neg

include nonempty

theorem strtol_numerals : strtol (digits.map numeral) base = (long (valueFrom base 0 digits), []) := by
  have loop := digitsLoop_numerals (by omega) digits 0 small
  have zero : long ((0 : Nat) : Int) = 0 := rfl
  rw [zero] at loop
  cases digits with
  | nil => exact absurd rfl nonempty
  | cons digit digits =>
      have first := small digit List.mem_cons_self
      obtain ⟨_, space, tab, plus, minus, _⟩ := numeral_spec digit (by omega)
      have start : skipWhitespace ((digit :: digits).map numeral) = (digit :: digits).map numeral :=
        if_neg (not_or.2 ⟨space, tab⟩)
      rw [strtol_unsigned (by omega) start plus minus (not_prefixed known small), loop]

end Numerals

/-! ### What was printed -/

/-- How often a number is padded. -/
def padding (flags : Flags) (base n : Nat) : Nat := (long (flags.width - (digitsIn base n).length)).toNat

theorem bytes_paddedNumber (flags : Flags) (n base : Nat) : bytes (paddedNumber flags n base) =
    List.replicate (padding flags base n) (flags.padc.setWidth 8) ++ (digitsIn base n).map numeral := by
  rw [← bytes_digits, paddedNumber, bytes, List.map_append, List.map_replicate]
  rfl

/-- The characters `padc` can be. -/
inductive PadChar : BitVec 32 → Prop where
  | space : PadChar (code ' ')
  | zero : PadChar (code '0')
  | minus : PadChar (code '-')

private theorem padc_processPrecision (precision : Int) : (flags.processPrecision precision).padc = flags.padc := by
  unfold Flags.processPrecision
  split <;> rfl

theorem Modifier.apply_padChar {modifier : Modifier} {ap behind : VaList} {next : Flags}
    (applied : modifier.apply flags ap = .ok (next, behind)) (before : PadChar flags.padc) : PadChar next.padc := by
  cases modifier with
  | number n =>
      cases applied
      rw [padc_processPrecision]
      exact before
  | single mark =>
      cases mark with
      | minus =>
          cases applied
          exact .minus
      | zero =>
          cases applied
          exact .zero
      | star =>
          obtain ⟨⟨precision, rest⟩, _, same⟩ := bind_eq_ok.1 applied
          cases same
          rw [padc_processPrecision]
          exact before
      | dot =>
          cases applied
          exact before
      | alternate =>
          cases applied
          exact before
      | long =>
          cases applied
          exact before

theorem Sets.padChar {modifiers : List Modifier} {ap left : VaList} {last : Flags} (sets : Sets modifiers flags ap last left)
    (before : PadChar flags.padc) : PadChar last.padc := by
  induction sets with
  | nil => exact before
  | cons applied _ ih => exact ih (Modifier.apply_padChar applied before)

section Numbers

variable (known : base = 10 ∨ base = 16)
include known

private theorem small_digits (n : Nat) : ∀ digit ∈ digitsIn base n, digit < base := digitsIn_lt (by omega)

omit known in
/-- Zeros in front do not count. -/
private theorem zeros_append (count : Nat) : List.replicate count (48 : BitVec 8) ++ (digitsIn base n).map numeral =
    (List.replicate count 0 ++ digitsIn base n).map numeral := by
  rw [List.map_append, List.map_replicate]
  rfl

private theorem small_zeros (count n : Nat) : ∀ digit ∈ List.replicate count 0 ++ digitsIn base n, digit < base := by
  intro digit member
  cases List.mem_append.1 member with
  | inl zero =>
      rw [List.eq_of_mem_replicate zero]
      omega
  | inr member => exact small_digits known n digit member

variable (padChar : PadChar flags.padc)
include padChar

/-- A number without a sign is read back, if no minus stands before it. -/
theorem strtol_paddedNumber (n : Nat) : (strtol (bytes (paddedNumber flags n base)) base).1 =
    if padding flags base n = 0 ∨ flags.padc ≠ code '-' then long n
    else if padding flags base n = 1 then long (-(n : Int)) else 0 := by
  have value := valueFrom_digitsIn base n
  have plain := strtol_numerals known (small_digits known n) digitsIn_ne_nil
  rw [value] at plain
  rw [bytes_paddedNumber]
  generalize padding flags base n = count
  generalize flags.padc = padc at padChar
  cases padChar with
  | space =>
      rw [if_pos (.inr (by decide))]
      exact (congrArg Prod.fst (strtol_spaces count)).trans (congrArg Prod.fst plain)
  | zero =>
      have zeros := strtol_numerals known (small_zeros known count n) (List.append_ne_nil_of_right_ne_nil _ digitsIn_ne_nil)
      rw [valueFrom_zeros, value, ← zeros_append] at zeros
      rw [if_pos (.inr (by decide))]
      exact congrArg Prod.fst zeros
  | minus =>
      cases count with
      | zero =>
          rw [if_pos (.inl rfl)]
          exact congrArg Prod.fst plain
      | succ count =>
          rw [if_neg (not_or.2 ⟨Nat.succ_ne_zero count, not_not_intro rfl⟩)]
          cases count with
          | zero =>
              have minus := strtol_minus_numerals known (small_digits known n)
              rw [value] at minus
              rw [if_pos rfl]
              exact congrArg Prod.fst minus
          | succ count =>
              rw [if_neg (by omega)]
              exact strtol_nothing (by omega) (by decide)

/-- A number behind a minus sign is read back, if nothing or only zeros stand between them. -/
theorem strtol_minus_paddedNumber (n : Nat) : (strtol (45 :: bytes (paddedNumber flags n base)) base).1 =
    if padding flags base n = 0 ∨ flags.padc = code '0' then long (-(n : Int)) else 0 := by
  have value := valueFrom_digitsIn base n
  have plain := strtol_minus_numerals known (small_digits known n)
  rw [value] at plain
  rw [bytes_paddedNumber]
  generalize padding flags base n = count
  generalize flags.padc = padc at padChar
  cases count with
  | zero =>
      rw [if_pos (.inl rfl)]
      exact congrArg Prod.fst plain
  | succ count =>
      cases padChar with
      | zero =>
          have zeros := strtol_minus_numerals known (small_zeros known (count + 1) n)
          rw [valueFrom_zeros, value, ← zeros_append] at zeros
          rw [if_pos (.inr rfl)]
          exact congrArg Prod.fst zeros
      | space =>
          rw [if_neg (not_or.2 ⟨Nat.succ_ne_zero count, by decide⟩)]
          exact strtol_nothing (by omega) (by decide)
      | minus =>
          rw [if_neg (not_or.2 ⟨Nat.succ_ne_zero count, by decide⟩)]
          exact strtol_nothing (by omega) (by decide)

end Numbers

/-! ### Round trips -/

/-- The base a number is shown in. -/
def Conversion.radix : Conversion → Option Nat
  | .decimal => some 10
  | .unsigned => some 10
  | .hexadecimal => some 16
  | _ => none

/-- Nothing stands in the way of the digits: no padding at all, zeros, or spaces before a number without a sign. -/
def SignedBack (flags : Flags) (value : BitVec 32) : Prop :=
  padding flags 10 value.toInt.natAbs = 0 ∨ flags.padc = code '0' ∨ value = 0 ∨ flags.padc = code ' ' ∧ 0 ≤ value.toInt

/-- A single minus before a number that is its own negative does no harm. -/
def UnsignedBack (flags : Flags) (base : Nat) (value : BitVec 32) : Prop :=
  padding flags base value.toNat = 0 ∨ flags.padc ≠ code '-' ∨ value = 0 ∨
    padding flags base value.toNat = 1 ∧ value = BitVec.intMin 32

def ReadsBack (conversion : Conversion) (flags : Flags) (base : Nat) (value : BitVec 32) : Prop :=
  if conversion = .decimal then SignedBack flags value else UnsignedBack flags base value

private theorem toInt_cases (value : BitVec 32) : value.toNat < 0x80000000 ∧ value.toInt = value.toNat ∨
    0x80000000 ≤ value.toNat ∧ value.toNat < 0x100000000 ∧ value.toInt = value.toNat - 0x100000000 := by
  have bound := value.isLt
  rw [BitVec.toInt_eq_toNat_cond]
  split
  · omega
  · omega

private theorem eq_zero_iff (value : BitVec 32) : value = 0 ↔ value.toNat = 0 := BitVec.toNat_inj.symm

private theorem eq_intMin_iff (value : BitVec 32) : value = BitVec.intMin 32 ↔ value.toNat = 0x80000000 := BitVec.toNat_inj.symm

theorem long_toNat (value : BitVec 32) : long value.toNat = value.toInt := by
  have cases := toInt_cases value
  simp only [long, toInt32, toUInt32, wordSize]
  omega

theorem long_neg_toNat_iff (value : BitVec 32) :
    long (-(value.toNat : Int)) = value.toInt ↔ value = 0 ∨ value = BitVec.intMin 32 := by
  have cases := toInt_cases value
  rw [eq_zero_iff, eq_intMin_iff]
  simp only [long, toInt32, toUInt32, wordSize]
  omega

theorem strtol_unsigned_iff (known : base = 10 ∨ base = 16) (padChar : PadChar flags.padc) :
    (strtol (bytes (paddedNumber flags value.toNat base)) base).1 = value.toInt ↔ UnsignedBack flags base value := by
  have negated := long_neg_toNat_iff value
  have zero : (0 : Int) = value.toInt ↔ value = 0 := by
    have cases := toInt_cases value
    rw [eq_zero_iff]
    omega
  rw [strtol_paddedNumber known padChar, UnsignedBack]
  split
  · next plain =>
      refine iff_of_true (long_toNat value) ?_
      exact plain.imp_right .inl
  · next minus =>
      obtain ⟨some, isMinus⟩ := not_or.1 minus
      split
      · next one =>
          rw [negated]
          simp only [isMinus, one, Nat.one_ne_zero, false_or, true_and]
      · next more =>
          rw [zero]
          simp only [some, isMinus, more, false_or, false_and, or_false]

/-- The number whose digits are shown. -/
private theorem magnitude_toNat (value : BitVec 32) :
    (if value.toInt < 0 then -value.signExtend 64 else value.signExtend 64).toNat = value.toInt.natAbs := by
  have extended : (value.signExtend 64).toInt = value.toInt := BitVec.toInt_signExtend_of_le (by decide)
  have bound := (value.signExtend 64).isLt
  rw [BitVec.toInt_eq_toNat_cond] at extended
  have cases := toInt_cases value
  split
  · rw [BitVec.toNat_neg]
    omega
  · omega

private theorem signedNumber_word (flags : Flags) (value : BitVec 32) : signedNumber flags (value.signExtend 64) =
    if value.toInt < 0 then code '-' :: paddedNumber flags value.toInt.natAbs 10
    else paddedNumber flags value.toInt.natAbs 10 := by
  have sign : (value.signExtend 64).msb = decide (value.toInt < 0) := by
    rw [BitVec.msb_eq_toInt, BitVec.toInt_signExtend_of_le (by decide)]
  have magnitude := magnitude_toNat value
  rw [signedNumber, sign]
  split
  · next negative =>
      have negative := of_decide_eq_true negative
      rw [if_pos negative] at magnitude ⊢
      rw [magnitude]
  · next positive =>
      have positive : ¬ value.toInt < 0 := fun negative => positive (decide_eq_true negative)
      rw [if_neg positive] at magnitude ⊢
      rw [magnitude]

theorem strtol_signed_iff (padChar : PadChar flags.padc) :
    (strtol (bytes (signedNumber flags (value.signExtend 64))) 10).1 = value.toInt ↔ SignedBack flags value := by
  have cases := toInt_cases value
  have zero := eq_zero_iff value
  have unsigned := @strtol_paddedNumber 10 flags (.inl rfl) padChar value.toInt.natAbs
  have signed := @strtol_minus_paddedNumber 10 flags (.inl rfl) padChar value.toInt.natAbs
  rw [signedNumber_word, SignedBack]
  split
  · next negative =>
      have whole : long (-(value.toInt.natAbs : Int)) = value.toInt := by
        rw [long_eq (by omega) (by omega)]
        omega
      refine (Eq.congr_left signed).trans ?_
      split
      · next plain =>
          refine iff_of_true whole ?_
          exact plain.imp_right .inl
      · next padded =>
          obtain ⟨some, other⟩ := not_or.1 padded
          refine iff_of_false (by omega) ?_
          rintro (none | same | nothing | spaces)
          · exact some none
          · exact other same
          · have := zero.1 nothing
            omega
          · omega
  · next positive =>
      have whole : long (value.toInt.natAbs : Int) = value.toInt := by
        rw [long_eq (by omega) (by omega)]
        omega
      refine (Eq.congr_left unsigned).trans ?_
      have negated : long (-(value.toInt.natAbs : Int)) = value.toInt ↔ value = 0 := by
        rw [long_eq (by omega) (by omega), zero]
        omega
      have nothing : (0 : Int) = value.toInt ↔ value = 0 := by
        rw [zero]
        omega
      have characters : flags.padc ≠ code '-' ↔ flags.padc = code '0' ∨ flags.padc = code ' ' ∧ 0 ≤ value.toInt := by
        generalize flags.padc = padc at padChar
        cases padChar with
        | space => exact iff_of_true (by decide) (.inr ⟨rfl, Int.not_lt.1 positive⟩)
        | zero => exact iff_of_true (by decide) (.inl rfl)
        | minus => exact iff_of_false (not_not_intro rfl) (not_or.2 ⟨by decide, fun spaces => absurd spaces.1 (by decide)⟩)
      split
      · next plain =>
          rw [characters] at plain
          refine iff_of_true whole ?_
          exact plain.imp_right fun fits => fits.imp_right .inr
      · next minus =>
          rw [characters] at minus
          obtain ⟨some, other⟩ := not_or.1 minus
          obtain ⟨notZero, notSpace⟩ := not_or.1 other
          have only : (padding flags 10 value.toInt.natAbs = 0 ∨ flags.padc = code '0' ∨ value = 0 ∨
              flags.padc = code ' ' ∧ 0 ≤ value.toInt) ↔ value = 0 := by
            constructor
            · rintro (none | zeros | same | spaces)
              · exact absurd none some
              · exact absurd zeros notZero
              · exact same
              · exact absurd spaces notSpace
            · exact fun same => .inr (.inr (.inl same))
          rw [only]
          split
          · exact negated
          · exact nothing

/-- What `%d`, `%u` and `%x` show of a number is read back just if nothing stands before its digits that `strtol` does
not expect there. -/
theorem strtol_printed_iff {memory : Bytes} {fmt base : Nat} {modifiers : List Modifier} {conversion : Conversion} {ap : VaList}
    {flags : Flags} {value : BitVec 32} (valid : Modifiers modifiers)
    (terminated : Terminated memory fmt (formatText [.directive modifiers conversion])) (radix : conversion.radix = some base)
    (sets : Sets modifiers .initial ap flags [value]) (short : flags.lflag < 2) :
    ∃ text, (∃ least, ∀ limit ≥ least, vprintfmt memory limit limit fmt ap = .ok text) ∧
      ((strtol (bytes text) base).1 = value.toInt ↔ ReadsBack conversion flags base value) := by
  have padChar : PadChar flags.padc := sets.padChar .space
  have prints {shown : Text} (shows : Shows memory conversion flags [value] shown []) :
      ∃ least, ∀ limit ≥ least, vprintfmt memory limit limit fmt ap = .ok shown := by
    apply (vprintfmt_iff (.directive valid .nil) terminated).2
    have renders := Renders.directive sets shows .nil
    rw [List.append_nil] at renders
    exact renders
  have word : (value.setWidth 64).toNat = value.toNat := by
    rw [BitVec.toNat_setWidth]
    exact Nat.mod_eq_of_lt (value.isLt.trans (by decide))
  cases conversion with
  | decimal =>
      cases radix
      exact ⟨_, prints (.decimal (.word short)), strtol_signed_iff padChar⟩
  | unsigned =>
      cases radix
      have shows : Shows memory .unsigned flags [value] (paddedNumber flags value.toNat 10) [] := word ▸ .unsigned (.word short)
      exact ⟨_, prints shows, strtol_unsigned_iff (.inl rfl) padChar⟩
  | hexadecimal =>
      cases radix
      have shows : Shows memory .hexadecimal flags [value] (paddedNumber flags value.toNat 16) [] :=
        word ▸ .hexadecimal (.word short)
      exact ⟨_, prints shows, strtol_unsigned_iff (.inr rfl) padChar⟩
  | _ => cases radix

private theorem paddedFormat_terminated :
    Terminated (literal "%-8d") 0 (formatText [.directive [.single .minus, .number 8] .decimal]) where
  stored := ⟨by decide, by decide, by decide, by decide, trivial⟩
  ends := by decide
  nonzero := by decide

/-- Minus signs are put before the 5. -/
theorem strtol_printed_iff_run :
    ∃ text, (∃ least, ∀ limit ≥ least, vprintfmt (literal "%-8d") limit limit 0 [5] = .ok text) ∧
      ((strtol (bytes text) 10).1 = 5 ↔ SignedBack { Flags.initial with padc := code '-', width := 8 } 5) :=
  strtol_printed_iff (.single (.number (by decide) (by decide) .nil)) paddedFormat_terminated rfl
    (.cons rfl (.cons rfl .nil)) (by decide)

end Fos.Library
