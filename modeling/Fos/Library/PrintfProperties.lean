import Fos.Library.FormatsProperties

/-! `vprintfmt` prints what its format stands for. -/

set_option autoImplicit false

namespace Fos.Library

variable {memory s : Bytes} {index limit rounds fmt base n : Nat} {precision width : Int} {padc : BitVec 32}
  {flags : Flags} {ap rest : VaList} {text : Text} {chars : List (BitVec 8)}

theorem bind_eq_ok {First Second : Type} {program : Printed First} {continuation : First → Printed Second} {result : Second} :
    program >>= continuation = .ok result ↔ ∃ first, program = .ok first ∧ continuation first = .ok result := by
  cases program with
  | error undefined =>
      constructor
      · intro impossible
        cases impossible
      · rintro ⟨_, impossible, _⟩
        cases impossible
  | ok first =>
      constructor
      · exact fun holds => ⟨first, rfl, holds⟩
      · rintro ⟨_, returned, holds⟩
        cases returned
        exact holds

theorem ok_bind {First Second : Type} {program : Printed First} {continuation : First → Printed Second} {first : First}
    (returned : program = .ok first) : program >>= continuation = continuation first := by
  rw [returned]
  rfl

/-! ### Numbers -/

theorem long_sub_long (value other : Int) : long (long value - other) = long (value - other) := by
  simp only [long, toInt32, toUInt32, wordSize]
  omega

theorem digitsIn_of_lt (small : n < base) : digitsIn base n = [n] := by
  unfold digitsIn
  split
  · next zero => rw [zero]
  · next nonzero => rw [Nat.digits_of_lt base n nonzero small, List.reverse_singleton]

theorem digitsIn_of_le (many : 1 < base) (large : base ≤ n) : digitsIn base n = digitsIn base (n / base) ++ [n % base] := by
  have nonzero : n ≠ 0 := by omega
  have quotient : n / base ≠ 0 := (Nat.div_pos large (by omega)).ne'
  rw [digitsIn, if_neg nonzero, digitsIn, if_neg quotient, Nat.digits_def' many (Nat.pos_of_ne_zero nonzero),
    List.reverse_cons]

/-- The first digit is behind the padding. -/
theorem printnum_eq (many : 1 < base) : ∀ (rounds n : Nat) (width : Int), n < base ^ rounds → 0 < rounds →
    printnum rounds n base width padc =
      .ok (List.replicate (long (width - (digitsIn base n).length)).toNat padc ++ (digitsIn base n).map hexDigit) := by
  intro rounds
  induction rounds with
  | zero => exact fun _ _ _ positive => absurd positive (Nat.lt_irrefl 0)
  | succ rounds ih =>
      intro n width bound _
      rw [printnum]
      cases Nat.decLe base n with
      | isFalse small =>
          have digits := digitsIn_of_lt (Nat.lt_of_not_le small)
          rw [if_neg small, digits, Nat.mod_eq_of_lt (Nat.lt_of_not_le small)]
          rfl
      | isTrue large =>
          have smaller : n / base < base ^ rounds := Nat.div_lt_of_lt_mul (Nat.pow_succ' ▸ bound)
          have positive : 0 < rounds := by
            apply Nat.pos_of_ne_zero
            rintro rfl
            rw [Nat.pow_zero] at smaller
            exact absurd (Nat.div_pos large (by omega)) (by omega)
          have digits := digitsIn_of_le many large
          have count : long (long (width - 1) - (digitsIn base (n / base)).length) = long (width - (digitsIn base n).length) := by
            rw [long_sub_long, digits, List.length_append, List.length_singleton]
            congr 1
            omega
          rw [if_pos large, ok_bind (ih (n / base) _ smaller positive), count]
          simp only [digits, List.map_append, ← List.append_assoc]
          rfl

theorem putNumber_eq (flags : Flags) (num : BitVec 64) (many : 1 < base) :
    putNumber flags num base = .ok (paddedNumber flags num.toNat base) := by
  have bound : num.toNat < base ^ 64 := num.isLt.trans_le (Nat.pow_le_pow_left many 64)
  exact printnum_eq many 64 num.toNat flags.width bound (by decide)

theorem putSigned_eq (flags : Flags) (num : BitVec 64) : putSigned flags num = .ok (signedNumber flags num) := by
  unfold putSigned signedNumber
  split
  · rw [putNumber_eq flags _ (by decide)]
    rfl
  · exact putNumber_eq flags num (by decide)

/-! ### Strings -/

theorem strnlen_eq : ∀ (n rounds index size : Nat), n < rounds → n ≤ size → (∀ before < n, s (index + before) ≠ 0) →
    (n = size ∨ s (index + n) = 0) → strnlen s rounds index size = .ok n := by
  intro n
  induction n with
  | zero =>
      intro rounds index size enough _ _ ends
      cases rounds with
      | zero => exact absurd enough (Nat.lt_irrefl 0)
      | succ rounds =>
          have stops : ¬ (size > 0 ∧ s index ≠ 0) := by
            rintro ⟨positive, nonzero⟩
            cases ends with
            | inl all => exact absurd positive (all ▸ Nat.lt_irrefl 0)
            | inr zero => exact nonzero zero
          exact if_neg stops
  | succ n ih =>
      intro rounds index size enough fits nonzero ends
      cases rounds with
      | zero => exact absurd enough (Nat.not_lt_zero _)
      | succ rounds =>
          have goes : size > 0 ∧ s index ≠ 0 := ⟨Nat.lt_of_lt_of_le (Nat.zero_lt_succ n) fits, nonzero 0 (Nat.zero_lt_succ n)⟩
          have shift (before : Nat) : index + 1 + before = index + (before + 1) := by omega
          have next := ih rounds (index + 1) (size - 1) (Nat.lt_of_succ_lt_succ enough) (Nat.le_sub_one_of_lt fits)
            (fun before less => shift before ▸ nonzero (before + 1) (Nat.succ_lt_succ less))
            (ends.imp (fun all => Nat.eq_sub_of_add_eq all) fun zero => shift n ▸ zero)
          rw [strnlen, if_pos goes, ok_bind next]
          rfl

theorem StringAt.tail {ch : BitVec 8} (string : StringAt s index precision (ch :: chars)) :
    StringAt s (index + 1) (if precision < 0 then precision else precision - 1) chars where
  stored := string.stored.2
  nonzero other member := string.nonzero other (List.mem_cons_of_mem _ member)
  short nonneg := by
    have short := string.short
    rw [List.length_cons] at short
    split at nonneg
    · omega
    · next positive =>
        rw [if_neg positive]
        have := short (by omega)
        omega
  ends unbounded := by
    have ends := string.ends
    rw [List.length_cons] at ends
    have shift : index + 1 + chars.length = index + (chars.length + 1) := by omega
    rw [shift]
    apply ends
    split at unbounded
    · next negative => exact .inl negative
    · next nonneg =>
        have short := string.short (Int.not_lt.1 nonneg)
        rw [List.length_cons] at short
        omega

/-- The loop takes the characters of the string. -/
theorem stringLoop_eq : ∀ (chars : List (BitVec 8)) (rounds index : Nat) (precision : Int), chars.length < rounds →
    StringAt s index precision chars → stringLoop s rounds index precision = .ok chars := by
  intro chars
  induction chars with
  | nil =>
      intro rounds index precision enough string
      cases rounds with
      | zero => exact absurd enough (Nat.lt_irrefl 0)
      | succ rounds =>
          have stops : ¬ (s index ≠ 0 ∧ (precision < 0 ∨ precision - 1 ≥ 0)) := by
            rintro ⟨nonzero, more⟩
            apply nonzero
            apply string.ends
            rw [List.length_nil]
            omega
          exact if_neg stops
  | cons ch chars ih =>
      intro rounds index precision enough string
      cases rounds with
      | zero => exact absurd enough (Nat.not_lt_zero _)
      | succ rounds =>
          have here : s index = ch := string.stored.1
          have goes : s index ≠ 0 ∧ (precision < 0 ∨ precision - 1 ≥ 0) := by
            refine ⟨here ▸ string.nonzero ch List.mem_cons_self, ?_⟩
            have short := string.short
            rw [List.length_cons] at short
            omega
          rw [stringLoop, if_pos goes, ok_bind (ih rounds (index + 1) _ (Nat.lt_of_succ_lt_succ enough) string.tail), here]
          rfl

/-- What the loop takes is a string. -/
theorem stringAt_of_stringLoop : ∀ (rounds index : Nat) (precision : Int) (chars : List (BitVec 8)),
    stringLoop s rounds index precision = .ok chars → StringAt s index precision chars ∧ chars.length < rounds := by
  intro rounds
  induction rounds with
  | zero =>
      intro index precision chars impossible
      cases impossible
  | succ rounds ih =>
      intro index precision chars returned
      rw [stringLoop] at returned
      split at returned
      · next goes =>
          obtain ⟨others, inner, last⟩ := bind_eq_ok.1 returned
          obtain ⟨string, enough⟩ := ih _ _ _ inner
          cases last
          refine ⟨⟨⟨rfl, string.stored⟩, ?_, ?_, ?_⟩, Nat.succ_lt_succ enough⟩
          · intro other member
            cases member with
            | head => exact goes.1
            | tail _ member => exact string.nonzero other member
          · intro nonneg
            have short := string.short
            rw [if_neg (by omega)] at short
            rw [List.length_cons]
            have := short (by omega)
            omega
          · intro unbounded
            have ends := string.ends
            have shift : index + (s index :: others).length = index + 1 + others.length := by
              rw [List.length_cons]
              omega
            rw [shift]
            rw [List.length_cons] at unbounded
            apply ends
            split
            · next negative => exact .inl negative
            · omega
      · next stops =>
          cases returned
          refine ⟨⟨trivial, fun _ member => absurd member List.not_mem_nil, fun nonneg => nonneg, ?_⟩, Nat.zero_lt_succ _⟩
          intro unbounded
          rw [List.length_nil] at unbounded ⊢
          by_contra nonzero
          exact stops ⟨nonzero, by omega⟩

theorem putString_eq (string : StringAt s 0 flags.precision chars) (enough : chars.length < limit) :
    putString limit flags s = .ok (paddedString flags chars) := by
  have loop := stringLoop_eq chars limit 0 flags.precision enough string
  have count : strnlen s limit 0 (toUInt32 flags.precision) = .ok (min chars.length (toUInt32 flags.precision)) := by
    apply strnlen_eq
    · omega
    · omega
    · intro before less
      rw [string.stored.get (by omega)]
      exact string.nonzero _ (List.getElem_mem _)
    · have ends := string.ends
      have short := string.short
      rw [Nat.zero_add] at ends ⊢
      cases Nat.lt_or_ge chars.length (toUInt32 flags.precision) with
      | inl less =>
          right
          rw [Nat.min_eq_left less.le]
          apply ends
          simp only [toUInt32, wordSize] at less
          omega
      | inr all => exact .inl (Nat.min_eq_right all)
  let left := long (flags.width - min chars.length (toUInt32 flags.precision))
  by_cases padded : flags.width > 0 ∧ flags.padc ≠ code '-'
  · have before : flags.padLeft limit s = .ok (List.replicate left.toNat flags.padc, min left 0) := by
      rw [Flags.padLeft, if_pos padded]
      exact ok_bind count
    rw [putString, ok_bind before, paddedString]
    simp only [if_pos padded]
    exact ok_bind loop
  · have before : flags.padLeft limit s = .ok ([], flags.width) := if_neg padded
    rw [putString, ok_bind before, paddedString]
    simp only [if_neg padded]
    exact ok_bind loop

theorem exists_of_putString (returned : putString limit flags s = .ok text) :
    ∃ chars, StringAt s 0 flags.precision chars ∧ text = paddedString flags chars := by
  obtain ⟨_, _, behind⟩ := bind_eq_ok.1 returned
  obtain ⟨chars, loop, _⟩ := bind_eq_ok.1 behind
  obtain ⟨string, enough⟩ := stringAt_of_stringLoop limit 0 flags.precision chars loop
  refine ⟨chars, string, ?_⟩
  rw [putString_eq string enough] at returned
  exact (Except.ok.inj returned).symm

/-- A string of the program is what it says. -/
theorem literal_stringAt {content : String} (nonzero : 0 ∉ characters content) :
    StringAt (literal content) 0 (-1) (characters content) where
  stored := by
    apply Stored.of_get
    intro index bound
    rw [literal, Nat.zero_add]
    exact List.getD_eq_getElem _ _ bound
  nonzero _ member zero := nonzero (zero ▸ member)
  short impossible := absurd impossible (by decide)
  ends _ := by
    rw [literal, Nat.zero_add]
    exact List.getD_eq_default _ _ (Nat.le_refl _)

theorem paddedString_initial (short : chars.length < 0x80000000) : paddedString .initial chars = chars.map signedChar := by
  have trailing : (long (-1 - (chars.length : Int))).toNat = 0 := by
    rw [long_eq (by omega) (by omega)]
    omega
  have shown : chars.map Flags.initial.shown = chars.map signedChar := by
    apply List.map_congr_left
    intro ch _
    exact if_neg fun impossible => Bool.false_ne_true impossible.1
  have narrow : ¬ (Flags.initial.width > 0 ∧ Flags.initial.padc ≠ code '-') := by decide
  simp only [paddedString, if_neg narrow, shown]
  change List.replicate 0 _ ++ _ ++ List.replicate (long (-1 - (chars.length : Int))).toNat _ = _
  rw [trailing, List.replicate_zero, List.nil_append, List.replicate_zero, List.append_nil]

theorem errorString_short : ∀ entry ∈ errorString, ∀ content ∈ entry,
    0 ∉ characters content ∧ (characters content).length < 32 := by
  decide +kernel

theorem StringAt.unique {others : List (BitVec 8)} (string : StringAt s index precision chars)
    (stringToo : StringAt s index precision others) : chars = others := by
  have enough := stringLoop_eq chars (max chars.length others.length + 1) index precision (by omega) string
  have enoughToo := stringLoop_eq others (max chars.length others.length + 1) index precision (by omega) stringToo
  exact Except.ok.inj (enough.symm.trans enoughToo)

/-- `-err` is negative only for the most negative number. -/
theorem magnitude_nonneg {err : BitVec 32} (negatable : err ≠ BitVec.intMin 32) :
    0 ≤ (if err.msb then -err else err).toInt := by
  split
  · next negative =>
      rw [BitVec.toInt_neg_of_ne_intMin negatable]
      have := BitVec.toInt_neg_of_msb_true negative
      omega
  · next positive => exact BitVec.toInt_nonneg_of_msb_false (Bool.not_eq_true _ ▸ positive)

theorem putError_cases {err : BitVec 32} (negatable : err ≠ BitVec.intMin 32) :
    putError limit err = .ok (errorText err) ∨ ∃ content, some content ∈ errorString ∧
      errorText err = (characters content).map signedChar ∧ putError limit err = putString limit .initial (literal content) := by
  have nonneg := magnitude_nonneg negatable
  unfold putError errorText
  generalize (if err.msb = true then -err else err) = number at nonneg ⊢
  have small : number.toInt = number.toNat := by
    rw [BitVec.toInt_eq_toNat_cond] at nonneg ⊢
    have := number.isLt
    split at nonneg
    · next less => rw [if_pos less]
    · omega
  have size : errorString.length = 101 := rfl
  have message : putSigned .initial (number.signExtend 64) = .ok (signedNumber .initial (number.signExtend 64)) :=
    putSigned_eq _ _
  dsimp only
  split
  · next large =>
      left
      rw [List.getD_eq_default _ _ (by omega)]
      exact ok_bind message
  · next near =>
      have inTable : number.toNat < errorString.length := by omega
      rw [if_neg (Int.not_lt.2 nonneg)]
      cases entry : errorString.getD number.toNat none with
      | none => exact .inl (ok_bind message)
      | some content =>
          rw [List.getD_eq_getElem _ _ inTable] at entry
          exact .inr ⟨content, entry ▸ List.getElem_mem inTable, rfl, rfl⟩

theorem putError_eq {err : BitVec 32} (negatable : err ≠ BitVec.intMin 32) (enough : 32 ≤ limit) :
    putError limit err = .ok (errorText err) := by
  cases putError_cases negatable with
  | inl returned => exact returned
  | inr entry =>
      obtain ⟨content, member, shown, returned⟩ := entry
      obtain ⟨nonzero, short⟩ := errorString_short _ member content rfl
      rw [returned, putString_eq (literal_stringAt nonzero) (by omega), paddedString_initial (by omega), shown]

theorem errorText_of_putError {err : BitVec 32} (returned : putError limit err = .ok text) :
    err ≠ BitVec.intMin 32 ∧ text = errorText err := by
  have negatable : err ≠ BitVec.intMin 32 := by
    rintro rfl
    cases returned
  refine ⟨negatable, ?_⟩
  cases @putError_cases limit err negatable with
  | inl same => exact Except.ok.inj (returned.symm.trans same)
  | inr entry =>
      obtain ⟨content, member, shown, same⟩ := entry
      obtain ⟨nonzero, short⟩ := errorString_short _ member content rfl
      obtain ⟨chars, string, rfl⟩ := exists_of_putString (same.symm.trans returned)
      have contents := string.unique (literal_stringAt nonzero)
      rw [contents, paddedString_initial (by omega), shown]

/-! ### Conversions -/

theorem vaArg_eq_ok {word : BitVec 32} (returned : vaArg ap = .ok (word, rest)) : ap = word :: rest := by
  cases ap with
  | nil => cases returned
  | cons first ap =>
      cases returned
      rfl

theorem getuint_eq {num : BitVec 64} {lflag : Nat} (integer : Integer lflag false ap num rest) :
    getuint ap lflag = .ok (num, rest) := by
  cases integer with
  | word short => exact if_neg (Nat.not_le.2 short)
  | pair long => exact if_pos long

theorem integer_of_getuint {num : BitVec 64} {lflag : Nat} (returned : getuint ap lflag = .ok (num, rest)) :
    Integer lflag false ap num rest := by
  unfold getuint at returned
  split at returned
  · next long =>
      obtain ⟨⟨low, behind⟩, first, returned⟩ := bind_eq_ok.1 returned
      obtain ⟨⟨high, last⟩, second, returned⟩ := bind_eq_ok.1 returned
      cases returned
      rw [vaArg_eq_ok first, vaArg_eq_ok second]
      exact .pair long
  · next short =>
      obtain ⟨⟨word, behind⟩, first, returned⟩ := bind_eq_ok.1 returned
      cases returned
      rw [vaArg_eq_ok first]
      exact .word (Nat.not_le.1 short)

theorem getint_eq {num : BitVec 64} {lflag : Nat} (integer : Integer lflag true ap num rest) :
    getint ap lflag = .ok (num, rest) := by
  cases integer with
  | word short => exact if_neg (Nat.not_le.2 short)
  | pair long => exact if_pos long

theorem integer_of_getint {num : BitVec 64} {lflag : Nat} (returned : getint ap lflag = .ok (num, rest)) :
    Integer lflag true ap num rest := by
  unfold getint at returned
  split at returned
  · next long =>
      obtain ⟨⟨low, behind⟩, first, returned⟩ := bind_eq_ok.1 returned
      obtain ⟨⟨high, last⟩, second, returned⟩ := bind_eq_ok.1 returned
      cases returned
      rw [vaArg_eq_ok first, vaArg_eq_ok second]
      exact .pair long
  · next short =>
      obtain ⟨⟨word, behind⟩, first, returned⟩ := bind_eq_ok.1 returned
      cases returned
      rw [vaArg_eq_ok first]
      exact .word (Nat.not_le.1 short)

theorem StringAt.shift {p : Nat} : StringAt (fun index => memory (p + index)) 0 precision chars ↔
    StringAt memory p precision chars := by
  have stored (position : Nat) : Stored (fun index => memory (p + index)) position chars ↔
      Stored memory (p + position) chars := by
    induction chars generalizing position with
    | nil => exact Iff.rfl
    | cons ch chars ih => exact and_congr_right' (ih (position + 1))
  constructor
  · intro string
    refine ⟨(stored 0).1 string.stored, string.nonzero, string.short, fun unbounded => ?_⟩
    rw [← string.ends unbounded, Nat.zero_add]
  · intro string
    refine ⟨(stored 0).2 string.stored, string.nonzero, string.short, fun unbounded => ?_⟩
    rw [← string.ends unbounded, Nat.zero_add]

/-- A pointer to a string is the same number in 64 bits. -/
private theorem toNat_setWidth (p : BitVec 32) : (p.setWidth 64).toNat = p.toNat := by
  rw [BitVec.toNat_setWidth]
  exact Nat.mod_eq_of_lt (p.isLt.trans (by decide))

theorem Shows.convert {conversion : Conversion} (shows : Shows memory conversion flags ap text rest) :
    ∃ least, ∀ limit ≥ least, convert memory limit flags ap conversion = .ok (text, rest) := by
  cases shows with
  | char => exact ⟨0, fun _ _ => rfl⟩
  | error negatable => exact ⟨32, fun limit enough => ok_bind (putError_eq negatable enough)⟩
  | @null _ chars _ string =>
      refine ⟨chars.length + 1, fun limit enough => ?_⟩
      exact ok_bind (putString_eq string enough)
  | @string _ p chars ap nonzero string =>
      refine ⟨chars.length + 1, fun limit enough => ?_⟩
      have returned := putString_eq (StringAt.shift.2 string) enough
      have chosen : (if p = 0 then literal "(null)" else fun index => memory (p.toNat + index)) =
          fun index => memory (p.toNat + index) := if_neg nonzero
      rw [← chosen] at returned
      exact ok_bind returned
  | decimal integer =>
      refine ⟨0, fun _ _ => ?_⟩
      rw [Library.convert, ok_bind (getint_eq integer)]
      exact ok_bind (putSigned_eq _ _)
  | unsigned integer =>
      refine ⟨0, fun _ _ => ?_⟩
      rw [Library.convert, ok_bind (getuint_eq integer)]
      exact ok_bind (putNumber_eq _ _ (by decide))
  | octal => exact ⟨0, fun _ _ => rfl⟩
  | @pointer _ p ap =>
      refine ⟨0, fun _ _ => ?_⟩
      rw [← toNat_setWidth p]
      exact ok_bind (putNumber_eq _ _ (by decide))
  | hexadecimal integer =>
      refine ⟨0, fun _ _ => ?_⟩
      rw [Library.convert, ok_bind (getuint_eq integer)]
      exact ok_bind (putNumber_eq _ _ (by decide))
  | percent => exact ⟨0, fun _ _ => rfl⟩

theorem shows_of_convert {conversion : Conversion} (returned : convert memory limit flags ap conversion = .ok (text, rest)) :
    Shows memory conversion flags ap text rest := by
  cases conversion with
  | char =>
      obtain ⟨⟨ch, behind⟩, first, returned⟩ := bind_eq_ok.1 returned
      cases returned
      rw [vaArg_eq_ok first]
      exact .char
  | error =>
      obtain ⟨⟨err, behind⟩, first, returned⟩ := bind_eq_ok.1 returned
      obtain ⟨shown, second, returned⟩ := bind_eq_ok.1 returned
      cases returned
      obtain ⟨negatable, rfl⟩ := errorText_of_putError second
      rw [vaArg_eq_ok first]
      exact .error negatable
  | string =>
      obtain ⟨⟨p, behind⟩, first, returned⟩ := bind_eq_ok.1 returned
      obtain ⟨shown, second, returned⟩ := bind_eq_ok.1 returned
      cases returned
      rw [vaArg_eq_ok first]
      obtain ⟨chars, string, rfl⟩ := exists_of_putString second
      cases decEq p 0 with
      | isTrue null =>
          subst null
          exact .null string
      | isFalse nonzero =>
          rw [if_neg nonzero] at string
          exact .string nonzero (StringAt.shift.1 string)
  | decimal =>
      obtain ⟨⟨value, behind⟩, first, returned⟩ := bind_eq_ok.1 returned
      obtain ⟨shown, second, returned⟩ := bind_eq_ok.1 returned
      cases (putSigned_eq flags value).symm.trans second
      cases returned
      exact .decimal (integer_of_getint first)
  | unsigned =>
      obtain ⟨⟨value, behind⟩, first, returned⟩ := bind_eq_ok.1 returned
      obtain ⟨shown, second, returned⟩ := bind_eq_ok.1 returned
      cases (putNumber_eq flags value (by decide)).symm.trans second
      cases returned
      exact .unsigned (integer_of_getuint first)
  | octal =>
      cases returned
      exact .octal
  | pointer =>
      obtain ⟨⟨p, behind⟩, first, returned⟩ := bind_eq_ok.1 returned
      obtain ⟨shown, second, returned⟩ := bind_eq_ok.1 returned
      cases (putNumber_eq flags _ (by decide)).symm.trans second
      cases returned
      rw [vaArg_eq_ok first, toNat_setWidth]
      exact .pointer
  | hexadecimal =>
      obtain ⟨⟨value, behind⟩, first, returned⟩ := bind_eq_ok.1 returned
      obtain ⟨shown, second, returned⟩ := bind_eq_ok.1 returned
      cases (putNumber_eq flags value (by decide)).symm.trans second
      cases returned
      exact .hexadecimal (integer_of_getuint first)
  | percent =>
      cases returned
      exact .percent

/-! ### Escape sequences -/

theorem long_digit (value : Nat) (digit : Nat) : long (long value * 10 + (digit + 48 : Nat) - 48) =
    long (value * 10 + digit : Nat) := by
  simp only [long, toInt32, toUInt32, wordSize]
  omega

theorem precisionLoop_eq : ∀ (digits : List Nat) (rounds fmt digit value : Nat), digits.length < rounds →
    (∀ other ∈ digit :: digits, other < 10) → Stored memory fmt (digits.map digitChar) →
    isDigit (memory (fmt + digits.length)) = false →
    precisionLoop memory rounds fmt (digitChar digit) (long value) =
      .ok (long (numberFrom value (digit :: digits)), fmt + digits.length) := by
  intro digits
  induction digits with
  | nil =>
      intro rounds fmt digit value enough small _ stops
      cases rounds with
      | zero => exact absurd enough (Nat.lt_irrefl 0)
      | succ rounds =>
          have notDigit : ¬ isDigit (memory fmt) = true := fun digit => Bool.false_ne_true (stops.symm.trans digit)
          have here := digitChar_toNat (small digit List.mem_cons_self)
          rw [precisionLoop, here, long_digit]
          exact if_neg notDigit
  | cons next digits ih =>
      intro rounds fmt digit value enough small stored stops
      cases rounds with
      | zero => exact absurd enough (Nat.not_lt_zero _)
      | succ rounds =>
          have smallBehind (other : Nat) (member : other ∈ next :: digits) : other < 10 :=
            small other (List.mem_cons_of_mem _ member)
          have first : memory fmt = digitChar next := stored.1
          have here := digitChar_toNat (small digit List.mem_cons_self)
          have shift : fmt + (next :: digits).length = fmt + 1 + digits.length := by
            rw [List.length_cons]
            omega
          rw [shift] at stops ⊢
          rw [precisionLoop, here, long_digit, first]
          refine (if_pos (isDigit_digitChar (smallBehind next List.mem_cons_self))).trans ?_
          exact ih rounds (fmt + 1) next (value * 10 + digit) (Nat.lt_of_succ_lt_succ enough) smallBehind stored.2 stops

/-- The loop goes back to the percent sign. -/
theorem defaultLoop_eq {start : Nat} (percent : memory start = byteOf '%') : ∀ count rounds : Nat, count < rounds →
    (∀ index < count, memory (start + 1 + index) ≠ byteOf '%') →
    defaultLoop memory rounds (start + 1 + count) = .ok (start + 1) := by
  intro count
  induction count with
  | zero =>
      intro rounds enough _
      cases rounds with
      | zero => exact absurd enough (Nat.lt_irrefl 0)
      | succ rounds => exact if_neg (not_not_intro percent)
  | succ count ih =>
      intro rounds enough others
      cases rounds with
      | zero => exact absurd enough (Nat.not_lt_zero _)
      | succ rounds =>
          have last : memory (start + 1 + (count + 1) - 1) ≠ byteOf '%' := others count (Nat.lt_succ_self count)
          refine (if_pos last).trans ?_
          exact ih rounds (Nat.lt_of_succ_lt_succ enough) fun index less => others index (Nat.lt_succ_of_lt less)

/-- The modifiers set the flags, one after the other. -/
theorem reswitch_modifiers {modifiers : List Modifier} (valid : Modifiers modifiers) : ∀ {fmt : Nat} {flags : Flags} {ap : VaList}
    {result : Text × Nat × VaList}, Stored memory fmt (modifiersText modifiers) →
    isDigit (memory (fmt + (modifiersText modifiers).length)) = false → (modifiersText modifiers).length < limit →
    (reswitch memory limit (modifiers.length + rounds) fmt flags ap = .ok result ↔
      ∃ last left, Sets modifiers flags ap last left ∧
        reswitch memory limit rounds (fmt + (modifiersText modifiers).length) last left = .ok result) := by
  induction valid with
  | nil =>
      intro fmt flags ap result _ _ _
      rw [List.length_nil, Nat.zero_add]
      constructor
      · exact fun returned => ⟨flags, ap, .nil, returned⟩
      · rintro ⟨_, _, sets, returned⟩
        cases sets
        exact returned
  | @single mark rest valid ih =>
      intro fmt flags ap result stored stops enough
      have here : memory fmt = mark.symbol := stored.1
      have shift : fmt + (modifiersText (.single mark :: rest)).length = fmt + 1 + (modifiersText rest).length := by
        rw [modifiersText_cons, List.length_append, Nat.add_assoc]
        rfl
      have count : (Modifier.single mark :: rest).length + rounds = rest.length + rounds + 1 := by
        rw [List.length_cons]
        omega
      rw [shift] at stops ⊢
      rw [modifiersText_cons, List.length_append] at enough
      rw [count, reswitch, here, switch_mark]
      refine bind_eq_ok.trans ?_
      constructor
      · rintro ⟨⟨next, behind⟩, applied, returned⟩
        obtain ⟨last, left, sets, returned⟩ := (ih stored.2 stops (by omega)).1 returned
        exact ⟨last, left, .cons applied sets, returned⟩
      · rintro ⟨last, left, sets, returned⟩
        cases sets with
        | cons applied sets => exact ⟨_, applied, (ih stored.2 stops (by omega)).2 ⟨last, left, sets, returned⟩⟩
  | @number n rest positive ends valid ih =>
      intro fmt flags ap result stored stops enough
      obtain ⟨digit, digits, written, nonzero, small⟩ := decimalDigits_cons positive
      have text : modifiersText (.number n :: rest) = digitChar digit :: (digits.map digitChar ++ modifiersText rest) := by
        rw [modifiersText_cons, Modifier.text, written]
        rfl
      have value : numberFrom 0 (digit :: digits) = n := written ▸ numberFrom_decimalDigits n
      have here : switch (digitChar digit) = .digit := by
        have starts := switch_modifiers (.number positive ends valid) []
        rw [text] at starts
        exact starts
      have shift : fmt + (modifiersText (.number n :: rest)).length = fmt + 1 + digits.length + (modifiersText rest).length := by
        rw [text, List.length_cons, List.length_append, List.length_map]
        omega
      have count : (Modifier.number n :: rest).length + rounds = rest.length + rounds + 1 := by
        rw [List.length_cons]
        omega
      rw [shift] at stops ⊢
      rw [text, List.length_cons, List.length_append, List.length_map] at enough
      rw [text] at stored
      have stored' := Stored.append_iff.1 stored.2
      rw [List.length_map] at stored'
      have behind : isDigit (memory (fmt + 1 + digits.length)) = false := by
        cases empty : modifiersText rest with
        | nil =>
            rw [empty] at stops
            exact stops
        | cons first more =>
            rw [empty] at ends stored'
            exact stored'.2.1 ▸ ends
      have loop := precisionLoop_eq digits limit (fmt + 1) digit 0 (by omega) small stored'.1 behind
      rw [value] at loop
      rw [count, reswitch, stored.1, here]
      refine bind_eq_ok.trans ?_
      constructor
      · rintro ⟨⟨precision, next⟩, looped, returned⟩
        cases loop.symm.trans looped
        obtain ⟨last, left, sets, returned⟩ := (ih stored'.2 stops (by omega)).1 returned
        exact ⟨last, left, .cons rfl sets, returned⟩
      · rintro ⟨last, left, sets, returned⟩
        cases sets with
        | cons applied sets =>
            cases applied
            exact ⟨_, loop, (ih stored'.2 stops (by omega)).2 ⟨last, left, sets, returned⟩⟩

theorem modifiersText_length (modifiers : List Modifier) : modifiers.length ≤ (modifiersText modifiers).length := by
  induction modifiers with
  | nil => exact Nat.le_refl 0
  | cons modifier modifiers ih =>
      have positive : 0 < modifier.text.length := by
        cases modifier with
        | single mark => exact Nat.zero_lt_one
        | number n =>
            rw [Modifier.text, List.length_map]
            exact List.length_pos_of_ne_nil (decimalDigits_ne_nil n)
      rw [modifiersText_cons, List.length_append, List.length_cons]
      omega

/-- No modifier is written with a percent sign or a NUL. -/
theorem modifiersText_plain {modifiers : List Modifier} {ch : BitVec 8} (member : ch ∈ modifiersText modifiers) :
    ch ≠ 0 ∧ ch ≠ byteOf '%' := by
  obtain ⟨modifier, _, inText⟩ := List.mem_flatMap.1 member
  cases modifier with
  | single mark =>
      rw [List.mem_singleton.1 inText]
      cases mark <;> decide
  | number n =>
      have digit := modifierNumber_all inText
      constructor
      · rintro rfl
        cases digit
      · rintro rfl
        cases digit

/-! ### Pieces -/

variable {modifiers : List Modifier} {conversion : Conversion} {pieces : List Piece} {ch : BitVec 8}

theorem vprintfmt_plain (here : memory fmt = ch) (nonzero : ch ≠ 0) (other : ch ≠ byteOf '%') :
    vprintfmt memory limit (rounds + 1) fmt ap = .ok text ↔
      ∃ behind, vprintfmt memory limit rounds (fmt + 1) ap = .ok behind ∧ text = unsignedChar ch :: behind := by
  rw [vprintfmt, here]
  refine (Eq.congr_left ((if_neg other).trans (if_neg nonzero))).trans (bind_eq_ok.trans ?_)
  constructor
  · rintro ⟨behind, returned, same⟩
    exact ⟨behind, returned, (Except.ok.inj same).symm⟩
  · rintro ⟨behind, returned, rfl⟩
    exact ⟨behind, returned, rfl⟩

theorem vprintfmt_run (run : List (BitVec 8)) : ∀ {fmt : Nat} {text : Text}, Stored memory fmt run →
    (∀ ch ∈ run, ch ≠ 0 ∧ ch ≠ byteOf '%') →
    (vprintfmt memory limit (run.length + rounds) fmt ap = .ok text ↔
      ∃ behind, vprintfmt memory limit rounds (fmt + run.length) ap = .ok behind ∧ text = run.map unsignedChar ++ behind) := by
  induction run with
  | nil =>
      intro fmt text _ _
      rw [List.length_nil, Nat.zero_add]
      constructor
      · exact fun returned => ⟨text, returned, rfl⟩
      · rintro ⟨behind, returned, rfl⟩
        exact returned
  | cons ch run ih =>
      intro fmt text stored plain
      have count : (ch :: run).length + rounds = run.length + rounds + 1 := by
        rw [List.length_cons]
        omega
      have shift : fmt + (ch :: run).length = fmt + 1 + run.length := by
        rw [List.length_cons]
        omega
      have first := plain ch List.mem_cons_self
      have others (other : BitVec 8) (member : other ∈ run) := plain other (List.mem_cons_of_mem _ member)
      rw [count, shift, vprintfmt_plain stored.1 first.1 first.2]
      constructor
      · rintro ⟨behind, returned, rfl⟩
        obtain ⟨last, ended, rfl⟩ := (ih stored.2 others).1 returned
        exact ⟨last, ended, rfl⟩
      · rintro ⟨last, returned, rfl⟩
        exact ⟨_, (ih stored.2 others).2 ⟨last, returned, rfl⟩, rfl⟩

/-- The escape sequence behind a percent sign. -/
private theorem vprintfmt_escape (here : memory fmt = byteOf '%') :
    vprintfmt memory limit (rounds + 1) fmt ap = .ok text ↔
      ∃ shown next left, reswitch memory limit limit (fmt + 1) .initial ap = .ok (shown, next, left) ∧
        ∃ behind, vprintfmt memory limit rounds next left = .ok behind ∧ text = shown ++ behind := by
  rw [vprintfmt, here]
  refine (Eq.congr_left (if_pos rfl)).trans (bind_eq_ok.trans ?_)
  constructor
  · rintro ⟨⟨shown, next, left⟩, switched, returned⟩
    obtain ⟨behind, returned, same⟩ := bind_eq_ok.1 returned
    exact ⟨shown, next, left, switched, behind, returned, (Except.ok.inj same).symm⟩
  · rintro ⟨shown, next, left, switched, behind, returned, rfl⟩
    exact ⟨(shown, next, left), switched, bind_eq_ok.2 ⟨behind, returned, rfl⟩⟩

/-- `limit` rounds are enough for the modifiers and what ends them. -/
theorem reswitch_limit (valid : Modifiers modifiers) (stored : Stored memory fmt (modifiersText modifiers))
    (stops : isDigit (memory (fmt + (modifiersText modifiers).length)) = false)
    (enough : (modifiersText modifiers).length < limit) :
    ∃ rounds, ∀ flags ap result, reswitch memory limit limit fmt flags ap = .ok result ↔
      ∃ last left, Sets modifiers flags ap last left ∧
        reswitch memory limit (rounds + 1) (fmt + (modifiersText modifiers).length) last left = .ok result := by
  have length := modifiersText_length modifiers
  have count : modifiers.length + (limit - modifiers.length - 1 + 1) = limit := by omega
  refine ⟨limit - modifiers.length - 1, fun flags ap result => ?_⟩
  have modified : reswitch memory limit (modifiers.length + (limit - modifiers.length - 1 + 1)) fmt flags ap = .ok result ↔ _ :=
    reswitch_modifiers valid stored stops enough
  rw [count] at modified
  exact modified

theorem vprintfmt_directive (valid : Modifiers modifiers) (here : memory fmt = byteOf '%')
    (stored : Stored memory (fmt + 1) (modifiersText modifiers))
    (symbol : memory (fmt + 1 + (modifiersText modifiers).length) = conversion.symbol)
    (enough : (modifiersText modifiers).length < limit) :
    vprintfmt memory limit (rounds + 1) fmt ap = .ok text ↔
      ∃ flags behind, Sets modifiers .initial ap flags behind ∧
        ∃ shown left, convert memory limit flags behind conversion = .ok (shown, left) ∧
          ∃ last, vprintfmt memory limit rounds (fmt + 1 + (modifiersText modifiers).length + 1) left = .ok last ∧
            text = shown ++ last := by
  have case := switch_conversion conversion
  rw [← symbol] at case
  have stops : isDigit (memory (fmt + 1 + (modifiersText modifiers).length)) = false :=
    not_isDigit_of_ends (case ▸ rfl)
  obtain ⟨some, sequence⟩ := reswitch_limit valid stored stops enough
  rw [vprintfmt_escape here]
  constructor
  · rintro ⟨shown, next, left, switched, last, returned, rfl⟩
    obtain ⟨flags, behind, sets, ended⟩ := (sequence _ _ _).1 switched
    rw [reswitch, case] at ended
    obtain ⟨⟨_, _⟩, converted, same⟩ := bind_eq_ok.1 ended
    cases same
    exact ⟨flags, behind, sets, shown, left, converted, last, returned, rfl⟩
  · rintro ⟨flags, behind, sets, shown, left, converted, last, returned, rfl⟩
    refine ⟨shown, _, left, (sequence _ _ _).2 ⟨flags, behind, sets, ?_⟩, last, returned, rfl⟩
    rw [reswitch, case]
    exact ok_bind converted

theorem vprintfmt_malformed (valid : Modifiers modifiers) (here : memory fmt = byteOf '%')
    (stored : Stored memory (fmt + 1) (modifiersText modifiers))
    (default : switch (memory (fmt + 1 + (modifiersText modifiers).length)) = .default)
    (enough : (modifiersText modifiers).length < limit) :
    vprintfmt memory limit (rounds + 1) fmt ap = .ok text ↔
      ∃ flags behind, Sets modifiers .initial ap flags behind ∧
        ∃ last, vprintfmt memory limit rounds (fmt + 1) behind = .ok last ∧ text = code '%' :: last := by
  have stops : isDigit (memory (fmt + 1 + (modifiersText modifiers).length)) = false :=
    not_isDigit_of_ends (default ▸ rfl)
  obtain ⟨some, sequence⟩ := reswitch_limit valid stored stops enough
  have back : defaultLoop memory limit (fmt + 1 + (modifiersText modifiers).length) = .ok (fmt + 1) := by
    apply defaultLoop_eq here _ _ enough
    intro index inText
    rw [stored.get inText]
    exact (modifiersText_plain (List.getElem_mem inText)).2
  rw [vprintfmt_escape here]
  constructor
  · rintro ⟨shown, next, left, switched, last, returned, rfl⟩
    obtain ⟨flags, behind, sets, ended⟩ := (sequence _ _ _).1 switched
    rw [reswitch, default] at ended
    obtain ⟨_, looped, same⟩ := bind_eq_ok.1 ended
    cases back.symm.trans looped
    cases same
    exact ⟨flags, left, sets, last, returned, rfl⟩
  · rintro ⟨flags, behind, sets, last, returned, rfl⟩
    refine ⟨[code '%'], _, behind, (sequence _ _ _).2 ⟨flags, behind, sets, ?_⟩, last, returned, rfl⟩
    rw [reswitch, default]
    exact ok_bind back

/-! ### Formats -/

theorem Terminated.first {chars : List (BitVec 8)} (terminated : Terminated memory fmt chars) : memory fmt = current chars := by
  cases chars with
  | nil => exact terminated.ends
  | cons ch chars => exact terminated.stored.1

theorem renders_of_vprintfmt (format : Format pieces) : ∀ {rounds fmt : Nat} {ap : VaList} {text : Text},
    Terminated memory fmt (formatText pieces) → (formatText pieces).length < limit → (formatText pieces).length < rounds →
    vprintfmt memory limit rounds fmt ap = .ok text → Renders memory pieces ap text := by
  induction format with
  | nil =>
      intro rounds fmt ap text terminated _ more returned
      cases rounds with
      | zero => exact absurd more (Nat.lt_irrefl 0)
      | succ rounds =>
          have here : memory fmt = 0 := terminated.ends
          rw [Library.vprintfmt, here] at returned
          cases returned
          exact .nil
  | @plain ch rest nonzero other format ih =>
      intro rounds fmt ap text terminated enough more returned
      cases rounds with
      | zero => exact absurd more (Nat.not_lt_zero _)
      | succ rounds =>
          obtain ⟨behind, ended, rfl⟩ := (vprintfmt_plain terminated.stored.1 nonzero other).1 returned
          exact .plain (ih terminated.tail (Nat.lt_of_succ_lt enough) (Nat.lt_of_succ_lt_succ more) ended)
  | @directive modifiers conversion rest valid format ih =>
      intro rounds fmt ap text terminated enough more returned
      rw [formatText_directive] at terminated enough more
      rw [List.length_cons, List.length_append, List.length_cons] at enough more
      have behind := terminated.tail.behind
      cases rounds with
      | zero => exact absurd more (Nat.not_lt_zero _)
      | succ rounds =>
          have stored := (Stored.append_iff.1 terminated.stored.2).1
          have short : (modifiersText modifiers).length < limit := by omega
          have shorter : (formatText rest).length < limit := by omega
          obtain ⟨flags, left, sets, shown, next, converted, last, ended, rfl⟩ :=
            (vprintfmt_directive valid terminated.stored.1 stored behind.stored.1 short).1 returned
          exact .directive sets (shows_of_convert converted) (ih behind.tail shorter (by omega) ended)
  | @malformed modifiers rest valid default format ih =>
      intro rounds fmt ap text terminated enough more returned
      rw [formatText_malformed] at terminated enough more
      rw [List.length_cons, List.length_append] at enough more
      have behind := terminated.tail.behind
      cases rounds with
      | zero => exact absurd more (Nat.not_lt_zero _)
      | succ rounds =>
          have stored := (Stored.append_iff.1 terminated.stored.2).1
          have short : (modifiersText modifiers).length < limit := by omega
          have shorter : (formatText rest).length < limit := by omega
          obtain ⟨flags, left, sets, last, ended, rfl⟩ :=
            (vprintfmt_malformed valid terminated.stored.1 stored (behind.first ▸ default) short).1 returned
          have count : rounds = (modifiersText modifiers).length + (rounds - (modifiersText modifiers).length) := by omega
          rw [count] at ended
          obtain ⟨others, after, rfl⟩ := (vprintfmt_run _ stored fun _ => modifiersText_plain).1 ended
          exact .malformed sets (ih behind shorter (by omega) after)

theorem Renders.vprintfmt (renders : Renders memory pieces ap text) (format : Format pieces) :
    ∃ least, ∀ limit ≥ least, ∀ rounds fmt, Terminated memory fmt (formatText pieces) → (formatText pieces).length < rounds →
      vprintfmt memory limit rounds fmt ap = .ok text := by
  induction renders with
  | nil =>
      refine ⟨0, fun limit _ rounds fmt terminated more => ?_⟩
      cases rounds with
      | zero => exact absurd more (Nat.lt_irrefl 0)
      | succ rounds =>
          have here : memory fmt = 0 := terminated.ends
          rw [Library.vprintfmt, here]
          rfl
  | plain renders ih =>
      cases format with
      | plain nonzero other format =>
          obtain ⟨least, returns⟩ := ih format
          refine ⟨least, fun limit enough rounds fmt terminated more => ?_⟩
          cases rounds with
          | zero => exact absurd more (Nat.not_lt_zero _)
          | succ rounds =>
              have behind := returns limit enough rounds (fmt + 1) terminated.tail (Nat.lt_of_succ_lt_succ more)
              exact (vprintfmt_plain terminated.stored.1 nonzero other).2 ⟨_, behind, rfl⟩
  | @directive modifiers conversion rest ap flags left shown next text sets shows renders ih =>
      cases format with
      | directive valid format =>
          obtain ⟨least, returns⟩ := ih format
          obtain ⟨leastToo, converts⟩ := shows.convert
          refine ⟨max (max least leastToo) ((modifiersText modifiers).length + 1),
              fun limit enough rounds fmt terminated more => ?_⟩
          rw [formatText_directive] at terminated more
          rw [List.length_cons, List.length_append, List.length_cons] at more
          have behind := terminated.tail.behind
          have stored := (Stored.append_iff.1 terminated.stored.2).1
          cases rounds with
          | zero => exact absurd more (Nat.not_lt_zero _)
          | succ rounds =>
              have last := returns limit (by omega) rounds _ behind.tail (by omega)
              apply (vprintfmt_directive valid terminated.stored.1 stored behind.stored.1 (by omega)).2
              exact ⟨flags, left, sets, shown, next, converts limit (by omega), text, last, rfl⟩
  | @malformed modifiers rest ap flags left text sets renders ih =>
      cases format with
      | malformed valid default format =>
          obtain ⟨least, returns⟩ := ih format
          refine ⟨max least ((modifiersText modifiers).length + 1), fun limit enough rounds fmt terminated more => ?_⟩
          rw [formatText_malformed] at terminated more
          rw [List.length_cons, List.length_append] at more
          have behind := terminated.tail.behind
          have stored := (Stored.append_iff.1 terminated.stored.2).1
          cases rounds with
          | zero => exact absurd more (Nat.not_lt_zero _)
          | succ rounds =>
              have count : rounds = (modifiersText modifiers).length + (rounds - (modifiersText modifiers).length) := by omega
              have last := returns limit (by omega) (rounds - (modifiersText modifiers).length) _ behind (by omega)
              have run := (vprintfmt_run _ stored fun _ => modifiersText_plain).2 ⟨text, last, rfl⟩
              rw [← count] at run
              exact (vprintfmt_malformed valid terminated.stored.1 stored (behind.first ▸ default) (by omega)).2
                ⟨flags, left, sets, _, run, rfl⟩

/-- `vprintfmt` prints what its format makes of the arguments: it does if it is given enough rounds, and nothing else. -/
theorem vprintfmt_iff (format : Format pieces) (terminated : Terminated memory fmt (formatText pieces)) :
    (∃ least, ∀ limit ≥ least, vprintfmt memory limit limit fmt ap = .ok text) ↔ Renders memory pieces ap text := by
  constructor
  · rintro ⟨least, returns⟩
    have enough : (formatText pieces).length < max least ((formatText pieces).length + 1) := by omega
    exact renders_of_vprintfmt format terminated enough enough (returns _ (Nat.le_max_left _ _))
  · intro renders
    obtain ⟨least, returns⟩ := renders.vprintfmt format
    refine ⟨max least ((formatText pieces).length + 1), fun limit enough => ?_⟩
    exact returns limit (by omega) limit fmt terminated (by omega)

/-- Every format has one reading, and `vprintfmt` goes by it. -/
theorem vprintfmt_interprets {chars : List (BitVec 8)} (terminated : Terminated memory fmt chars) :
    ∃ pieces, (Format pieces ∧ formatText pieces = chars ∧
        ∀ others, Format others → formatText others = chars → others = pieces) ∧
      ∀ ap text, (∃ least, ∀ limit ≥ least, vprintfmt memory limit limit fmt ap = .ok text) ↔ Renders memory pieces ap text := by
  obtain ⟨pieces, ⟨format, rfl⟩, unique⟩ := existsUnique_format terminated.nonzero
  refine ⟨pieces, ⟨format, rfl, fun others valid same => unique others ⟨valid, same⟩⟩, fun ap text => ?_⟩
  exact vprintfmt_iff format terminated

private def formatMemory : Bytes := literal "n=%05d%"

private theorem formatMemory_terminated : Terminated formatMemory 0 (characters "n=%05d%") where
  stored := ⟨by decide, by decide, by decide, by decide, by decide, by decide, by decide, trivial⟩
  ends := by decide
  nonzero := by decide

/-- A malformed sequence at the end shows itself. -/
theorem vprintfmt_interprets_run :
    ∃ least, ∀ limit ≥ least, vprintfmt formatMemory limit limit 0 [-42] = .ok ("n=-00042%".toList.map code) := by
  obtain ⟨pieces, ⟨_, _, unique⟩, interprets⟩ := vprintfmt_interprets formatMemory_terminated
  have modifiers : Modifiers [.single .zero, .number 5] := .single (.number (by decide) (by decide) .nil)
  have format : Format [.plain (byteOf 'n'), .plain (byteOf '='), .directive [.single .zero, .number 5] .decimal,
      .malformed []] :=
    .plain (by decide) (by decide) (.plain (by decide) (by decide) (.directive modifiers (.malformed .nil (by decide) .nil)))
  rw [← unique _ format (by decide +kernel)] at interprets
  apply (interprets _ _).2
  have number : Renders formatMemory [.directive [.single .zero, .number 5] .decimal, .malformed []] [-42]
      ("-00042".toList.map code ++ ([code '%'] ++ [])) :=
    .directive (.cons rfl (.cons rfl .nil)) (.decimal (.word (by decide))) (.malformed .nil .nil)
  exact .plain (.plain number)

end Fos.Library
