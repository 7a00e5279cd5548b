import Fos.Library.Formats
import Mathlib.Data.List.TakeWhile

/-! Every text is the format of exactly one sequence of pieces. -/

set_option autoImplicit false

namespace Fos.Library

variable {ch : BitVec 8} {rest others behind : List (BitVec 8)} {n : Nat}

/-! ### Characters -/

theorem switch_mark (mark : Mark) : switch mark.symbol = .mark mark := by
  cases mark <;> decide

theorem switch_conversion (conversion : Conversion) : switch conversion.symbol = .conversion conversion := by
  cases conversion <;> decide

/-- What a case tells of a character. -/
def Case.Tells (ch : BitVec 8) : Case → Prop
  | .mark kind => ch = kind.symbol
  | .digit => isDigit ch = true ∧ ch ≠ byteOf '0'
  | .conversion kind => ch = kind.symbol ∧ isDigit ch = false
  | .default => isDigit ch = false

instance (ch : BitVec 8) : ∀ case : Case, Decidable (case.Tells ch)
  | .mark mark => inferInstanceAs (Decidable (ch = mark.symbol))
  | .digit => inferInstanceAs (Decidable (isDigit ch = true ∧ ch ≠ byteOf '0'))
  | .conversion conversion => inferInstanceAs (Decidable (ch = conversion.symbol ∧ isDigit ch = false))
  | .default => inferInstanceAs (Decidable (isDigit ch = false))

theorem switch_tells (ch : BitVec 8) : (switch ch).Tells ch := by
  revert ch
  decide +kernel

theorem eq_mark_of_switch {mark : Mark} (same : switch ch = .mark mark) : ch = mark.symbol := by
  have spec := switch_tells ch
  rw [same] at spec
  exact spec

theorem eq_conversion_of_switch {conversion : Conversion} (same : switch ch = .conversion conversion) :
    ch = conversion.symbol := by
  have spec := switch_tells ch
  rw [same] at spec
  exact spec.1

theorem isDigit_of_switch (same : switch ch = .digit) : isDigit ch = true ∧ ch ≠ byteOf '0' := by
  have spec := switch_tells ch
  rw [same] at spec
  exact spec

theorem switch_of_isDigit (digit : isDigit ch = true) (nonzero : ch ≠ byteOf '0') : switch ch = .digit := by
  have spec := switch_tells ch
  cases here : switch ch with
  | mark mark =>
      rw [here] at spec
      subst spec
      cases mark with
      | zero => exact absurd rfl nonzero
      | _ => exact absurd digit (by decide)
  | digit => rfl
  | conversion conversion =>
      rw [here] at spec
      exact absurd digit (spec.2 ▸ Bool.false_ne_true)
  | default =>
      rw [here] at spec
      exact absurd digit (spec ▸ Bool.false_ne_true)

theorem isDigit_digitChar {digit : Nat} (small : digit < 10) : isDigit (digitChar digit) = true := by
  revert digit
  decide

theorem exists_digitChar (isDigit : isDigit ch = true) : ∃ digit < 10, digitChar digit = ch := by
  revert ch
  decide +kernel

/-- Neither a mark nor a number starts with the character. -/
def Case.ends : Case → Bool
  | .mark _ => false
  | .digit => false
  | .conversion _ => true
  | .default => true

theorem not_isDigit_of_ends (ends : (switch ch).ends = true) : isDigit ch = false := by
  have spec := switch_tells ch
  cases here : switch ch with
  | mark mark =>
      rw [here] at ends
      cases ends
  | digit =>
      rw [here] at ends
      cases ends
  | conversion conversion =>
      rw [here] at spec
      exact spec.2
  | default =>
      rw [here] at spec
      exact spec

/-! ### Numbers -/

theorem numberFrom_eq (digits : List Nat) : numberFrom 0 digits = Nat.ofDigits 10 digits.reverse := by
  rw [Nat.ofDigits_eq_foldr, List.foldr_reverse, numberFrom]
  congr 1
  funext value digit
  rw [Nat.mul_comm, Nat.add_comm]
  rfl

/-- Digits that do not start with a zero are those of the number they make. -/
theorem decimalDigits_numberFrom {digit : Nat} {digits : List Nat} (small : ∀ other ∈ digit :: digits, other < 10)
    (nonzero : digit ≠ 0) : decimalDigits (numberFrom 0 (digit :: digits)) = digit :: digits ∧
      0 < numberFrom 0 (digit :: digits) := by
  have last (nonempty : (digit :: digits).reverse ≠ []) : (digit :: digits).reverse.getLast nonempty ≠ 0 := by
    rw [List.getLast_reverse]
    exact nonzero
  have back : Nat.digits 10 (numberFrom 0 (digit :: digits)) = (digit :: digits).reverse := by
    rw [numberFrom_eq]
    exact Nat.digits_ofDigits 10 (by decide) _ (fun other member => small other (List.mem_reverse.1 member)) last
  have positive : numberFrom 0 (digit :: digits) ≠ 0 := by
    intro zero
    rw [zero, Nat.digits_zero] at back
    exact List.cons_ne_nil _ _ (List.reverse_eq_nil_iff.1 back.symm)
  constructor
  · rw [decimalDigits, if_neg positive, back, List.reverse_reverse]
  · exact Nat.pos_of_ne_zero positive

theorem decimalDigits_cons (positive : 0 < n) :
    ∃ digit digits, decimalDigits n = digit :: digits ∧ digit ≠ 0 ∧ ∀ other ∈ digit :: digits, other < 10 := by
  have small := @decimalDigits_lt n
  have nonzero : n ≠ 0 := positive.ne'
  have some : Nat.digits 10 n ≠ [] := fun empty => nonzero (Nat.digits_eq_nil_iff_eq_zero.1 empty)
  have last := Nat.getLast_digit_ne_zero 10 nonzero
  cases digits : decimalDigits n with
  | nil => exact absurd digits (decimalDigits_ne_nil n)
  | cons digit rest =>
      rw [digits] at small
      refine ⟨digit, rest, rfl, ?_, small⟩
      rw [decimalDigits, if_neg nonzero] at digits
      have reversed : Nat.digits 10 n = rest.reverse ++ [digit] := by
        rw [← List.reverse_cons, ← digits, List.reverse_reverse]
      simp only [reversed, List.getLast_append_singleton] at last
      exact last

theorem modifierNumber_all {other : BitVec 8} (member : other ∈ (Modifier.number n).text) : isDigit other = true := by
  obtain ⟨digit, inDigits, rfl⟩ := List.mem_map.1 member
  exact isDigit_digitChar (decimalDigits_lt digit inDigits)

/-- Where a number ends is seen from the character behind it. -/
theorem number_unique {other : Nat} {more : List (BitVec 8)} (ends : isDigit (current rest) = false)
    (endsToo : isDigit (current more) = false)
    (same : (Modifier.number n).text ++ rest = (Modifier.number other).text ++ more) : n = other ∧ rest = more := by
  have taken {n : Nat} {rest : List (BitVec 8)} (ends : isDigit (current rest) = false) :
      ((Modifier.number n).text ++ rest).takeWhile isDigit = (Modifier.number n).text := by
    have nothing : rest.takeWhile isDigit = [] := by
      cases rest with
      | nil => rfl
      | cons char rest => exact List.takeWhile_cons_of_neg (Bool.not_eq_true _ ▸ ends)
    rw [List.takeWhile_append_of_pos fun _ => modifierNumber_all, nothing, List.append_nil]
  have digits : (Modifier.number n).text = (Modifier.number other).text := by
    rw [← taken ends, same, taken endsToo]
  have numbers : decimalDigits n = decimalDigits other := map_digitChar_cancel decimalDigits_lt decimalDigits_lt digits
  constructor
  · rw [← numberFrom_decimalDigits n, numbers, numberFrom_decimalDigits]
  · rw [digits] at same
    exact List.append_cancel_left same

/-! ### Modifiers -/

theorem exists_digits (run : List (BitVec 8)) (each : ∀ ch ∈ run, isDigit ch = true) :
    ∃ digits : List Nat, (∀ digit ∈ digits, digit < 10) ∧ digits.map digitChar = run := by
  induction run with
  | nil => exact ⟨[], fun _ member => absurd member List.not_mem_nil, rfl⟩
  | cons ch run ih =>
      obtain ⟨digit, small, rfl⟩ := exists_digitChar (each ch List.mem_cons_self)
      obtain ⟨digits, smallToo, rfl⟩ := ih fun other member => each other (List.mem_cons_of_mem _ member)
      refine ⟨digit :: digits, fun other member => ?_, rfl⟩
      cases member with
      | head => exact small
      | tail _ member => exact smallToo other member

/-- The digits at the front, as a number. -/
theorem exists_number (first : isDigit ch = true) (nonzero : ch ≠ byteOf '0') (rest : List (BitVec 8)) :
    ∃ n others, 0 < n ∧ isDigit (current others) = false ∧ ch :: rest = (Modifier.number n).text ++ others ∧
      others.length ≤ rest.length := by
  obtain ⟨digit, small, rfl⟩ := exists_digitChar first
  obtain ⟨digits, smallToo, run⟩ := exists_digits (rest.takeWhile isDigit) fun _ => List.mem_takeWhile_imp
  have all : ∀ other ∈ digit :: digits, other < 10 := by
    intro other member
    cases member with
    | head => exact small
    | tail _ member => exact smallToo other member
  have notZero : digit ≠ 0 := by
    rintro rfl
    exact nonzero rfl
  obtain ⟨digitsBack, positive⟩ := decimalDigits_numberFrom all notZero
  refine ⟨numberFrom 0 (digit :: digits), rest.dropWhile isDigit, positive, ?_, ?_, ?_⟩
  · cases behind : rest.dropWhile isDigit with
    | nil => rfl
    | cons other more =>
        have stops := List.head_dropWhile_not isDigit (behind ▸ List.cons_ne_nil other more)
        simp only [behind, List.head_cons] at stops
        exact stops
  · rw [Modifier.text, digitsBack, List.map_cons, run, List.cons_append, List.takeWhile_append_dropWhile]
  · exact (List.dropWhile_suffix isDigit).length_le

theorem modifiersText_cons (modifier : Modifier) (modifiers : List Modifier) :
    modifiersText (modifier :: modifiers) = modifier.text ++ modifiersText modifiers := rfl

/-- Every text starts with modifiers, as many as there are. -/
theorem exists_modifiers (length : Nat) : ∀ text : List (BitVec 8), text.length ≤ length →
    ∃ modifiers behind, Modifiers modifiers ∧ (switch (current behind)).ends = true ∧
      text = modifiersText modifiers ++ behind := by
  induction length with
  | zero =>
      intro text short
      have empty := List.eq_nil_of_length_eq_zero (Nat.le_zero.1 short)
      exact ⟨[], text, .nil, empty ▸ by decide, rfl⟩
  | succ length ih =>
      intro text short
      cases text with
      | nil => exact ⟨[], [], .nil, by decide, rfl⟩
      | cons ch text =>
          have shorter := Nat.le_of_succ_le_succ short
          cases here : switch ch with
          | mark mark =>
              obtain ⟨modifiers, behind, valid, ends, rfl⟩ := ih text shorter
              refine ⟨.single mark :: modifiers, behind, .single valid, ends, ?_⟩
              rw [eq_mark_of_switch here]
              rfl
          | digit =>
              obtain ⟨isDigit, nonzero⟩ := isDigit_of_switch here
              obtain ⟨n, others, positive, stops, written, less⟩ := exists_number isDigit nonzero text
              obtain ⟨modifiers, behind, valid, ends, rfl⟩ := ih others (less.trans shorter)
              have follows : Library.isDigit (current (modifiersText modifiers)) = false := by
                cases empty : modifiersText modifiers with
                | nil => rfl
                | cons first more =>
                    rw [empty] at stops
                    exact stops
              refine ⟨.number n :: modifiers, behind, .number positive follows valid, ends, ?_⟩
              rw [written, modifiersText_cons, List.append_assoc]
          | conversion conversion => exact ⟨[], ch :: text, .nil, by rw [current, here]; rfl, rfl⟩
          | default => exact ⟨[], ch :: text, .nil, by rw [current, here]; rfl, rfl⟩

theorem stops_append (stops : isDigit (current rest) = false) (ends : (switch (current behind)).ends = true) :
    isDigit (current (rest ++ behind)) = false := by
  cases rest with
  | nil => exact not_isDigit_of_ends ends
  | cons ch rest => exact stops

/-- What some modifiers start with. -/
theorem switch_modifiers {modifier : Modifier} {modifiers : List Modifier} (valid : Modifiers (modifier :: modifiers))
    (behind : List (BitVec 8)) :
    switch (current (modifiersText (modifier :: modifiers) ++ behind)) =
      match modifier with
      | .single mark => .mark mark
      | .number _ => .digit := by
  cases valid with
  | single rest => exact switch_mark _
  | number positive ends rest =>
      obtain ⟨digit, digits, written, nonzero, small⟩ := decimalDigits_cons positive
      have first : digit < 10 := small digit List.mem_cons_self
      simp only [modifiersText_cons, Modifier.text, written, List.map_cons, List.cons_append, current]
      apply switch_of_isDigit (isDigit_digitChar first)
      intro zero
      have code := congrArg BitVec.toNat zero
      rw [digitChar_toNat first] at code
      exact nonzero (Nat.add_right_cancel code)

/-- Text behind modifiers does not start as modifiers do. -/
private theorem modifiers_end {modifier : Modifier} {modifiers : List Modifier} (valid : Modifiers (modifier :: modifiers))
    (ends : (switch (current behind)).ends = true) : behind ≠ modifiersText (modifier :: modifiers) ++ others := by
  intro same
  have starts := switch_modifiers valid others
  rw [← same] at starts
  rw [starts] at ends
  cases modifier <;> cases ends

theorem modifiers_unique {modifiers others : List Modifier} (valid : Modifiers modifiers) (validToo : Modifiers others)
    {more : List (BitVec 8)} (ends : (switch (current behind)).ends = true) (endsToo : (switch (current more)).ends = true)
    (same : modifiersText modifiers ++ behind = modifiersText others ++ more) : modifiers = others ∧ behind = more := by
  induction valid generalizing others with
  | nil =>
      cases others with
      | nil => exact ⟨rfl, same⟩
      | cons other others => exact absurd same (modifiers_end validToo ends)
  | @single mark rest valid ih =>
      have whole : Modifiers (.single mark :: rest) := .single valid
      have starts := switch_modifiers whole behind
      cases validToo with
      | nil => exact absurd same.symm (modifiers_end (.single valid) endsToo)
      | @single other others validToo =>
          have wholeToo : Modifiers (.single other :: others) := .single validToo
          have startsToo := switch_modifiers wholeToo more
          rw [same, startsToo] at starts
          cases starts
          obtain ⟨rfl, rfl⟩ := ih validToo (List.cons.inj same).2
          exact ⟨rfl, rfl⟩
      | @number n others positive stops validToo =>
          have startsToo := switch_modifiers (.number positive stops validToo) more
          rw [same, startsToo] at starts
          cases starts
  | @number n rest positive stops valid ih =>
      have starts := switch_modifiers (.number positive stops valid) behind
      cases validToo with
      | nil => exact absurd same.symm (modifiers_end (.number positive stops valid) endsToo)
      | @single other others validToo =>
          have wholeToo : Modifiers (.single other :: others) := .single validToo
          have startsToo := switch_modifiers wholeToo more
          rw [same, startsToo] at starts
          cases starts
      | @number other others positiveToo stopsToo validToo =>
          rw [modifiersText_cons, modifiersText_cons, List.append_assoc, List.append_assoc] at same
          obtain ⟨rfl, rest⟩ := number_unique (stops_append stops ends) (stops_append stopsToo endsToo) same
          obtain ⟨rfl, rfl⟩ := ih validToo rest
          exact ⟨rfl, rfl⟩

/-! ### Formats -/

theorem exists_format (length : Nat) : ∀ text : List (BitVec 8), text.length ≤ length → (∀ ch ∈ text, ch ≠ 0) →
    ∃ pieces, Format pieces ∧ formatText pieces = text := by
  induction length with
  | zero =>
      intro text short _
      exact ⟨[], .nil, (List.eq_nil_of_length_eq_zero (Nat.le_zero.1 short)).symm⟩
  | succ length ih =>
      intro text short nonzero
      cases text with
      | nil => exact ⟨[], .nil, rfl⟩
      | cons ch text =>
          have shorter := Nat.le_of_succ_le_succ short
          have nonzeroToo (other : BitVec 8) (member : other ∈ text) : other ≠ 0 := nonzero other (List.mem_cons_of_mem _ member)
          cases decEq ch (byteOf '%') with
          | isFalse plain =>
              obtain ⟨pieces, format, rfl⟩ := ih text shorter nonzeroToo
              exact ⟨.plain ch :: pieces, .plain (nonzero ch List.mem_cons_self) plain format, rfl⟩
          | isTrue percent =>
              subst percent
              obtain ⟨modifiers, behind, valid, ends, rfl⟩ := exists_modifiers text.length text (Nat.le_refl _)
              have less : behind.length ≤ length := by
                rw [List.length_append] at shorter
                exact (Nat.le_add_left _ _).trans shorter
              have nonzeroBehind (other : BitVec 8) (member : other ∈ behind) : other ≠ 0 :=
                nonzeroToo other (List.mem_append_right _ member)
              cases here : switch (current behind) with
              | mark mark =>
                  rw [here] at ends
                  cases ends
              | digit =>
                  rw [here] at ends
                  cases ends
              | default =>
                  obtain ⟨pieces, format, rfl⟩ := ih behind less nonzeroBehind
                  exact ⟨.malformed modifiers :: pieces, .malformed valid here format, rfl⟩
              | conversion conversion =>
                  cases behind with
                  | nil => cases here
                  | cons symbol behind =>
                      obtain ⟨pieces, format, rfl⟩ := ih behind (Nat.le_of_succ_le less) fun other member =>
                        nonzeroBehind other (List.mem_cons_of_mem _ member)
                      refine ⟨.directive modifiers conversion :: pieces, .directive valid format, ?_⟩
                      have symbolIs : symbol = conversion.symbol := eq_conversion_of_switch here
                      rw [symbolIs]
                      simp only [formatText, List.flatMap_cons, Piece.text, List.cons_append, List.append_assoc, List.nil_append]

theorem formatText_directive (modifiers : List Modifier) (conversion : Conversion) (pieces : List Piece) :
    formatText (.directive modifiers conversion :: pieces) =
      byteOf '%' :: (modifiersText modifiers ++ conversion.symbol :: formatText pieces) := by
  simp only [formatText, List.flatMap_cons, Piece.text, List.cons_append, List.append_assoc, List.nil_append]

theorem formatText_malformed (modifiers : List Modifier) (pieces : List Piece) :
    formatText (.malformed modifiers :: pieces) = byteOf '%' :: (modifiersText modifiers ++ formatText pieces) := rfl

private theorem conversion_ends (conversion : Conversion) : (switch (current (conversion.symbol :: rest))).ends = true := by
  rw [current, switch_conversion]
  rfl

theorem Format.unique {pieces others : List Piece} (format : Format pieces) (formatToo : Format others)
    (same : formatText pieces = formatText others) : pieces = others := by
  induction format generalizing others with
  | nil =>
      cases formatToo with
      | nil => rfl
      | plain => cases same
      | directive => cases same
      | malformed => cases same
  | plain nonzero other format ih =>
      cases formatToo with
      | nil => cases same
      | plain nonzeroToo otherToo formatToo =>
          obtain ⟨rfl, rest⟩ := List.cons.inj same
          rw [ih formatToo rest]
      | directive => exact absurd (List.cons.inj same).1 other
      | malformed => exact absurd (List.cons.inj same).1 other
  | @directive modifiers conversion rest valid format ih =>
      rw [formatText_directive] at same
      cases formatToo with
      | nil => cases same
      | plain nonzeroToo otherToo formatToo => exact absurd (List.cons.inj same).1.symm otherToo
      | directive validToo formatToo =>
          rw [formatText_directive] at same
          obtain ⟨rfl, rest⟩ := modifiers_unique valid validToo (conversion_ends _) (conversion_ends _) (List.cons.inj same).2
          obtain ⟨symbols, pieces⟩ := List.cons.inj rest
          have conversions := congrArg switch symbols
          rw [switch_conversion, switch_conversion] at conversions
          cases conversions
          rw [ih formatToo pieces]
      | malformed validToo ends formatToo =>
          rw [formatText_malformed] at same
          have endsToo : (switch (current (formatText _))).ends = true := congrArg Case.ends ends
          obtain ⟨rfl, rest⟩ := modifiers_unique valid validToo (conversion_ends _) endsToo (List.cons.inj same).2
          rw [← rest, current, switch_conversion] at ends
          cases ends
  | @malformed modifiers rest valid ends format ih =>
      rw [formatText_malformed] at same
      have endsHere : (switch (current (formatText rest))).ends = true := congrArg Case.ends ends
      cases formatToo with
      | nil => cases same
      | plain nonzeroToo otherToo formatToo => exact absurd (List.cons.inj same).1.symm otherToo
      | directive validToo formatToo =>
          rw [formatText_directive] at same
          obtain ⟨rfl, rest⟩ := modifiers_unique valid validToo endsHere (conversion_ends _) (List.cons.inj same).2
          rw [rest, current, switch_conversion] at ends
          cases ends
      | malformed validToo endsToo formatToo =>
          rw [formatText_malformed] at same
          have endsThere : (switch (current (formatText _))).ends = true := congrArg Case.ends endsToo
          obtain ⟨rfl, rest⟩ := modifiers_unique valid validToo endsHere endsThere (List.cons.inj same).2
          rw [ih formatToo rest]

theorem existsUnique_format {text : List (BitVec 8)} (nonzero : ∀ ch ∈ text, ch ≠ 0) :
    ∃! pieces, Format pieces ∧ formatText pieces = text := by
  obtain ⟨pieces, format, written⟩ := exists_format text.length text (Nat.le_refl _) nonzero
  refine ⟨pieces, ⟨format, written⟩, ?_⟩
  rintro others ⟨formatToo, writtenToo⟩
  exact formatToo.unique format (writtenToo.trans written.symm)

end Fos.Library
