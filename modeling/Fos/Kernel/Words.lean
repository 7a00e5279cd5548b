import Fos.Kernel.Machine
import Mathlib.Data.Nat.Bitwise

/-! Addresses and entries as numbers: indices, frames and permission bits. -/

set_option autoImplicit false

namespace Fos.Kernel

/-- The page an address lies in. -/
def pageOf (address : Nat) : Nat := address / pageSize

theorem pdx_eq (address : Nat) : pdx address = pageOf address / 1024 % 1024 := by
  have mask : (0x3FF : Nat) = 2 ^ 10 - 1 := rfl
  rw [pdx, mask, Nat.and_two_pow_sub_one_eq_mod, Nat.shiftRight_eq_div_pow, pageOf,
    Nat.div_div_eq_div_mul]
  rfl

theorem ptx_eq (address : Nat) : ptx address = pageOf address % 1024 := by
  have mask : (0x3FF : Nat) = 2 ^ 10 - 1 := rfl
  rw [ptx, mask, Nat.and_two_pow_sub_one_eq_mod, Nat.shiftRight_eq_div_pow, pageOf]

theorem pdx_of_lt {address : Nat} (bound : address < wordSize) :
    pdx address = pageOf address / 1024 := by
  rw [pdx_eq]
  simp only [pageOf, wordSize, pageSize] at bound ⊢
  omega

theorem pageOf_roundDown (address : Nat) : pageOf (roundDown address) = pageOf address := by
  simp only [pageOf, roundDown, pageSize]
  omega

theorem pageOf_mul (page : Nat) : pageOf (page * pageSize) = page := by
  simp only [pageOf, pageSize]
  omega

theorem pageOf_mul_add {page offset : Nat} (inside : offset < pageSize) :
    pageOf (page * pageSize + offset) = page := by
  simp only [pageOf, pageSize] at inside ⊢
  omega

theorem roundDown_eq (address : Nat) : roundDown address = pageOf address * pageSize := by
  simp only [pageOf, roundDown, pageSize]
  omega

theorem eq_mul_of_aligned {address : Nat} (aligned : address % pageSize = 0) :
    address = pageOf address * pageSize := by
  simp only [pageOf, pageSize] at aligned ⊢
  omega

theorem frameOf_eq (physical : Nat) : frameOf physical = physical / pageSize := by
  rw [frameOf, Nat.shiftRight_eq_div_pow]

theorem toPhysicalAddress_eq (frame : Nat) : toPhysicalAddress frame = frame * pageSize := by
  rw [toPhysicalAddress, Nat.shiftLeft_eq]

@[simp] theorem frameOf_toPhysicalAddress (frame : Nat) :
    frameOf (toPhysicalAddress frame) = frame := by
  rw [frameOf_eq, toPhysicalAddress_eq, Nat.mul_div_cancel _ (by decide)]

theorem extractAddress_eq (entry : Nat) :
    extractAddress entry = toPhysicalAddress (frameOf entry) := by
  rw [toPhysicalAddress_eq, frameOf_eq]
  simp only [extractAddress, pageSize]
  omega

@[simp] theorem frameOf_extractAddress (entry : Nat) :
    frameOf (extractAddress entry) = frameOf entry := by
  rw [extractAddress_eq, frameOf_toPhysicalAddress]

theorem toPhysicalAddress_inj {left right : Nat} :
    toPhysicalAddress left = toPhysicalAddress right ↔ left = right := by
  refine ⟨fun same => ?_, congrArg _⟩
  rw [← frameOf_toPhysicalAddress left, same, frameOf_toPhysicalAddress]

theorem constructEntry_eq (frame : Nat) {permissions : Nat} (low : permissions < pageSize) :
    constructEntry (toPhysicalAddress frame) permissions = frame * pageSize + permissions := by
  rw [constructEntry, toPhysicalAddress,
    ← Nat.shiftLeft_add_eq_or_of_lt (i := 12) low, Nat.shiftLeft_eq]

@[simp] theorem frameOf_constructEntry (frame : Nat) {permissions : Nat}
    (low : permissions < pageSize) :
    frameOf (constructEntry (toPhysicalAddress frame) permissions) = frame := by
  rw [constructEntry_eq frame low, frameOf_eq]
  simp only [pageSize] at low ⊢
  omega

theorem constructEntry_ne_zero (frame : Nat) {permissions : Nat} (low : permissions < pageSize)
    (some : permissions ≠ 0) : constructEntry (toPhysicalAddress frame) permissions ≠ 0 := by
  rw [constructEntry_eq frame low]
  omega

/-! ### Permission bits -/

theorem testBit_constructEntry (frame : Nat) {permissions bit : Nat} (low : bit < 12) :
    (constructEntry (toPhysicalAddress frame) permissions).testBit bit =
      permissions.testBit bit := by
  rw [constructEntry, toPhysicalAddress, Nat.testBit_or, Nat.testBit_shiftLeft]
  simp [not_le.2 low]

theorem hasPerm_two_pow (entry bit : Nat) : hasPerm entry (2 ^ bit) = entry.testBit bit := by
  rw [hasPerm, Nat.and_two_pow]
  have positive : 2 ^ bit ≠ 0 := (Nat.two_pow_pos bit).ne'
  cases entry.testBit bit <;> simp [positive.symm]

theorem hasPerm_present (entry : Nat) : hasPerm entry permPresent = entry.testBit 0 :=
  hasPerm_two_pow entry 0

/-- The permissions a user write needs: present, writeable, user. -/
theorem hasPerm_iff (entry permissions : Nat) :
    hasPerm entry permissions = true ↔
      ∀ bit, permissions.testBit bit = true → entry.testBit bit = true := by
  rw [hasPerm, beq_iff_eq]
  constructor
  · intro same bit set
    have := congrArg (Nat.testBit · bit) same
    simp only [Nat.testBit_and, set, Bool.and_true] at this
    exact this
  · intro all
    refine Nat.eq_of_testBit_eq fun bit => ?_
    rw [Nat.testBit_and]
    cases set : permissions.testBit bit with
    | false => simp
    | true => simp [all bit set]

theorem testBit_clear (clear bit : Nat) (low : clear < wordSize) :
    (wordSize - 1 - clear).testBit bit = (decide (bit < 32) && !clear.testBit bit) := by
  have size : wordSize - 1 - clear = 2 ^ 32 - (clear + 1) := by
    simp only [wordSize] at low ⊢
    omega
  rw [size, Nat.testBit_two_pow_sub_succ low]

theorem testBit_changePerm (entry set clear bit : Nat) (low : clear < wordSize) :
    (changePerm entry set clear).testBit bit =
      ((entry.testBit bit || set.testBit bit) && (decide (bit < 32) && !clear.testBit bit)) := by
  rw [changePerm, Nat.testBit_and, Nat.testBit_or, testBit_clear _ _ low]

private theorem testBit_eq_false_of_low {value bit : Nat} (low : value < pageSize)
    (high : 12 ≤ bit) : value.testBit bit = false :=
  Nat.testBit_lt_two_pow (low.trans_le (show 2 ^ 12 ≤ 2 ^ bit from
    Nat.pow_le_pow_right (by decide) high))

/-- Changing flags keeps the frame of an entry. -/
theorem frameOf_changePerm {entry set clear : Nat} (word : entry < wordSize)
    (setLow : set < pageSize) (clearLow : clear < pageSize) :
    frameOf (changePerm entry set clear) = frameOf entry := by
  refine Nat.eq_of_testBit_eq fun bit => ?_
  simp only [frameOf, Nat.testBit_shiftRight]
  rw [testBit_changePerm _ _ _ _ (clearLow.trans (by decide)),
    testBit_eq_false_of_low setLow (by omega), testBit_eq_false_of_low clearLow (by omega)]
  by_cases inWord : 12 + bit < 32
  · simp [inWord]
  · have wide : 2 ^ 32 ≤ 2 ^ (12 + bit) := Nat.pow_le_pow_right (by decide) (by omega)
    have high : entry.testBit (12 + bit) = false :=
      Nat.testBit_lt_two_pow (word.trans_le wide)
    simp [high]

theorem frameOf_or {entry set : Nat} (setLow : set < pageSize) :
    frameOf (entry ||| set) = frameOf entry := by
  refine Nat.eq_of_testBit_eq fun bit => ?_
  simp only [frameOf, Nat.testBit_shiftRight, Nat.testBit_or]
  rw [testBit_eq_false_of_low setLow (by omega), Bool.or_false]

theorem permModified_bit (bit : Nat) : permModified.testBit bit = decide (6 = bit) :=
  (Nat.testBit_two_pow : (2 ^ 6).testBit bit = decide (6 = bit))

/-- The test of the modified bit on permissions that were read from an entry. -/
theorem permissions_modified (entry : Nat) :
    (entry &&& 0xFFF) &&& permModified ≠ 0 ↔ entry.testBit 6 = true := by
  have masked : (entry &&& 0xFFF) &&& permModified = (entry.testBit 6).toNat * 2 ^ 6 := by
    rw [Nat.and_assoc, show 0xFFF &&& permModified = 2 ^ 6 by decide, Nat.and_two_pow]
  rw [masked]
  cases entry.testBit 6 <;> simp

/-- Setting and clearing the modified bit of an entry that has it clear. -/
theorem changePerm_modified {entry : Nat} (word : entry < wordSize)
    (clean : entry.testBit 6 = false) :
    changePerm (entry ||| permModified) 0 permModified = entry := by
  refine Nat.eq_of_testBit_eq fun bit => ?_
  rw [testBit_changePerm _ _ _ _ (by decide), Nat.testBit_or, permModified_bit,
    Nat.zero_testBit, Bool.or_false]
  by_cases modified : 6 = bit
  · simp [← modified, clean]
  · by_cases inWord : bit < 32
    · simp [modified, inWord]
    · have wide : 2 ^ 32 ≤ 2 ^ bit := Nat.pow_le_pow_right (by decide) (by omega)
      simp [modified, Nat.testBit_lt_two_pow (Nat.lt_of_lt_of_le word wide)]

theorem lt_wordSize_of_frameOf_lt {entry : Nat} (bound : frameOf entry < 65536) :
    entry < wordSize := by
  rw [frameOf_eq] at bound
  simp only [pageSize, wordSize] at bound ⊢
  omega

/-! ### Bytes of a page -/

theorem Page.byte_ofBytes (bytes : Nat → Nat) (offset : Nat) :
    (Page.ofBytes bytes).byte offset = bytes offset % 256 := by
  unfold Page.byte Page.ofBytes
  have position : offset % 4 = 0 ∨ offset % 4 = 1 ∨ offset % 4 = 2 ∨ offset % 4 = 3 := by omega
  have low (index : Nat) : bytes index % 256 < 256 := Nat.mod_lt _ (by decide)
  have lows := (⟨low (4 * (offset / 4)), low (4 * (offset / 4) + 1), low (4 * (offset / 4) + 2),
    low (4 * (offset / 4) + 3)⟩ : _ ∧ _ ∧ _ ∧ _)
  rcases position with same | same | same | same
  · have here : offset = 4 * (offset / 4) := by omega
    rw [same, show bytes offset = bytes (4 * (offset / 4)) from congrArg bytes here]
    omega
  · have here : offset = 4 * (offset / 4) + 1 := by omega
    rw [same, show bytes offset = bytes (4 * (offset / 4) + 1) from congrArg bytes here]
    omega
  · have here : offset = 4 * (offset / 4) + 2 := by omega
    rw [same, show bytes offset = bytes (4 * (offset / 4) + 2) from congrArg bytes here]
    omega
  · have here : offset = 4 * (offset / 4) + 3 := by omega
    rw [same, show bytes offset = bytes (4 * (offset / 4) + 3) from congrArg bytes here]
    omega

theorem Page.byte_zero (offset : Nat) : Page.zero.byte offset = 0 := by
  simp [Page.byte, Page.zero]

end Fos.Kernel
