import Fos.Console.DisplayProperties
import Fos.Console.LineEditor

/-! `readline` of `lib/readline.c`, as the kernel calls it: the line that is edited is the one on the screen. -/

set_option autoImplicit false

namespace Fos.Console

open Foundation

/-- The buffer and `i` of `readline`, and the display. `iscons` is 1. -/
structure Reading where
  buf : Nat → BitVec 8
  i : Nat
  display : Display

namespace Reading

/-- The character goes to the screen through `cputchar`. -/
def echo (reading : Reading) (c : BitVec 8) : Reading := { reading with display := reading.display.consPutc (c.setWidth 32) }

def store (reading : Reading) (c : BitVec 8) : Reading := { reading with buf := Function.update reading.buf reading.i c }

/-- The loop, over what `getchar` returns, which is never negative: what `readline` leaves behind, and what was not read.
It waits as long as no line has ended. -/
def readLoop : List (BitVec 8) → Reading → Option (Reading × List (BitVec 8))
  | [], _ => none
  | c :: input, reading =>
      if c ≥ 0x20 ∧ reading.i < bufLen - 1 then
        let reading := (reading.echo c).store c
        readLoop input { reading with i := reading.i + 1 }
      else if c = 8 ∧ reading.i > 0 then
        let reading := reading.echo c
        readLoop input { reading with i := reading.i - 1 }
      else if c = 10 ∨ c = 13 then some ((reading.echo c).store 0, input)
      else readLoop input reading

end Reading

/-- `readline`, with what `cprintf` prints of the prompt. -/
def readline (prompt : List (BitVec 32)) (input : List (BitVec 8)) (buf : Nat → BitVec 8) (display : Display) :
    Option (Reading × List (BitVec 8)) :=
  Reading.readLoop input ⟨buf, 0, display.putText prompt⟩

/-! ### The line -/

/-- What a key makes of the line that is typed. -/
def editLine (text : List (BitVec 8)) (c : BitVec 8) : List (BitVec 8) :=
  if c ≥ 0x20 ∧ text.length < bufLen - 1 then text ++ [c] else if c = 8 then text.dropLast else text

/-- The keys that neither end the line nor move the cursor. -/
def EditsLine (c : BitVec 8) : Prop := c ≠ 10 ∧ c ≠ 13 ∧ c ≠ 228 ∧ c ≠ 229

instance (c : BitVec 8) : Decidable (EditsLine c) := inferInstanceAs (Decidable (_ ∧ _))

/-- The sheet has the line where the cursor was before, and nothing behind it. The start of the line is in view. -/
structure Echoed (before : Paper) (text : List (BitVec 8)) (paper : Paper) : Prop where
  cursor : paper.cursor = before.cursor + text.length
  top : paper.top ≤ before.cursor
  earlier : ∀ index < before.cursor, paper.cell index = before.cell index
  chars : ∀ index, (bound : index < text.length) → paper.cell (before.cursor + index) = shown (text[index].setWidth 32)
  behind : ∀ index, before.cursor + text.length ≤ index → paper.cell index = blank

/-- The buffer has the characters of the line, and nothing was written behind the buffer. -/
structure Buffered (buf : Nat → BitVec 8) (text : List (BitVec 8)) (next : Nat → BitVec 8) : Prop where
  chars : ∀ index, (bound : index < text.length) → next index = text[index]
  outside : ∀ index, bufLen ≤ index → next index = buf index
  fits : text.length < bufLen

variable {before paper : Paper} {text : List (BitVec 8)} {c : BitVec 8} {buf next : Nat → BitVec 8}

namespace Buffered

theorem push (buffered : Buffered buf text next) (room : text.length < bufLen - 1) (c : BitVec 8) :
    Buffered buf (text ++ [c]) (Function.update next text.length c) where
  chars index bound := by
    rw [List.length_append, List.length_singleton] at bound
    cases Nat.lt_or_eq_of_le (Nat.le_of_lt_succ bound) with
    | inl inside =>
        rw [Function.update_of_ne (Nat.ne_of_lt inside), List.getElem_append_left inside]
        exact buffered.chars index inside
    | inr last =>
        subst last
        rw [Function.update_self, List.getElem_concat_length rfl]
  outside index bound := by
    rw [Function.update_of_ne (by omega)]
    exact buffered.outside index bound
  fits := by
    rw [List.length_append, List.length_singleton]
    omega

theorem pop (buffered : Buffered buf text next) : Buffered buf text.dropLast next where
  chars index bound := by
    rw [List.getElem_dropLast]
    exact buffered.chars index _
  outside := buffered.outside
  fits := by
    have fits := buffered.fits
    rw [List.length_dropLast]
    omega

end Buffered

namespace Echoed

private theorem typed_plain : ∀ c : BitVec 8, c ≥ 0x20 → c ≠ 228 → c ≠ 229 → c.setWidth 32 &&& 0xff ≠ (8 : BitVec 32) ∧
    c.setWidth 32 &&& 0xff ≠ (10 : BitVec 32) ∧ c.setWidth 32 &&& 0xff ≠ (13 : BitVec 32) ∧
    c.setWidth 32 &&& 0xff ≠ (9 : BitVec 32) ∧ c.setWidth 32 &&& 0xff ≠ (228 : BitVec 32) ∧
    c.setWidth 32 &&& 0xff ≠ (229 : BitVec 32) := by
  decide +kernel

/-- A printed character goes to the cursor. -/
theorem push (echoed : Echoed before text paper) (printed : c ≥ 0x20) (edits : EditsLine c) (room : text.length < bufLen - 1) :
    Echoed before (text ++ [c]) (paper.typed (c.setWidth 32)) := by
  obtain ⟨notBack, notNewline, notReturn, notTab, notLeft, notRight⟩ := typed_plain c printed edits.2.2.1 edits.2.2.2
  have put : paper.typed (c.setWidth 32) = paper.put (shown (c.setWidth 32)) := by
    rw [Paper.typed, if_neg notBack, if_neg notNewline, if_neg notReturn, if_neg notTab, if_neg notLeft, if_neg notRight]
  have cell : (paper.put (shown (c.setWidth 32))).cell = Function.update paper.cell paper.cursor (shown (c.setWidth 32)) := by
    unfold Paper.put Paper.follow Scrolling.Sheet.follow
    split <;> rfl
  have cursor : (paper.put (shown (c.setWidth 32))).cursor = paper.cursor + 1 := by
    unfold Paper.put Paper.follow Scrolling.Sheet.follow
    split <;> rfl
  have length : (text ++ [c]).length = text.length + 1 := List.length_append
  rw [put]
  refine ⟨?_, ?_, ?_, ?_, ?_⟩
  · rw [cursor, echoed.cursor, length, Nat.add_assoc]
  · have place := echoed.cursor
    have top := echoed.top
    unfold Paper.put Paper.follow Scrolling.Sheet.follow
    split
    · next full =>
        change paper.top + 25 * 80 ≤ paper.cursor + 1 at full
        change paper.top + 80 ≤ before.cursor
        change text.length < 1024 - 1 at room
        omega
    · exact top
  · intro index bound
    rw [cell, Function.update_of_ne (by rw [echoed.cursor]; omega)]
    exact echoed.earlier index bound
  · intro index bound
    rw [length] at bound
    rw [cell, echoed.cursor]
    cases Nat.lt_or_eq_of_le (Nat.le_of_lt_succ bound) with
    | inl inside =>
        rw [Function.update_of_ne (by omega), List.getElem_append_left inside]
        exact echoed.chars index inside
    | inr last =>
        subst last
        rw [Function.update_self, List.getElem_concat_length rfl]
  · intro index bound
    rw [length] at bound
    rw [cell, Function.update_of_ne (by rw [echoed.cursor]; omega)]
    exact echoed.behind index (by omega)

/-- Backspace takes the last character from the line and from the sheet. It is always in view. -/
theorem pop (echoed : Echoed before text paper) (nonempty : text ≠ []) : Echoed before text.dropLast (paper.typed 8) := by
  have positive := List.length_pos_iff.2 nonempty
  have cursor := echoed.cursor
  have top := echoed.top
  have back : paper.typed 8 = (paper.moveTo (paper.cursor - 1)).write (paper.cursor - 1) blank := by
    have visible : paper.top < paper.cursor := by omega
    rw [Paper.typed, if_pos (by decide), if_pos visible]
    rfl
  have length : text.dropLast.length = text.length - 1 := List.length_dropLast
  rw [back]
  refine ⟨?_, top, ?_, ?_, ?_⟩
  · change paper.cursor - 1 = _
    omega
  · intro index bound
    change Function.update paper.cell (paper.cursor - 1) blank index = _
    rw [Function.update_of_ne (by omega)]
    exact echoed.earlier index bound
  · intro index bound
    change Function.update paper.cell (paper.cursor - 1) blank (before.cursor + index) = _
    rw [Function.update_of_ne (by omega), List.getElem_dropLast]
    exact echoed.chars index _
  · intro index bound
    change Function.update paper.cell (paper.cursor - 1) blank index = _
    cases decEq index (paper.cursor - 1) with
    | isTrue last => rw [last, Function.update_self]
    | isFalse later =>
        rw [Function.update_of_ne later]
        exact echoed.behind index (by omega)

theorem start (unwritten : ∀ index, paper.cursor ≤ index → paper.cell index = blank) (visible : paper.top ≤ paper.cursor) :
    Echoed paper [] paper where
  cursor := rfl
  top := visible
  earlier _ _ := rfl
  chars _ bound := absurd bound (Nat.not_lt_zero _)
  behind := unwritten

end Echoed

/-! ### The loop -/

/-- The line is in the buffer, with a NUL behind it, and on the display, where the cursor has gone on. -/
structure Entered (outside : Nat → BitVec 16) (before : Paper) (buf : Nat → BitVec 8) (text : List (BitVec 8)) (ended : BitVec 8)
    (result : Reading) : Prop where
  buffered : Buffered buf text result.buf
  terminated : result.buf text.length = 0
  echoed : ∃ paper, Echoed before text paper ∧ result.display.Steady outside (paper.typed (ended.setWidth 32))

variable {outside : Nat → BitVec 16} {reading : Reading} {ended : BitVec 8} {rest : List (BitVec 8)}

theorem Buffered.terminate (buffered : Buffered buf text next) : Buffered buf text (Function.update next text.length 0) where
  chars index bound := by
    rw [Function.update_of_ne (Nat.ne_of_lt bound)]
    exact buffered.chars index bound
  outside index bound := by
    have fits := buffered.fits
    rw [Function.update_of_ne (by omega)]
    exact buffered.outside index bound
  fits := buffered.fits

theorem readLoop_edits (ends : ended = 10 ∨ ended = 13) (keys : List (BitVec 8)) : ∀ {reading : Reading} {text : List (BitVec 8)}
    {paper : Paper}, (∀ c ∈ keys, EditsLine c) → reading.i = text.length → Buffered buf text reading.buf →
    Echoed before text paper → reading.display.Steady outside paper →
    ∃ result, reading.readLoop (keys ++ ended :: rest) = some (result, rest) ∧
      Entered outside before buf (keys.foldl editLine text) ended result := by
  induction keys with
  | nil =>
      intro reading text paper _ position buffered echoed steady
      have control : ¬ (ended ≥ 0x20 ∧ reading.i < bufLen - 1) := by
        rcases ends with rfl | rfl <;> exact fun both => absurd both.1 (by decide)
      have notBack : ¬ (ended = 8 ∧ reading.i > 0) := by
        rcases ends with rfl | rfl <;> exact fun both => absurd both.1 (by decide)
      refine ⟨(reading.echo ended).store 0, ?_, ?_, ?_, paper, echoed, steady.consPutc _⟩
      · rw [List.nil_append, Reading.readLoop, if_neg control, if_neg notBack, if_pos ends]
      · change Buffered buf text (Function.update reading.buf reading.i 0)
        rw [position]
        exact buffered.terminate
      · change Function.update reading.buf reading.i 0 text.length = 0
        rw [position, Function.update_self]
  | cons c keys ih =>
      intro reading text paper edits position buffered echoed steady
      have edit := edits c (List.mem_cons_self ..)
      have others : ∀ c ∈ keys, EditsLine c := fun c member => edits c (List.mem_cons_of_mem _ member)
      have notEnd : ¬ (c = 10 ∨ c = 13) := fun either => either.elim edit.1 edit.2.1
      rw [List.cons_append, Reading.readLoop, List.foldl_cons, editLine, position]
      split
      · next printed =>
          have next := buffered.push printed.2 c
          have longer : reading.i + 1 = (text ++ [c]).length := by
            rw [position, List.length_append]
            rfl
          rw [← position] at next
          exact ih others longer next (echoed.push printed.1 edit printed.2) (steady.consPutc _)
      · split
        · next back =>
            have nonempty : text ≠ [] := List.length_pos_iff.1 back.2
            rw [if_pos back.1]
            have shorter : reading.i - 1 = text.dropLast.length := by rw [position, List.length_dropLast]
            have erased := steady.consPutc (c.setWidth 32)
            rw [back.1] at erased ⊢
            exact ih others shorter buffered.pop (echoed.pop nonempty) erased
        · next notBack =>
            have same : (if c = 8 then text.dropLast else text) = text := by
              split
              · next back =>
                  have none : text.length = 0 := Nat.le_zero.1 (Nat.not_lt.1 fun nonempty => notBack ⟨back, nonempty⟩)
                  have empty : text = [] := List.length_eq_zero_iff.1 none
                  rw [empty]
                  rfl
              · rfl
            rw [same]
            exact ih others position buffered echoed steady

end Fos.Console
