import Fos.Console.Display

/-! What is printed is on a sheet that has no end, of which the display shows the last rows. -/

set_option autoImplicit false

namespace Fos.Console

open Foundation

/-- A sheet of cells of the display. -/
abbrev Paper := Scrolling.Sheet (BitVec 16)

/-- A character with its attribute. -/
def shown (c : BitVec 32) : BitVec 16 := (Display.colour c).setWidth 16

/-- A space with the attribute of a character. -/
def erased (c : BitVec 32) : BitVec 16 := ((Display.colour c &&& ~~~0xff) ||| 0x20).setWidth 16

namespace Paper

def follow (paper : Paper) : Paper := Scrolling.Sheet.follow crtCols crtSize paper

def put (paper : Paper) (cell : BitVec 16) : Paper :=
  follow ((paper.write paper.cursor cell).moveTo (paper.cursor + 1))

/-- What a character does to the sheet. It is erased as far back as the view goes. -/
def typed (paper : Paper) (c : BitVec 32) : Paper :=
  if c &&& 0xff = 8 then
    if paper.top < paper.cursor then (paper.moveTo (paper.cursor - 1)).write (paper.cursor - 1) (erased c) else paper
  else if c &&& 0xff = 10 then
    follow (paper.moveTo (paper.cursor + crtCols - paper.cursor % crtCols))
  else if c &&& 0xff = 13 then paper.moveTo (paper.cursor - paper.cursor % crtCols)
  else if c &&& 0xff = 9 then ((((paper.put blank).put blank).put blank).put blank).put blank
  else if c &&& 0xff = 228 then if paper.top < paper.cursor then paper.moveTo (paper.cursor - 1) else paper
  else if c &&& 0xff = 229 then follow (paper.moveTo (paper.cursor + 1))
  else paper.put (shown c)

def typedText (paper : Paper) (text : List (BitVec 32)) : Paper := text.foldl typed paper

end Paper

variable {display : Display} {paper : Paper} {outside : Nat → BitVec 16} {c : BitVec 32} {cell : BitVec 16}

namespace Display

def window (display : Display) : Scrolling.Window (BitVec 16) := ⟨display.crtBuf, display.crtPos.toNat⟩

/-- The cursor may be behind the last row until it is scrolled. -/
structure Pending (outside : Nat → BitVec 16) (display : Display) (paper : Paper) : Prop where
  shows : Scrolling.Shows crtCols crtSize blank display.window paper
  length : 0 ≤ display.textLength ∧ display.textLength ≤ crtCols
  frame : ∀ index, crtSize ≤ index → display.crtBuf index = outside index

/-- The display between two characters: it shows the last rows of the sheet, and no other memory was written. -/
structure Steady (outside : Nat → BitVec 16) (display : Display) (paper : Paper) : Prop
    extends Pending outside display paper where
  inside : display.crtPos.toNat < crtSize

theorem Steady.under (inside : display.crtPos.toNat < crtSize) (length : 0 ≤ display.textLength ∧ display.textLength ≤ crtCols) :
    Steady display.crtBuf display (.under crtSize blank display.window) where
  shows := .under (Nat.le_of_lt inside)
  length := length
  frame _ _ := rfl
  inside := inside

theorem colour_low (c : BitVec 32) : colour c &&& 0xff = c &&& 0xff := by
  unfold colour
  split
  · rw [BitVec.and_or_distrib_right, show (0x0700 : BitVec 32) &&& 0xff = 0#32 from rfl, BitVec.or_zero]
  · rfl

/-! ### Positions -/

variable {position : BitVec 16}

private theorem position_back (behind : position > 0) : (position - 1).toNat = position.toNat - 1 := by bv_omega

private theorem position_next (inside : position.toNat < crtSize) : (position + 1).toNat = position.toNat + 1 := by
  simp only [crtSize, crtCols] at inside
  bv_omega

private theorem position_row (position : BitVec 16) :
    (position - position % crtCols).toNat = position.toNat - position.toNat % crtCols := by
  have within : position.toNat % 80 ≤ position.toNat := Nat.mod_le ..
  have columns : (position % crtCols).toNat = position.toNat % 80 := BitVec.toNat_umod
  rw [BitVec.toNat_sub, columns]
  change _ = position.toNat - position.toNat % 80
  omega

private theorem position_down (inside : position.toNat < crtSize) : (position + crtCols).toNat = position.toNat + crtCols := by
  simp only [crtSize, crtCols] at inside ⊢
  rw [BitVec.toNat_add]
  exact Nat.mod_eq_of_lt (by simp only [BitVec.natCast_eq_ofNat, BitVec.toNat_ofNat]; omega)

private theorem position_up (full : crtSize ≤ position.toNat) : (position - crtCols).toNat = position.toNat - crtCols := by
  simp only [crtSize, crtCols] at full ⊢
  simp only [BitVec.natCast_eq_ofNat]
  bv_omega

private theorem position_ge_iff : position ≥ crtSize ↔ crtSize ≤ position.toNat := by
  simp only [crtSize, crtCols, BitVec.natCast_eq_ofNat]
  bv_omega

/-! ### One case of the switch -/

theorem Pending.moveTo (pending : Pending outside display paper) (bound : position.toNat ≤ crtSize) :
    Pending outside { display with crtPos := position } (paper.moveTo (paper.top + position.toNat)) where
  shows := pending.shows.moveTo bound
  length := pending.length
  frame := pending.frame

theorem Pending.textLength {length : Int} (pending : Pending outside display paper) (bound : 0 ≤ length ∧ length ≤ crtCols) :
    Pending outside { display with textLength := length } paper where
  shows := pending.shows
  length := bound
  frame := pending.frame

namespace Steady

theorem write (steady : Steady outside display paper) (cell : BitVec 16) :
    Steady outside (display.put cell) (paper.write paper.cursor cell) where
  shows := by
    rw [steady.shows.cursor]
    exact steady.shows.write steady.inside cell
  length := steady.length
  inside := steady.inside
  frame index behind := by
    have inside := steady.inside
    change Function.update display.crtBuf display.crtPos.toNat cell index = outside index
    rw [Function.update_of_ne (by omega)]
    exact steady.frame index behind

theorem back (steady : Steady outside display paper) (behind : display.crtPos > 0) :
    Steady outside { display with crtPos := display.crtPos - 1 } (paper.moveTo (paper.cursor - 1)) := by
  have inside := steady.inside
  have position := position_back behind
  have cursor : paper.cursor - 1 = paper.top + (display.crtPos - 1).toNat := by
    rw [steady.shows.cursor, position]
    change paper.top + display.crtPos.toNat - 1 = _
    bv_omega
  rw [cursor]
  exact { steady.toPending.moveTo (by omega) with
    inside := by
      change (display.crtPos - 1).toNat < _
      omega }

/-- One position on. -/
theorem next (steady : Steady outside display paper) :
    Pending outside { display with crtPos := display.crtPos + 1 } (paper.moveTo (paper.cursor + 1)) := by
  have inside := steady.inside
  have position := position_next inside
  have cursor : paper.cursor + 1 = paper.top + (display.crtPos + 1).toNat := by
    rw [steady.shows.cursor, position]
    rfl
  rw [cursor]
  exact steady.toPending.moveTo (by omega)

theorem top_lt_iff (steady : Steady outside display paper) : paper.top < paper.cursor ↔ display.crtPos > 0 := by
  rw [steady.shows.cursor]
  change paper.top < paper.top + display.crtPos.toNat ↔ _
  bv_omega

theorem backspace (steady : Steady outside display paper) :
    Steady outside (display.backspace (colour c))
      (if paper.top < paper.cursor then (paper.moveTo (paper.cursor - 1)).write (paper.cursor - 1) (erased c) else paper) := by
  unfold Display.backspace
  rw [if_congr steady.top_lt_iff rfl rfl]
  split
  · next behind => exact (steady.back behind).write _
  · exact steady

theorem left (steady : Steady outside display paper) :
    Steady outside display.left (if paper.top < paper.cursor then paper.moveTo (paper.cursor - 1) else paper) := by
  unfold Display.left
  rw [if_congr steady.top_lt_iff rfl rfl]
  split
  · next behind => exact steady.back behind
  · exact steady

theorem right (steady : Steady outside display paper) : Pending outside display.right (paper.moveTo (paper.cursor + 1)) := by
  have before : ¬ display.crtPos ≥ crtSize := fun behind => Nat.not_le.2 steady.inside (position_ge_iff.1 behind)
  rw [Display.right, if_pos (BitVec.not_le.1 before)]
  exact steady.next

theorem carriageReturn (steady : Steady outside display paper) :
    Steady outside display.carriageReturn (paper.moveTo (paper.cursor - paper.cursor % crtCols)) := by
  have inside := steady.inside
  have position := position_row display.crtPos
  have within : display.crtPos.toNat % crtCols ≤ display.crtPos.toNat := Nat.mod_le ..
  have cursor : paper.cursor - paper.cursor % crtCols = paper.top + (display.crtPos - display.crtPos % crtCols).toNat := by
    rw [steady.shows.mod_eq, steady.shows.cursor, position]
    exact Nat.add_sub_assoc within _
  rw [cursor]
  exact { steady.toPending.moveTo (by omega) with
    inside := by
      change (display.crtPos - display.crtPos % crtCols).toNat < _
      omega }

theorem newline (steady : Steady outside display paper) :
    Pending outside display.newline (paper.moveTo (paper.cursor + crtCols - paper.cursor % crtCols)) := by
  have inside := steady.inside
  have down := position_down inside
  have position := position_row (display.crtPos + crtCols)
  have bound : display.crtPos.toNat + 80 - display.crtPos.toNat % 80 ≤ 25 * 80 := by
    simp only [crtSize, crtCols] at inside
    omega
  have same : (display.crtPos.toNat + 80) % 80 = display.crtPos.toNat % 80 := Nat.add_mod_right ..
  rw [down] at position
  have cursor : paper.cursor + crtCols - paper.cursor % crtCols =
      paper.top + (display.crtPos + crtCols - (display.crtPos + crtCols) % crtCols).toNat := by
    rw [steady.shows.mod_eq, steady.shows.cursor, position]
    change paper.top + display.crtPos.toNat + 80 - display.crtPos.toNat % 80 =
      paper.top + (display.crtPos.toNat + 80 - (display.crtPos.toNat + 80) % 80)
    omega
  rw [cursor]
  apply (steady.toPending.textLength ⟨Int.le_refl 0, Int.natCast_nonneg _⟩).moveTo
  change (display.crtPos + crtCols - (display.crtPos + crtCols) % crtCols).toNat ≤ 25 * 80
  rw [position]
  change display.crtPos.toNat + 80 - (display.crtPos.toNat + 80) % 80 ≤ 25 * 80
  omega

/-- The text that is counted ends where the cursor is, at the end of the last row at most. -/
theorem print (steady : Steady outside display paper) (notLeft : c ≠ 228) (notRight : c ≠ 229) :
    Pending outside (display.print c) ((paper.write paper.cursor (c.setWidth 16)).moveTo (paper.cursor + 1)) := by
  have inside := steady.inside
  have length := steady.length
  have printed := (steady.write (c.setWidth 16)).next
  have position := position_next inside
  rw [Display.print, if_pos ⟨notLeft, notRight⟩]
  simp only [crtSize, crtCols] at inside length
  change Pending outside (if (((display.crtPos + 1).toNat : Nat) : Int) > 1920 + display.textLength then _ else _) _
  split
  · next longer =>
      apply printed.textLength
      change 0 ≤ display.textLength + 1 ∧ display.textLength + 1 ≤ ((80 : Nat) : Int)
      omega
  · exact printed

end Steady

/-! ### One character -/

theorem Pending.scroll (pending : Pending outside display paper) : Steady outside display.scroll (Paper.follow paper) := by
  have shows := pending.shows.roll (Nat.le_mul_of_pos_left crtCols (by decide))
  have bound : display.crtPos.toNat ≤ crtSize := pending.shows.bound
  have window : display.scroll.window = display.window.roll crtCols crtSize blank := by
    unfold Display.scroll Scrolling.Window.roll
    rw [if_congr position_ge_iff rfl rfl]
    change _ = if crtSize ≤ display.crtPos.toNat then _ else _
    split
    · next full =>
        change Scrolling.Window.mk _ (display.crtPos - crtCols).toNat = _
        rw [position_up full]
        rfl
    · rfl
  refine ⟨⟨window ▸ shows, ?_, ?_⟩, ?_⟩
  · unfold Display.scroll
    split <;> exact pending.length
  · intro index behind
    rw [← pending.frame index behind]
    unfold Display.scroll
    split
    · simp only [crtSize, crtCols] at behind
      simp only [crtSize, crtCols, Scrolling.fill_apply, Scrolling.slide_apply]
      rw [if_neg (by omega), if_neg (by omega)]
    · rfl
  · unfold Display.scroll
    rw [apply_ite Display.crtPos, if_congr position_ge_iff rfl rfl]
    simp only [crtSize, crtCols] at bound ⊢
    split
    · next full =>
        have up := position_up full
        simp only [crtCols] at up
        omega
    · omega

theorem Steady.moveCursor (steady : Steady outside display paper) : Steady outside display.moveCursor paper where
  shows := steady.shows
  length := steady.length
  frame := steady.frame
  inside := steady.inside

theorem Steady.putSpace (steady : Steady outside display paper) : Steady outside display.putSpace (paper.put blank) := by
  have printed : switch id (colour 0x20) display = display.print 0x720 := by
    simp only [switch, show colour 0x20 = 0x720 from rfl]
    rfl
  rw [Display.putSpace, putcWith, printed]
  exact (steady.print (by decide) (by decide)).scroll.moveCursor

/-- There is nothing to scroll. -/
theorem Steady.scroll (steady : Steady outside display paper) : Steady outside display.scroll paper := by
  have inside : ¬ paper.top + crtSize ≤ paper.cursor := by
    have inside := steady.inside
    have cursor : paper.cursor = paper.top + display.crtPos.toNat := steady.shows.cursor
    omega
  have still : Paper.follow paper = paper := if_neg inside
  exact still ▸ steady.toPending.scroll

theorem Steady.consPutc (steady : Steady outside display paper) (c : BitVec 32) :
    Steady outside (display.consPutc c) (paper.typed c) := by
  unfold Display.consPutc cgaPutc putcWith switch Paper.typed
  rw [colour_low]
  split
  · exact steady.backspace.scroll.moveCursor
  split
  · exact steady.newline.scroll.moveCursor
  split
  · exact steady.carriageReturn.scroll.moveCursor
  split
  · have spaces := steady.putSpace.putSpace.putSpace.putSpace.putSpace
    exact spaces.scroll.moveCursor
  split
  · exact steady.left.scroll.moveCursor
  split
  · exact steady.right.scroll.moveCursor
  · next notLeft notRight =>
      have left : colour c ≠ 228 := by
        intro same
        rw [← colour_low, same] at notLeft
        exact notLeft rfl
      have right : colour c ≠ 229 := by
        intro same
        rw [← colour_low, same] at notRight
        exact notRight rfl
      exact (steady.print left right).scroll.moveCursor

theorem Steady.putText (text : List (BitVec 32)) (steady : Steady outside display paper) :
    Steady outside (display.putText text) (paper.typedText text) := by
  induction text generalizing display paper with
  | nil => exact steady
  | cons c text ih => exact ih (steady.consPutc c)

/-! ### The cursor -/

/-- What `cga_init` makes of two registers. -/
def joined (high low : BitVec 8) : BitVec 16 := ((high.setWidth 32 <<< 8) ||| low.setWidth 32).setWidth 16

theorem joined_halves (word : BitVec 16) : joined ((word >>> 8).setWidth 8) (word.setWidth 8) = word := by
  apply BitVec.eq_of_getLsbD_eq
  intro index bound
  simp only [joined, BitVec.getLsbD_setWidth, BitVec.getLsbD_or, BitVec.getLsbD_shiftLeft, BitVec.getLsbD_ushiftRight]
  cases Nat.lt_or_ge index 8 with
  | inl low => grind
  | inr high =>
      rw [Nat.add_sub_cancel' high]
      grind

theorem high_joined (high low : BitVec 8) : (joined high low >>> 8).setWidth 8 = high := by
  apply BitVec.eq_of_getLsbD_eq
  intro index bound
  simp only [joined, BitVec.getLsbD_setWidth, BitVec.getLsbD_or, BitVec.getLsbD_shiftLeft, BitVec.getLsbD_ushiftRight,
    Nat.add_sub_cancel_left]
  grind

theorem low_joined (high low : BitVec 8) : (joined high low).setWidth 8 = low := by
  apply BitVec.eq_of_getLsbD_eq
  intro index bound
  simp only [joined, BitVec.getLsbD_setWidth, BitVec.getLsbD_or, BitVec.getLsbD_shiftLeft]
  grind

/-- The registers of the 6845 have the position. -/
def CursorShown (display : Display) : Prop :=
  display.registers 14 = (display.crtPos >>> 8).setWidth 8 ∧ display.registers 15 = display.crtPos.setWidth 8

theorem cgaInit_crtPos (shown : CursorShown display) : display.cgaInit.crtPos = display.crtPos := by
  change joined (display.registers 14) (display.registers 15) = display.crtPos
  rw [shown.1, shown.2, joined_halves]

theorem cursorShown_cgaInit (display : Display) : CursorShown display.cgaInit :=
  ⟨(high_joined ..).symm, (low_joined ..).symm⟩

theorem cursorShown_moveCursor (display : Display) : CursorShown display.moveCursor := ⟨rfl, rfl⟩

theorem cursorShown_putText (text : List (BitVec 32)) (shown : CursorShown display) : CursorShown (display.putText text) := by
  induction text generalizing display with
  | nil => exact shown
  | cons c text ih =>
      have next : CursorShown (display.consPutc c) := cursorShown_moveCursor _
      exact ih next

/-- Whatever is printed, the display shows the last rows of the sheet it was printed on, no other memory is written, and
`cga_init` would find the cursor again. -/
theorem putText_shows (text : List (BitVec 32)) (inside : display.cgaInit.crtPos.toNat < crtSize)
    (cleared : display.textLength = 0) :
    Steady display.crtBuf (display.cgaInit.putText text) (Paper.typedText (.under crtSize blank display.cgaInit.window) text) ∧
      (display.cgaInit.putText text).cgaInit.crtPos = (display.cgaInit.putText text).crtPos := by
  have length : 0 ≤ display.textLength ∧ display.textLength ≤ crtCols := by
    rw [cleared]
    exact ⟨Int.le_refl 0, Int.natCast_nonneg _⟩
  have start : Steady display.crtBuf display.cgaInit (.under crtSize blank display.cgaInit.window) := .under inside length
  exact ⟨start.putText text, cgaInit_crtPos (cursorShown_putText text (cursorShown_cgaInit display))⟩

/-- An empty display with the cursor in its last row. -/
def lastRow : Display := ⟨fun _ => blank, 0, 0, 0, fun register => if register = 14 then 7 else 0xCF⟩

/-- The last row is full after one character. -/
theorem putText_shows_lastRow :
    Steady lastRow.crtBuf (lastRow.cgaInit.putText [0x41])
      (Paper.typedText (.under crtSize blank lastRow.cgaInit.window) [0x41]) ∧
      (lastRow.cgaInit.putText [0x41]).cgaInit.crtPos = (lastRow.cgaInit.putText [0x41]).crtPos :=
  putText_shows [0x41] (by decide) rfl

end Display

end Fos.Console
