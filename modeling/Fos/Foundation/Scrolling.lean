import Mathlib.Logic.Function.Basic

/-! Text on a sheet that has no end, and a window that shows its last rows. The sheet is never moved: where the
window moves its cells up, more of the sheet is above it. -/

set_option autoImplicit false

namespace Fos.Foundation.Scrolling

variable {Cell : Type} {cells : Nat → Cell} {cell : Cell} {distance start count index : Nat}

/-! ### Loops over cells -/

/-- Every one of `count` cells gets what is `distance` behind it, the first cell first. -/
def slide (distance : Nat) : Nat → Nat → (Nat → Cell) → Nat → Cell
  | _, 0, cells => cells
  | start, count + 1, cells => slide distance (start + 1) count (Function.update cells start (cells (start + distance)))

/-- Every one of `count` cells gets the same. -/
def fill (cell : Cell) : Nat → Nat → (Nat → Cell) → Nat → Cell
  | _, 0, cells => cells
  | start, count + 1, cells => fill cell (start + 1) count (Function.update cells start cell)

/-- What a cell gets was not overwritten before, since the loop goes upwards. -/
theorem slide_apply : slide distance start count cells index =
    if start ≤ index ∧ index < start + count then cells (index + distance) else cells index := by
  induction count generalizing start cells with
  | zero => exact (if_neg (by omega)).symm
  | succ count ih =>
      rw [slide, ih]
      cases Nat.lt_trichotomy index start with
      | inl before => rw [if_neg (by omega), if_neg (by omega), Function.update_of_ne (by omega)]
      | inr others =>
          cases others with
          | inl here =>
              subst here
              rw [if_neg (by omega), if_pos (by omega), Function.update_self]
          | inr behind =>
              have away : index + distance ≠ start := by omega
              have same : start + 1 ≤ index ∧ index < start + 1 + count ↔ start ≤ index ∧ index < start + (count + 1) := by omega
              rw [Function.update_of_ne away, Function.update_of_ne (by omega)]
              exact if_congr same rfl rfl

theorem fill_apply : fill cell start count cells index =
    if start ≤ index ∧ index < start + count then cell else cells index := by
  induction count generalizing start cells with
  | zero => exact (if_neg (by omega)).symm
  | succ count ih =>
      rw [fill, ih]
      cases decEq index start with
      | isTrue here =>
          subst here
          rw [if_neg (by omega), if_pos (by omega), Function.update_self]
      | isFalse away =>
          have same : start + 1 ≤ index ∧ index < start + 1 + count ↔ start ≤ index ∧ index < start + (count + 1) := by omega
          rw [Function.update_of_ne away]
          exact if_congr same rfl rfl

/-! ### Sheets and windows -/

/-- Cells, and the one that is written next. -/
structure Window (Cell : Type) where
  cell : Nat → Cell
  cursor : Nat

/-- A sheet, and the first of its cells that is in view. -/
structure Sheet (Cell : Type) extends Window Cell where
  top : Nat

namespace Window

def moveTo (window : Window Cell) (cursor : Nat) : Window Cell := { window with cursor }

def write (window : Window Cell) (index : Nat) (cell : Cell) : Window Cell :=
  { window with cell := Function.update window.cell index cell }

/-- The first row is given up if the cursor is behind the last one. -/
def roll (columns size : Nat) (blank : Cell) (window : Window Cell) : Window Cell :=
  if size ≤ window.cursor then
    { cell := fill blank (size - columns) columns (slide columns 0 (size - columns) window.cell)
      cursor := window.cursor - columns }
  else window

end Window

namespace Sheet

def moveTo (sheet : Sheet Cell) (cursor : Nat) : Sheet Cell := { sheet with cursor }

def write (sheet : Sheet Cell) (index : Nat) (cell : Cell) : Sheet Cell :=
  { sheet with cell := Function.update sheet.cell index cell }

/-- The view follows the cursor. -/
def follow (columns size : Nat) (sheet : Sheet Cell) : Sheet Cell :=
  if sheet.top + size ≤ sheet.cursor then { sheet with top := sheet.top + columns } else sheet

/-- The sheet under a window, with nothing on its further rows. -/
def under (size : Nat) (blank : Cell) (window : Window Cell) : Sheet Cell where
  cell index := if index < size then window.cell index else blank
  cursor := window.cursor
  top := 0

end Sheet

/-- The window shows the rows of the sheet from the top of the view on. Nothing is written behind them. -/
structure Shows (columns size : Nat) (blank : Cell) (window : Window Cell) (sheet : Sheet Cell) : Prop where
  cursor : sheet.cursor = sheet.top + window.cursor
  bound : window.cursor ≤ size
  rows : columns ∣ sheet.top
  same : ∀ index < size, window.cell index = sheet.cell (sheet.top + index)
  unwritten : ∀ index, sheet.top + size ≤ index → sheet.cell index = blank

namespace Shows

variable {columns size : Nat} {blank : Cell} {window : Window Cell} {sheet : Sheet Cell}

theorem under (bound : window.cursor ≤ size) : Shows columns size blank window (.under size blank window) where
  cursor := (Nat.zero_add _).symm
  bound := bound
  rows := Nat.dvd_zero columns
  same index inside := by
    change _ = if 0 + index < size then window.cell (0 + index) else blank
    rw [Nat.zero_add, if_pos inside]
  unwritten index behind := by
    rw [show (Sheet.under size blank window).top = 0 from rfl, Nat.zero_add] at behind
    exact if_neg (Nat.not_lt.2 behind)

theorem moveTo (shows : Shows columns size blank window sheet) (bound : index ≤ size) :
    Shows columns size blank (window.moveTo index) (sheet.moveTo (sheet.top + index)) where
  cursor := rfl
  bound := bound
  rows := shows.rows
  same := shows.same
  unwritten := shows.unwritten

theorem write (shows : Shows columns size blank window sheet) (inside : index < size) (cell : Cell) :
    Shows columns size blank (window.write index cell) (sheet.write (sheet.top + index) cell) where
  cursor := shows.cursor
  bound := shows.bound
  rows := shows.rows
  same other bound := by
    change Function.update window.cell index cell other = Function.update sheet.cell (sheet.top + index) cell (sheet.top + other)
    cases decEq other index with
    | isTrue here =>
        subst here
        rw [Function.update_self, Function.update_self]
    | isFalse away =>
        rw [Function.update_of_ne away, Function.update_of_ne (by omega)]
        exact shows.same other bound
  unwritten other behind := by
    change sheet.top + size ≤ other at behind
    change Function.update sheet.cell (sheet.top + index) cell other = blank
    rw [Function.update_of_ne (by omega)]
    exact shows.unwritten other behind

/-- Moving the cells up shows what moving the view down does. -/
theorem roll (shows : Shows columns size blank window sheet) (fits : columns ≤ size) :
    Shows columns size blank (window.roll columns size blank) (sheet.follow columns size) := by
  unfold Window.roll Sheet.follow
  have same : size ≤ window.cursor ↔ sheet.top + size ≤ sheet.cursor := by
    rw [shows.cursor]
    omega
  rw [if_congr same rfl rfl]
  split
  · next full =>
      have cursor := shows.cursor
      have bound := shows.bound
      refine ⟨by simp only []; omega, by simp only []; omega, Nat.dvd_add shows.rows (Nat.dvd_refl columns), ?_, ?_⟩
      · intro index inside
        simp only [fill_apply, slide_apply]
        split
        · next last => exact (shows.unwritten _ (by omega)).symm
        · next earlier =>
            rw [if_pos (by omega), shows.same _ (by omega)]
            congr 1
            omega
      · intro index behind
        exact shows.unwritten index (by simp only [] at behind; omega)
  · exact shows

/-- Where the cursor is in its row does not depend on what is in view. -/
theorem mod_eq (shows : Shows columns size blank window sheet) : sheet.cursor % columns = window.cursor % columns := by
  obtain ⟨above, rows⟩ := shows.rows
  rw [shows.cursor, rows, Nat.mul_add_mod]

end Shows

end Fos.Foundation.Scrolling
