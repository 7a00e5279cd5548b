import Fos.Foundation.Scrolling

/-! The text mode display of `kern/console.c`. Which of the two adapters was found is left out, and so is the
parallel port. -/

set_option autoImplicit false

namespace Fos.Console

open Foundation

abbrev crtCols : Nat := 80
abbrev crtSize : Nat := 25 * crtCols

abbrev blank : BitVec 16 := 0x0720

/-- The variables of the display, with the registers of the 6845 and the one of them that is selected. -/
structure Display where
  crtBuf : Nat → BitVec 16
  crtPos : BitVec 16
  textLength : Int
  selected : BitVec 8
  registers : BitVec 8 → BitVec 8

namespace Display

/-- The index port of the 6845 selects a register. -/
def select (display : Display) (register : BitVec 8) : Display := { display with selected := register }

/-- The data port of the 6845 writes the selected register. -/
def output (display : Display) (value : BitVec 8) : Display :=
  { display with registers := Function.update display.registers display.selected value }

/-- The data port of the 6845 reads the selected register. -/
def input (display : Display) : BitVec 8 := display.registers display.selected

/-- `cga_init`, from where it extracts the cursor location. -/
def cgaInit (display : Display) : Display :=
  let display := display.select 14
  let pos : BitVec 32 := display.input.setWidth 32 <<< 8
  let display := display.select 15
  let pos := pos ||| display.input.setWidth 32
  { display with crtPos := pos.setWidth 16 }

def put (display : Display) (c : BitVec 16) : Display :=
  { display with crtBuf := Function.update display.crtBuf display.crtPos.toNat c }

def backspace (c : BitVec 32) (display : Display) : Display :=
  if display.crtPos > 0 then
    { display with crtPos := display.crtPos - 1 }.put (((c &&& ~~~0xff) ||| 0x20).setWidth 16)
  else display

def carriageReturn (display : Display) : Display :=
  { display with crtPos := display.crtPos - display.crtPos % crtCols }

/-- `case '\n'`, which falls through. -/
def newline (display : Display) : Display :=
  { display with crtPos := display.crtPos + crtCols, textLength := 0 }.carriageReturn

def left (display : Display) : Display :=
  if display.crtPos > 0 then { display with crtPos := display.crtPos - 1 } else display

def right (display : Display) : Display :=
  if display.crtPos < crtSize then { display with crtPos := display.crtPos + 1 } else display

/-- The `default` case. -/
def print (c : BitVec 32) (display : Display) : Display :=
  if c ≠ 228 ∧ c ≠ 229 then
    let display := { display.put (c.setWidth 16) with crtPos := display.crtPos + 1 }
    if (display.crtPos.toNat : Int) > 1920 + display.textLength then { display with textLength := display.textLength + 1 }
    else display
  else display

/-- The `switch`. A Tab calls `cons_putc` for each of its spaces. -/
def switch (tab : Display → Display) (c : BitVec 32) (display : Display) : Display :=
  if c &&& 0xff = 8 then display.backspace c
  else if c &&& 0xff = 10 then display.newline
  else if c &&& 0xff = 13 then display.carriageReturn
  else if c &&& 0xff = 9 then tab display
  else if c &&& 0xff = 228 then display.left
  else if c &&& 0xff = 229 then display.right
  else display.print c

/-- The `memcpy` is one from front to back. -/
def scroll (display : Display) : Display :=
  if display.crtPos ≥ crtSize then
    { display with
      crtBuf := Scrolling.fill blank (crtSize - crtCols) crtCols (Scrolling.slide crtCols 0 (crtSize - crtCols) display.crtBuf)
      crtPos := display.crtPos - crtCols }
  else display

def moveCursor (display : Display) : Display :=
  let display := (display.select 14).output ((display.crtPos >>> 8).setWidth 8)
  (display.select 15).output (display.crtPos.setWidth 8)

/-- If no attribute is given, then black on white. -/
def colour (c : BitVec 32) : BitVec 32 := if c &&& ~~~0xFF = 0 then c ||| 0x0700 else c

def putcWith (tab : Display → Display) (c : BitVec 32) (display : Display) : Display :=
  (switch tab (colour c) display).scroll.moveCursor

def putSpace (display : Display) : Display := putcWith id 0x20 display

def cgaPutc (c : BitVec 32) (display : Display) : Display :=
  putcWith (fun display => display.putSpace.putSpace.putSpace.putSpace.putSpace) c display

def consPutc (c : BitVec 32) (display : Display) : Display := display.cgaPutc c

/-- The calls of `cputchar` for a text. -/
def putText (text : List (BitVec 32)) (display : Display) : Display :=
  text.foldl (fun display c => display.consPutc c) display

end Display

end Fos.Console
