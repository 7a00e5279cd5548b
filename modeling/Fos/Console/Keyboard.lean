import Fos.Console.Display

/-! The keyboard of `kern/console.c`. -/

set_option autoImplicit false

namespace Fos.Console

open Foundation

/-! ### Tables -/

abbrev shiftBit : BitVec 32 := 1
abbrev ctlBit : BitVec 32 := 2
abbrev altBit : BitVec 32 := 4
abbrev capsLockBit : BitVec 32 := 8
abbrev numLockBit : BitVec 32 := 16
abbrev scrollLockBit : BitVec 32 := 32
abbrev e0Esc : BitVec 32 := 64

abbrev keyDel : BitVec 8 := 0xE9

def shiftCode (data : BitVec 8) : BitVec 32 :=
  if data = 0x1D ∨ data = 0x9D then ctlBit
  else if data = 0x2A ∨ data = 0x36 then shiftBit
  else if data = 0x38 ∨ data = 0xB8 then altBit
  else 0

def toggleCode (data : BitVec 8) : BitVec 32 :=
  if data = 0x3A then capsLockBit else if data = 0x45 then numLockBit else if data = 0x46 then scrollLockBit else 0

/-- The characters of keys that stand next to each other. -/
def keys (chars : List Char) : List (BitVec 8) := chars.map fun char => BitVec.ofNat 8 char.toNat

/-- The keypad, which a shift key does not change. -/
def keypad : List (BitVec 8) :=
  keys ['7', '8', '9', '-', '4', '5', '6', '+', '1', '2', '3', '0', '.']

def normalRow : List (BitVec 8) :=
  [0, 0x1B] ++ keys ['1', '2', '3', '4', '5', '6', '7', '8', '9', '0', '-', '='] ++ [8, 9] ++
    keys ['q', 'w', 'e', 'r', 't', 'y', 'u', 'i', 'o', 'p', '[', ']'] ++ [10, 0] ++
    keys ['a', 's', 'd', 'f', 'g', 'h', 'j', 'k', 'l', ';', '\'', '`'] ++ [0] ++
    keys ['\\', 'z', 'x', 'c', 'v', 'b', 'n', 'm', ',', '.', '/'] ++ [0] ++ keys ['*'] ++ [0] ++ keys [' '] ++
    List.replicate 13 0 ++ keypad

def shiftRow : List (BitVec 8) :=
  [0, 0x1B] ++ keys ['!', '@', '#', '$', '%', '^', '&', '*', '(', ')', '_', '+'] ++ [8, 9] ++
    keys ['Q', 'W', 'E', 'R', 'T', 'Y', 'U', 'I', 'O', 'P', '{', '}'] ++ [10, 0] ++
    keys ['A', 'S', 'D', 'F', 'G', 'H', 'J', 'K', 'L', ':', '"', '~'] ++ [0] ++
    keys ['|', 'Z', 'X', 'C', 'V', 'B', 'N', 'M', '<', '>', '?'] ++ [0] ++ keys ['*'] ++ [0] ++ keys [' '] ++
    List.replicate 13 0 ++ keypad

/-- `C(x)`: the control codes of letters. -/
def ctl (chars : List Char) : List (BitVec 8) := (keys chars).map fun char => char - 0x40

def ctlRow : List (BitVec 8) :=
  List.replicate 16 0 ++ ctl ['Q', 'W', 'E', 'R', 'T', 'Y', 'U', 'I', 'O', 'P'] ++ [0, 0, 13, 0] ++
    ctl ['A', 'S', 'D', 'F', 'G', 'H', 'J', 'K', 'L'] ++ List.replicate 4 0 ++
    ctl ['\\', 'Z', 'X', 'C', 'V', 'B', 'N', 'M'] ++ [0, 0] ++ ctl ['/'] ++ [0, 0, 0, 0xFF]

/-- The special keys, which all the maps have. -/
def specialKey (data : BitVec 8) : BitVec 8 :=
  if data = 0x97 then 0xE0 else if data = 0xC8 then 0xE2 else if data = 0xC9 then 0xE6
  else if data = 0xCB then 0xE4 else if data = 0xCD then 0xE5 else if data = 0xCF then 0xE1
  else if data = 0xD0 then 0xE3 else if data = 0xD1 then 0xE7 else if data = 0xD2 then 0xE8
  else if data = 0xD3 then keyDel else 0

/-- `normalmap` and `shiftmap`, which have the same keys behind an E0. -/
def charMap (row : List (BitVec 8)) (data : BitVec 8) : BitVec 8 :=
  if data = 0x9C then 10 else if data = 0xB5 then 0x2F else (row[data.toNat]?).getD (specialKey data)

def ctlMap (data : BitVec 8) : BitVec 8 :=
  if data = 0xB5 then 0x2F - 0x40 else (ctlRow[data.toNat]?).getD (specialKey data)

/-- The map that Shift and Ctrl select. -/
def charCode (shift : BitVec 32) (data : BitVec 8) : BitVec 8 :=
  if shift &&& ctlBit ≠ 0 then ctlMap data
  else if shift &&& shiftBit ≠ 0 then charMap shiftRow data
  else charMap normalRow data

/-! ### `kbd_proc_data` -/

/-- The display, the `shift` of `kbd_proc_data`, and whether it has rebooted the machine. -/
structure Terminal where
  display : Display
  shift : BitVec 32
  rebooted : Bool

/-- `KEY_DEL`. The characters from the cursor on move back. -/
def Display.deleteNext (display : Display) : BitVec 8 × Display :=
  if display.textLength > 0 then
    if (display.crtPos.toNat : Int) = 1920 + display.textLength then (0, display)
    else
      let textLength := display.textLength - 1
      let crtPosLength : Int := display.crtPos.toNat - 1925
      let rounds := (textLength + 1 - crtPosLength).toNat
      (keyDel, { display with textLength, crtBuf := Scrolling.slide 1 display.crtPos.toNat rounds display.crtBuf })
  else (0, display)

/-- Caps Lock swaps the case of letters. -/
def swapCase (c : BitVec 8) : BitVec 8 :=
  if 0x61 ≤ c ∧ c ≤ 0x7A then c - 0x20 else if 0x41 ≤ c ∧ c ≤ 0x5A then c + 0x20 else c

def rebooting : List (BitVec 32) := (keys ['R', 'e', 'b', 'o', 'o', 't', 'i', 'n', 'g', '!', '\n']).map (BitVec.setWidth 32)

namespace Terminal

/-- What `kbd_proc_data` does when the key is known. -/
def press (terminal : Terminal) (data : BitVec 8) : BitVec 8 × Terminal :=
  let shift := (terminal.shift ||| shiftCode data) ^^^ toggleCode data
  let terminal := { terminal with shift }
  let c := charCode shift data
  if c = keyDel then
    let (c, display) := terminal.display.deleteNext
    (c, { terminal with display })
  else
    let c := if shift &&& capsLockBit ≠ 0 then swapCase c else c
    if shift = numLockBit ∧ 0x30 ≤ c ∧ c ≤ 0x39 then (0, terminal)
    else if c = 0xFF then (0, terminal)
    else if ~~~shift &&& (ctlBit ||| altBit) = 0 ∧ c = keyDel then
      (c, { terminal with display := terminal.display.putText rebooting, rebooted := true })
    else (c, terminal)

/-- `kbd_proc_data`, for a byte of the keyboard controller. -/
def kbdProcData (terminal : Terminal) (data : BitVec 8) : BitVec 8 × Terminal :=
  if data = 0xE0 then (0, { terminal with shift := terminal.shift ||| e0Esc })
  else if data &&& 0x80 ≠ 0 then
    let data := if terminal.shift &&& e0Esc ≠ 0 then data else data &&& 0x7F
    (0, { terminal with shift := terminal.shift &&& ~~~(shiftCode data ||| e0Esc) })
  else if terminal.shift &&& e0Esc ≠ 0 then
    { terminal with shift := terminal.shift &&& ~~~e0Esc }.press (data ||| 0x80)
  else terminal.press data

/-- The replies to the bytes of the controller, one after the other. -/
def kbdReplies (terminal : Terminal) : List (BitVec 8) → List (BitVec 8) × Terminal
  | [] => ([], terminal)
  | data :: bytes =>
      let (reply, terminal) := terminal.kbdProcData data
      let (replies, terminal) := terminal.kbdReplies bytes
      (reply :: replies, terminal)

end Terminal

end Fos.Console
