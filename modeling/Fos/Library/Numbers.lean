import Fos.Layout
import Fos.Library.Strings

/-! `strtol` and `ltostr` of `lib/string.c`. -/

set_option autoImplicit false

namespace Fos.Library

/-- What a `long` computation leaves in 32 bits. -/
def long (value : Int) : Int := toInt32 (toUInt32 value)

/-! ### From text to numbers

The string is what lies between the pointer and the NUL. -/

def current : List (BitVec 8) → BitVec 8
  | [] => 0
  | char :: _ => char

def skipWhitespace : List (BitVec 8) → List (BitVec 8)
  | [] => []
  | char :: s => if char = 32 ∨ char = 9 then skipWhitespace s else char :: s

/-- The digit a character is, in some base. -/
def digit (char : BitVec 8) : Option Nat :=
  let code := char.toNat
  if 48 ≤ code ∧ code ≤ 57 then some (code - 48)
  else if 97 ≤ code ∧ code ≤ 122 then some (code - 97 + 10)
  else if 65 ≤ code ∧ code ≤ 90 then some (code - 65 + 10)
  else none

/-- The loop over the digits. Overflow is not detected. -/
def digitsLoop (base : Int) : List (BitVec 8) → Int → Int × List (BitVec 8)
  | [], val => (val, [])
  | char :: s, val =>
      match digit char with
      | none => (val, char :: s)
      | some dig => if dig ≥ base then (val, char :: s) else digitsLoop base s (long (val * base + dig))

/-- The value, and the rest of the string for `endptr`. -/
def strtol (s : List (BitVec 8)) (base : Int) : Int × List (BitVec 8) :=
  let s := skipWhitespace s
  let (neg, s) :=
    if current s = 43 then (false, s.drop 1)
    else if current s = 45 then (true, s.drop 1)
    else (false, s)
  let (base, s) :=
    if (base = 0 ∨ base = 16) ∧ current s = 48 ∧ current (s.drop 1) = 120 then (16, s.drop 2)
    else if base = 0 ∧ current s = 48 then (8, s.drop 1)
    else if base = 0 then (10, s)
    else (base, s)
  let (val, s) := digitsLoop base s 0
  (if neg then long (-val) else val, s)

/-! ### From numbers to text -/

/-- The `do` loop: the digits, the last one first. It gives up when it has made all its rounds. -/
def ltostrLoop : Nat → Int → Nat → Bytes → Option (Nat × Bytes)
  | 0, _, _, _ => none
  | rounds + 1, value, s, str =>
      let mod := value.tmod 10
      let str := Function.update str s (BitVec.ofInt 8 (mod + 48))
      let value := value.tdiv 10
      if value.tmod 10 ≠ 0 then ltostrLoop rounds value (s + 1) str else some (s + 1, str)

/-- The reversal in place. As many rounds as there are characters are more than it makes. -/
def reverseLoop : Nat → Nat → Nat → Bytes → Bytes
  | 0, _, _, str => str
  | rounds + 1, first, last, str =>
      if first < last then
        let tmp := str first
        let str := Function.update str first (str last)
        let str := Function.update str last tmp
        reverseLoop rounds (first + 1) (last - 1) str
      else str

/-- A `long` has at most ten digits. -/
def ltostr (value : Int) (str : Bytes) : Option Bytes := do
  let neg := value < 0
  let str := if neg then Function.update str 0 45 else str
  let (s, str) ← ltostrLoop 10 (if neg then long (value * -1) else value) (if neg then 1 else 0) str
  let str := reverseLoop s (if neg then 1 else 0) (s - 1) str
  return Function.update str s 0

end Fos.Library
