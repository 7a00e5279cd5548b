import Fos.Library.Numbers

/-! `vprintfmt` and `vsnprintf` of `lib/printfmt.c`. -/

set_option autoImplicit false

namespace Fos.Library

/-- What is handed to `putch`, call by call. -/
abbrev Text := List (BitVec 32)

/-- The words behind a `va_list`. -/
abbrev VaList := List (BitVec 32)

/-- Why there is no result: a loop has made all the rounds it was given, there is no argument, or `error_string` has no
such entry. -/
inductive Undefined where
  | rounds
  | argument
  | errorString (err : BitVec 32)
  deriving DecidableEq, Repr

abbrev Printed (α : Type) := Except Undefined α

/-- A character constant. -/
abbrev byteOf (c : Char) : BitVec 8 := BitVec.ofNat 8 c.toNat

/-- An `unsigned char` as an `int`. -/
abbrev unsignedChar (ch : BitVec 8) : BitVec 32 := ch.setWidth 32

/-- A `char` as an `int`. -/
abbrev signedChar (ch : BitVec 8) : BitVec 32 := ch.signExtend 32

/-- A character constant as an `int`. -/
abbrev code (c : Char) : BitVec 32 := unsignedChar (byteOf c)

/-- A string of the program. -/
def literal (text : String) : Bytes := fun index => (text.toList.map byteOf).getD index 0

/-! ### VaList -/

def vaArg : VaList → Printed (BitVec 32 × VaList)
  | [] => throw .argument
  | word :: ap => return (word, ap)

/-- `unsigned long long` has two words, the low one first. -/
def getuint (ap : VaList) (lflag : Nat) : Printed (BitVec 64 × VaList) := do
  if lflag ≥ 2 then
    let (low, ap) ← vaArg ap
    let (high, ap) ← vaArg ap
    return (high ++ low, ap)
  else
    let (word, ap) ← vaArg ap
    return (word.setWidth 64, ap)

def getint (ap : VaList) (lflag : Nat) : Printed (BitVec 64 × VaList) := do
  if lflag ≥ 2 then
    let (low, ap) ← vaArg ap
    let (high, ap) ← vaArg ap
    return (high ++ low, ap)
  else
    let (word, ap) ← vaArg ap
    return (word.signExtend 64, ap)

/-! ### Numbers and strings -/

def hexDigit (digit : Nat) : BitVec 32 := unsignedChar (literal "0123456789abcdef" digit)

/-- The pad characters are as many as `--width` is positive. -/
def printnum : Nat → Nat → Nat → Int → BitVec 32 → Printed Text
  | 0, _, _, _, _ => throw .rounds
  | rounds + 1, num, base, width, padc => do
      let preceding ←
        if num ≥ base then printnum rounds (num / base) base (long (width - 1)) padc
        else pure (List.replicate (long (width - 1)).toNat padc)
      return preceding ++ [hexDigit (num % base)]

def strnlen (s : Bytes) : Nat → Nat → Nat → Printed Nat
  | 0, _, _ => throw .rounds
  | rounds + 1, index, size =>
      if size > 0 ∧ s index ≠ 0 then do
        let n ← strnlen s rounds (index + 1) (size - 1)
        return n + 1
      else return 0

/-- The characters for which `(ch = *p++) != '\0' && (precision < 0 || --precision >= 0)`. -/
def stringLoop (s : Bytes) : Nat → Nat → Int → Printed (List (BitVec 8))
  | 0, _, _ => throw .rounds
  | rounds + 1, index, precision =>
      if s index ≠ 0 ∧ (precision < 0 ∨ precision - 1 ≥ 0) then do
        let chars ← stringLoop s rounds (index + 1) (if precision < 0 then precision else precision - 1)
        return s index :: chars
      else return []

/-- The variables of an escape sequence. -/
structure Flags where
  padc : BitVec 32
  width : Int
  precision : Int
  lflag : Nat
  altflag : Bool

def Flags.initial : Flags where
  padc := code ' '
  width := -1
  precision := -1
  lflag := 0
  altflag := false

/-- With `#` a character that is not printable shows as a question mark. -/
def Flags.shown (flags : Flags) (ch : BitVec 8) : BitVec 32 :=
  if flags.altflag ∧ (ch.toInt < 32 ∨ ch.toInt > 126) then code '?' else signedChar ch

/-- `if (width > 0 && padc != '-')`: the padding, and `width` behind the loop, which leaves 0 of a larger one. -/
def Flags.padLeft (flags : Flags) (limit : Nat) (s : Bytes) : Printed (Text × Int) :=
  if flags.width > 0 ∧ flags.padc ≠ code '-' then do
    let n ← strnlen s limit 0 (toUInt32 flags.precision)
    let width := long (flags.width - n)
    return (List.replicate width.toNat flags.padc, min width 0)
  else return ([], flags.width)

def putString (limit : Nat) (flags : Flags) (s : Bytes) : Printed Text := do
  let (padding, width) ← flags.padLeft limit s
  let chars ← stringLoop s limit 0 flags.precision
  return padding ++ chars.map flags.shown ++ List.replicate (long (width - chars.length)).toNat (code ' ')

/-- `num` and `base` at `number:`. -/
def putNumber (flags : Flags) (num : BitVec 64) (base : Nat) : Printed Text :=
  printnum 64 num.toNat base flags.width flags.padc

/-- A negative `%d` is a minus and the negated number. -/
def putSigned (flags : Flags) (num : BitVec 64) : Printed Text :=
  if num.msb then do
    let digits ← putNumber flags (-num) 10
    return code '-' :: digits
  else putNumber flags num 10

def errorString : List (Option String) :=
  [none, some "unspecified error", some "bad environment", some "invalid parameter", some "out of memory",
    some "out of environments", some "segmentation fault"] ++ List.replicate 94 none

/-- `printfmt` with `"error %d"` or `"%s"`. -/
def putError (limit : Nat) (err : BitVec 32) : Printed Text :=
  let err := if err.msb then -err else err
  if err.toInt > 100 then do
    let digits ← putSigned .initial (err.signExtend 64)
    return "error ".toList.map code ++ digits
  else if err.toInt < 0 then throw (.errorString err)
  else match errorString.getD err.toNat none with
    | none => do
        let digits ← putSigned .initial (err.signExtend 64)
        return "error ".toList.map code ++ digits
    | some text => putString limit .initial (literal text)

/-! ### Formats -/

/-- What ends an escape sequence. -/
inductive Conversion where
  | char
  | error
  | string
  | decimal
  | unsigned
  | octal
  | pointer
  | hexadecimal
  | percent
  deriving DecidableEq, Repr

/-- What changes the conversion behind it, and is not a number. -/
inductive Mark where
  | minus
  | zero
  | star
  | dot
  | alternate
  | long
  deriving DecidableEq, Repr

/-- The cases of the `switch`. -/
inductive Case where
  | mark (mark : Mark)
  | digit
  | conversion (conversion : Conversion)
  | default
  deriving DecidableEq, Repr

def isDigit (ch : BitVec 8) : Bool := byteOf '0' ≤ ch && ch ≤ byteOf '9'

def switch (ch : BitVec 8) : Case :=
  if ch = byteOf '-' then .mark .minus
  else if ch = byteOf '0' then .mark .zero
  else if isDigit ch then .digit
  else if ch = byteOf '*' then .mark .star
  else if ch = byteOf '.' then .mark .dot
  else if ch = byteOf '#' then .mark .alternate
  else if ch = byteOf 'l' then .mark .long
  else if ch = byteOf 'c' then .conversion .char
  else if ch = byteOf 'e' then .conversion .error
  else if ch = byteOf 's' then .conversion .string
  else if ch = byteOf 'd' then .conversion .decimal
  else if ch = byteOf 'u' then .conversion .unsigned
  else if ch = byteOf 'o' then .conversion .octal
  else if ch = byteOf 'p' then .conversion .pointer
  else if ch = byteOf 'x' then .conversion .hexadecimal
  else if ch = byteOf '%' then .conversion .percent
  else .default

def Flags.processPrecision (flags : Flags) (precision : Int) : Flags :=
  if flags.width < 0 then { flags with width := precision, precision := -1 } else { flags with precision := precision }

/-- What a mark does before `goto reswitch`. -/
def Flags.apply (flags : Flags) (ap : VaList) : Mark → Printed (Flags × VaList)
  | .minus => return ({ flags with padc := code '-' }, ap)
  | .zero => return ({ flags with padc := code '0' }, ap)
  | .star => do
      let (precision, ap) ← vaArg ap
      return (flags.processPrecision precision.toInt, ap)
  | .dot => return ({ flags with width := max flags.width 0 }, ap)
  | .alternate => return ({ flags with altflag := true }, ap)
  | .long => return ({ flags with lflag := flags.lflag + 1 }, ap)

def convert (memory : Bytes) (limit : Nat) (flags : Flags) (ap : VaList) : Conversion → Printed (Text × VaList)
  | .char => do
      let (ch, ap) ← vaArg ap
      return ([ch], ap)
  | .error => do
      let (err, ap) ← vaArg ap
      let text ← putError limit err
      return (text, ap)
  | .string => do
      let (p, ap) ← vaArg ap
      let text ← putString limit flags (if p = 0 then literal "(null)" else fun index => memory (p.toNat + index))
      return (text, ap)
  | .decimal => do
      let (num, ap) ← getint ap flags.lflag
      let text ← putSigned flags num
      return (text, ap)
  | .unsigned => do
      let (num, ap) ← getuint ap flags.lflag
      let text ← putNumber flags num 10
      return (text, ap)
  -- Replace this with your code.
  | .octal => return ([code 'X', code 'X', code 'X'], ap)
  | .pointer => do
      let (p, ap) ← vaArg ap
      let digits ← putNumber flags (p.setWidth 64) 16
      return (code '0' :: code 'x' :: digits, ap)
  | .hexadecimal => do
      let (num, ap) ← getuint ap flags.lflag
      let text ← putNumber flags num 16
      return (text, ap)
  | .percent => return ([code '%'], ap)

/-- `for (precision = 0; ; ++fmt)`: the precision, and where the number ends. -/
def precisionLoop (memory : Bytes) : Nat → Nat → BitVec 8 → Int → Printed (Int × Nat)
  | 0, _, _, _ => throw .rounds
  | rounds + 1, fmt, ch, precision =>
      let precision := long (precision * 10 + ch.toNat - 48)
      let ch := memory fmt
      if isDigit ch then precisionLoop memory rounds (fmt + 1) ch precision else return (precision, fmt)

/-- `for (fmt--; fmt[-1] != '%'; fmt--)`, behind the first decrement. -/
def defaultLoop (memory : Bytes) : Nat → Nat → Printed Nat
  | 0, _ => throw .rounds
  | rounds + 1, fmt => if memory (fmt - 1) ≠ byteOf '%' then defaultLoop memory rounds (fmt - 1) else return fmt

/-- From `reswitch` on: what is printed, and where the format goes on. -/
def reswitch (memory : Bytes) (limit : Nat) : Nat → Nat → Flags → VaList → Printed (Text × Nat × VaList)
  | 0, _, _, _ => throw .rounds
  | rounds + 1, fmt, flags, ap =>
      let ch := memory fmt
      let fmt := fmt + 1
      match switch ch with
      | .mark mark => do
          let (flags, ap) ← flags.apply ap mark
          reswitch memory limit rounds fmt flags ap
      | .digit => do
          let (precision, fmt) ← precisionLoop memory limit fmt ch 0
          reswitch memory limit rounds fmt (flags.processPrecision precision) ap
      | .conversion conversion => do
          let (text, ap) ← convert memory limit flags ap conversion
          return (text, fmt, ap)
      | .default => do
          let fmt ← defaultLoop memory limit (fmt - 1)
          return ([code '%'], fmt, ap)

/-- `vprintfmt`. No loop over the format or over a string makes more rounds than `limit`. -/
def vprintfmt (memory : Bytes) (limit : Nat) : Nat → Nat → VaList → Printed Text
  | 0, _, _ => throw .rounds
  | rounds + 1, fmt, ap => do
      let ch := memory fmt
      let fmt := fmt + 1
      if ch = byteOf '%' then
        let (text, fmt, ap) ← reswitch memory limit limit fmt .initial ap
        let rest ← vprintfmt memory limit rounds fmt ap
        return text ++ rest
      else if ch = 0 then return []
      else
        let rest ← vprintfmt memory limit rounds fmt ap
        return unsignedChar ch :: rest

/-! ### Into a buffer -/

/-- `struct sprintbuf`, with the memory its pointers point to. -/
structure SprintBuf where
  memory : Bytes
  buf : Nat
  ebuf : Nat
  cnt : Int

def SprintBuf.sprintputch (b : SprintBuf) (ch : BitVec 32) : SprintBuf :=
  let b := { b with cnt := long (b.cnt + 1) }
  if b.buf < b.ebuf then
    { b with memory := Function.update b.memory b.buf (ch.setWidth 8), buf := b.buf + 1 }
  else b

/-- `E_INVAL` of `inc/error.h`. -/
abbrev eInval : Int := -3

/-- `vsnprintf`: what it returns, and the memory behind it. What it prints does not lie in the buffer. -/
def vsnprintf (memory : Bytes) (limit buf : Nat) (n : Int) (fmt : Nat) (ap : VaList) : Printed (Int × Bytes) :=
  if buf = 0 ∨ n < 1 then return (-eInval, memory)
  else do
    let text ← vprintfmt memory limit limit fmt ap
    let b := text.foldl SprintBuf.sprintputch ⟨memory, buf, buf + n.toNat - 1, 0⟩
    return (b.cnt, Function.update b.memory b.buf 0)

end Fos.Library
