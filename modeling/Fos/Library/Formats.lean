import Fos.Library.NumbersProperties
import Fos.Library.Printf

/-! The language of format strings: what a format consists of, how it is written, and what it stands for. Every text is
the format of exactly one sequence of pieces. -/

set_option autoImplicit false

namespace Fos.Library

/-! ### Syntax -/

inductive Modifier where
  | single (mark : Mark)
  | number (n : Nat)

inductive Piece where
  | plain (ch : BitVec 8)
  | directive (modifiers : List Modifier) (conversion : Conversion)
  /-- An escape sequence that no conversion ends stands for itself. -/
  | malformed (modifiers : List Modifier)

def Mark.symbol : Mark → BitVec 8
  | .minus => byteOf '-'
  | .zero => byteOf '0'
  | .star => byteOf '*'
  | .dot => byteOf '.'
  | .alternate => byteOf '#'
  | .long => byteOf 'l'

def Conversion.symbol : Conversion → BitVec 8
  | .char => byteOf 'c'
  | .error => byteOf 'e'
  | .string => byteOf 's'
  | .decimal => byteOf 'd'
  | .unsigned => byteOf 'u'
  | .octal => byteOf 'o'
  | .pointer => byteOf 'p'
  | .hexadecimal => byteOf 'x'
  | .percent => byteOf '%'

def Modifier.text : Modifier → List (BitVec 8)
  | .single mark => [mark.symbol]
  | .number n => (decimalDigits n).map digitChar

/-- How some modifiers are written. -/
def modifiersText (modifiers : List Modifier) : List (BitVec 8) := modifiers.flatMap Modifier.text

def Piece.text : Piece → List (BitVec 8)
  | .plain ch => [ch]
  | .directive modifiers conversion => byteOf '%' :: modifiersText modifiers ++ [conversion.symbol]
  | .malformed modifiers => byteOf '%' :: modifiersText modifiers

/-- How a format is written. -/
def formatText (pieces : List Piece) : List (BitVec 8) := pieces.flatMap Piece.text

/-- No digit follows a number, and a number does not start with a zero. -/
inductive Modifiers : List Modifier → Prop where
  | nil : Modifiers []
  | single {mark rest} : Modifiers rest → Modifiers (.single mark :: rest)
  | number {n rest} : 0 < n → isDigit (current (modifiersText rest)) = false → Modifiers rest → Modifiers (.number n :: rest)

inductive Format : List Piece → Prop where
  | nil : Format []
  | plain {ch rest} : ch ≠ 0 → ch ≠ byteOf '%' → Format rest → Format (.plain ch :: rest)
  | directive {modifiers conversion rest} : Modifiers modifiers → Format rest → Format (.directive modifiers conversion :: rest)
  | malformed {modifiers rest} : Modifiers modifiers → switch (current (formatText rest)) = .default → Format rest →
      Format (.malformed modifiers :: rest)

/-! ### Meaning -/

/-- What stands behind a conversion in the arguments. -/
inductive Integer : Nat → Bool → VaList → BitVec 64 → VaList → Prop where
  | word {lflag signed word ap} : lflag < 2 →
      Integer lflag signed (word :: ap) (if signed then word.signExtend 64 else word.setWidth 64) ap
  | pair {lflag signed low high ap} : 2 ≤ lflag → Integer lflag signed (low :: high :: ap) (high ++ low) ap

/-- The characters `%s` takes from memory. -/
structure StringAt (memory : Bytes) (p : Nat) (precision : Int) (chars : List (BitVec 8)) : Prop where
  stored : Stored memory p chars
  nonzero : ∀ ch ∈ chars, ch ≠ 0
  short : 0 ≤ precision → chars.length ≤ precision
  ends : precision < 0 ∨ (chars.length : Int) < precision → memory (p + chars.length) = 0

/-- The digits of a number, the first one first. -/
def digitsIn (base n : Nat) : List Nat := if n = 0 then [0] else (Nat.digits base n).reverse

/-- A number, padded to a width. -/
def paddedNumber (flags : Flags) (n base : Nat) : Text :=
  List.replicate (long (flags.width - (digitsIn base n).length)).toNat flags.padc ++ (digitsIn base n).map hexDigit

def signedNumber (flags : Flags) (value : BitVec 64) : Text :=
  if value.msb then code '-' :: paddedNumber flags (-value).toNat 10 else paddedNumber flags value.toNat 10

/-- Characters, padded to a width on either side. -/
def paddedString (flags : Flags) (chars : List (BitVec 8)) : Text :=
  let left := long (flags.width - min chars.length (toUInt32 flags.precision))
  let before := if flags.width > 0 ∧ flags.padc ≠ code '-' then left.toNat else 0
  let width := if flags.width > 0 ∧ flags.padc ≠ code '-' then min left 0 else flags.width
  List.replicate before flags.padc ++ chars.map flags.shown ++
    List.replicate (long (width - chars.length)).toNat (code ' ')

/-- The text as characters. -/
def bytes (text : Text) : List (BitVec 8) := text.map (·.setWidth 8)

def characters (text : String) : List (BitVec 8) := text.toList.map byteOf

/-- `%e`. The most negative number has no text. -/
def errorText (err : BitVec 32) : Text :=
  let err := if err.msb then -err else err
  match errorString.getD err.toNat none with
  | none => "error ".toList.map code ++ signedNumber .initial (err.signExtend 64)
  | some text => (characters text).map signedChar

/-- What a conversion shows of the arguments. -/
inductive Shows (memory : Bytes) : Conversion → Flags → VaList → Text → VaList → Prop where
  | char {flags ch ap} : Shows memory .char flags (ch :: ap) [ch] ap
  | error {flags err ap} : err ≠ BitVec.intMin 32 → Shows memory .error flags (err :: ap) (errorText err) ap
  | null {flags chars ap} : StringAt (literal "(null)") 0 flags.precision chars →
      Shows memory .string flags (0 :: ap) (paddedString flags chars) ap
  | string {flags p chars ap} : p ≠ 0 → StringAt memory p.toNat flags.precision chars →
      Shows memory .string flags (p :: ap) (paddedString flags chars) ap
  | decimal {flags ap value rest} : Integer flags.lflag true ap value rest →
      Shows memory .decimal flags ap (signedNumber flags value) rest
  | unsigned {flags ap value rest} : Integer flags.lflag false ap value rest →
      Shows memory .unsigned flags ap (paddedNumber flags value.toNat 10) rest
  | octal {flags ap} : Shows memory .octal flags ap ("XXX".toList.map code) ap
  | pointer {flags p ap} :
      Shows memory .pointer flags (p :: ap) ("0x".toList.map code ++ paddedNumber flags p.toNat 16) ap
  | hexadecimal {flags ap value rest} : Integer flags.lflag false ap value rest →
      Shows memory .hexadecimal flags ap (paddedNumber flags value.toNat 16) rest
  | percent {flags ap} : Shows memory .percent flags ap [code '%'] ap

def Modifier.apply (flags : Flags) (ap : VaList) : Modifier → Printed (Flags × VaList)
  | .single mark => flags.apply ap mark
  | .number n => return (flags.processPrecision (long n), ap)

/-- The flags some modifiers make. -/
inductive Sets : List Modifier → Flags → VaList → Flags → VaList → Prop where
  | nil {flags ap} : Sets [] flags ap flags ap
  | cons {modifier rest flags ap next behind last left} : modifier.apply flags ap = .ok (next, behind) →
      Sets rest next behind last left → Sets (modifier :: rest) flags ap last left

/-- What a format makes of arguments. -/
inductive Renders (memory : Bytes) : List Piece → VaList → Text → Prop where
  | nil {ap} : Renders memory [] ap []
  | plain {ch rest ap text} : Renders memory rest ap text → Renders memory (.plain ch :: rest) ap (unsignedChar ch :: text)
  | directive {modifiers conversion rest ap flags behind shown left text} : Sets modifiers .initial ap flags behind →
      Shows memory conversion flags behind shown left → Renders memory rest left text →
      Renders memory (.directive modifiers conversion :: rest) ap (shown ++ text)
  | malformed {modifiers rest ap flags behind text} : Sets modifiers .initial ap flags behind →
      Renders memory rest behind text →
      Renders memory (.malformed modifiers :: rest) ap ((Piece.malformed modifiers).text.map unsignedChar ++ text)

end Fos.Library
