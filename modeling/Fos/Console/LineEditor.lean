import Fos.Foundation.Runs
import Fos.Foundation.Weakest
import Mathlib.Logic.Function.Basic

/-! `command_prompt_readline` of `kern/command_prompt.c`, with the history of commands. What it
writes to the screen is left out. -/

set_option autoImplicit false

namespace Fos.Console

open Foundation

abbrev bufLen : Nat := 1024
abbrev historyMax : Int := 19

/-- A buffer of `BUFLEN` characters. -/
abbrev Line := Int → BitVec 8

def Line.empty : Line := fun _ => 0

/-- The history, and the variables of `command_prompt_readline`. -/
structure Editor where
  buf : Line
  i : Int
  lastIndex : Int
  commandidx : Int
  lastCommandIdx : Int
  commandHistory : Int → Line

/-- An access outside its array: to `buf`, to a row of `command_history`, or behind a row without a NUL. -/
inductive OutOfBounds where
  | buf (index : Int)
  | row (index : Int)
  | unterminated
  deriving DecidableEq, Repr

abbrev EditorM := EStateM OutOfBounds Editor

def readBuf (index : Int) : EditorM (BitVec 8) := do
  let editor ← get
  if 0 ≤ index ∧ index < bufLen then return editor.buf index else throw (.buf index)

def writeBuf (index : Int) (c : BitVec 8) : EditorM Unit :=
  if 0 ≤ index ∧ index < bufLen then modify fun editor => { editor with buf := Function.update editor.buf index c }
  else throw (.buf index)

def readRow (index : Int) : EditorM Line := do
  let editor ← get
  if 0 ≤ index ∧ index ≤ historyMax then return editor.commandHistory index else throw (.row index)

def writeRow (index : Int) (row : Line) : EditorM Unit :=
  if 0 ≤ index ∧ index ≤ historyMax then
    modify fun editor => { editor with commandHistory := Function.update editor.commandHistory index row }
  else throw (.row index)

/-- The first character of a buffer at which a loop over its characters stops. -/
def scan (stops : Int → Bool) : EditorM Nat :=
  match (List.range bufLen).find? fun index : Nat => stops index with
  | some index => pure index
  | none => throw .unterminated

def strlen (s : Line) : EditorM Nat := scan fun index => s index == 0

def strcmp (p q : Line) : EditorM Int := do
  let index ← scan fun index => p index == 0 || p index != q index
  return (p index).toNat - (q index).toNat

/-! ### Recalling a command -/

/-- `for (*i = 0; *i < len; (*i)++)`, with the rounds that are left. -/
def copyCommand (row : Line) : Nat → EditorM Unit
  | 0 => pure ()
  | count + 1 => do
      let i := (← get).i
      writeBuf i (row i)
      modify fun editor => { editor with i := i + 1 }
      copyCommand row count

def clearAndWriteCommand (commandidx : Int) : EditorM Unit := do
  let row ← readRow commandidx
  let len ← strlen row
  modify fun editor => { editor with buf := .empty, i := 0 }
  copyCommand row len
  modify fun editor => { editor with lastIndex := len }

def upArrow : EditorM Unit := do
  modify fun editor => if editor.commandidx ≠ 0 then { editor with commandidx := editor.commandidx - 1 } else editor
  clearAndWriteCommand (← get).commandidx

def downArrow : EditorM Unit := do
  modify fun editor =>
    if editor.commandidx < editor.lastCommandIdx then { editor with commandidx := editor.commandidx + 1 } else editor
  let editor ← get
  if editor.lastCommandIdx ≥ 0 then clearAndWriteCommand editor.commandidx

/-! ### Editing -/

/-- `buf[var] = buf[var + 1]` for the characters from `var` on. -/
def shiftLeft (var : Int) : Nat → EditorM Unit
  | 0 => pure ()
  | count + 1 => do
      writeBuf var (← readBuf (var + 1))
      shiftLeft (var + 1) count

def deleteKey : EditorM Unit := do
  let editor ← get
  shiftLeft editor.i (editor.lastIndex + 1 - editor.i).toNat
  modify fun editor => { editor with lastIndex := editor.lastIndex - 1 }

def insertKey (c : BitVec 8) : EditorM Unit := do
  writeBuf (← get).i c
  modify fun editor => { editor with i := editor.i + 1, lastIndex := editor.lastIndex + 1 }

def backspace : EditorM Unit := do
  let i := (← get).i
  writeBuf (i - 1) (← readBuf i)
  modify fun editor => { editor with i := editor.i - 1 }

/-! ### The end of a line -/

/-- `memcpy(command_history[idx], command_history[idx + 1], BUFLEN)` from `idx` on. -/
def shiftHistory (idx : Int) : Nat → EditorM Unit
  | 0 => pure ()
  | count + 1 => do
      writeRow idx (← readRow (idx + 1))
      shiftHistory (idx + 1) count

def enterKey : EditorM Unit := do
  writeBuf (← get).lastIndex 0
  let editor ← get
  if editor.lastCommandIdx = historyMax then
    shiftHistory 0 historyMax.toNat
    writeRow historyMax editor.buf
  else if (← strcmp (← readRow editor.lastCommandIdx) editor.buf) ≠ 0 then
    modify fun editor => { editor with lastCommandIdx := editor.lastCommandIdx + 1 }
    writeRow (editor.lastCommandIdx + 1) editor.buf

/-- What `getchar` returns, other than a Tab. -/
structure Key where
  code : BitVec 8
  notTab : code ≠ 9

namespace Key

def up : Key := ⟨226, by decide⟩
def down : Key := ⟨227, by decide⟩
def left : Key := ⟨228, by decide⟩
def enter : Key := ⟨10, by decide⟩

def isEnter (key : Key) : Bool := key.code = 10 ∨ key.code = 13

end Key

namespace Editor

/-- `lastIndex` follows the cursor when it moves behind the text. -/
def adjusted (editor : Editor) : Editor :=
  if editor.i > editor.lastIndex then { editor with lastIndex := editor.i } else editor

/-- The key is a character of the line. -/
def Inserts (editor : Editor) (key : Key) : Prop :=
  key.code ≥ 32 ∧ editor.i < bufLen - 1 ∧ key.code ≠ 229 ∧ key.code ≠ 228

instance (editor : Editor) (key : Key) : Decidable (editor.Inserts key) := inferInstanceAs (Decidable (_ ∧ _))

end Editor

/-- What a key does. A code is never negative. -/
def respond (key : Key) : EditorM Unit := do
  let editor ← get
  if key.code = 226 then upArrow
  else if key.code = 227 then downArrow
  else if key.code = 228 then
    if editor.i > 0 then modify fun editor => { editor with i := editor.i - 1 }
  else if key.code = 229 then
    if editor.i < editor.lastIndex then modify fun editor => { editor with i := editor.i + 1 }
  else if key.code = 0xE9 ∧ editor.i > 0 then deleteKey
  else if editor.Inserts key then insertKey key.code
  else if key.code = 8 ∧ editor.i > 0 then backspace
  else if key.isEnter then enterKey

/-- One round of the loop, and whether it ends the line. -/
def readKey (key : Key) : EditorM Bool := do
  modify Editor.adjusted
  respond key
  return key.isEnter

/-- The variables at the start of a line, in a cleared buffer as `run_command_prompt` provides it. -/
def Editor.newLine (editor : Editor) : Editor :=
  { editor with buf := .empty, i := 0, lastIndex := 0, commandidx := editor.lastCommandIdx + 1 }

end Fos.Console
