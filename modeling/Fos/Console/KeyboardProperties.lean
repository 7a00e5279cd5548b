import Fos.Console.Input
import Fos.Console.Keyboard

/-! What a keyboard types: `kbd_proc_data` follows what was pressed and released, however its codes arrive. -/

set_option autoImplicit false

namespace Fos.Console

open Foundation

/-- A key, by its place in the tables of the driver: 0x80 or more for those whose codes follow an E0. -/
structure KeySlot where
  data : BitVec 8
  notEscape : data &&& 0x7F ≠ 0x60

inductive Stroke where
  | press (key : KeySlot)
  | release (key : KeySlot)

namespace Stroke

def data : Stroke → BitVec 8
  | press key => key.data
  | release key => key.data

def isPress : Stroke → Bool
  | press _ => true
  | release _ => false

/-- What the controller delivers. -/
def codes : Stroke → List (BitVec 8)
  | press key => if key.data &&& 0x80 = 0 then [key.data] else [0xE0, key.data &&& 0x7F]
  | release key => if key.data &&& 0x80 = 0 then [key.data ||| 0x80] else [0xE0, key.data]

end Stroke

/-! ### What is held, from the strokes, the last one first -/

/-- A key of this kind is held: the last stroke of one is a press. -/
def isHeld (flag : BitVec 32) (strokes : List Stroke) : Bool :=
  (strokes.find? fun stroke => shiftCode stroke.data = flag).any Stroke.isPress

/-- A lock is on after an odd number of presses. -/
def isLocked (flag : BitVec 32) (strokes : List Stroke) : Bool :=
  (strokes.countP fun stroke => stroke.isPress && toggleCode stroke.data = flag) % 2 = 1

structure Modifiers where
  shift : Bool
  ctl : Bool
  alt : Bool
  capsLock : Bool
  numLock : Bool
  scrollLock : Bool

namespace Modifiers

def after (strokes : List Stroke) : Modifiers where
  shift := isHeld shiftBit strokes
  ctl := isHeld ctlBit strokes
  alt := isHeld altBit strokes
  capsLock := isLocked capsLockBit strokes
  numLock := isLocked numLockBit strokes
  scrollLock := isLocked scrollLockBit strokes

/-- The `shift` of `kbd_proc_data`. -/
def word (modifiers : Modifiers) : BitVec 32 :=
  BitVec.ofNat 32 (modifiers.shift.toNat + 2 * modifiers.ctl.toNat + 4 * modifiers.alt.toNat + 8 * modifiers.capsLock.toNat +
    16 * modifiers.numLock.toNat + 32 * modifiers.scrollLock.toNat)

/-- Num Lock is all that is on, which makes the digits dead. -/
def deadDigits (modifiers : Modifiers) : Bool :=
  !modifiers.shift && !modifiers.ctl && !modifiers.alt && !modifiers.capsLock && modifiers.numLock && !modifiers.scrollLock

/-- The character of a key, or 0. -/
def char (modifiers : Modifiers) (data : BitVec 8) : BitVec 8 :=
  let c := if modifiers.ctl then ctlMap data else if modifiers.shift then charMap shiftRow data else charMap normalRow data
  let c := if modifiers.capsLock then swapCase c else c
  if modifiers.deadDigits ∧ 0x30 ≤ c ∧ c ≤ 0x39 ∨ c = 0xFF then 0 else c

end Modifiers

/-- What a stroke types, after those before it, and what it does to the display. -/
def answer (before : List Stroke) (display : Display) (stroke : Stroke) : BitVec 8 × Display :=
  if stroke.isPress then
    if stroke.data = 0xD3 then display.deleteNext
    else ((Modifiers.after (stroke :: before)).char stroke.data, display)
  else (0, display)

/-- What the strokes of a list type, after those before them. -/
def typedBy (before : List Stroke) (display : Display) : List Stroke → List (BitVec 8) × Display
  | [] => ([], display)
  | stroke :: strokes =>
      let first := answer before display stroke
      let rest := typedBy (stroke :: before) first.2 strokes
      ((if first.1 = 0 then [] else [first.1]) ++ rest.1, rest.2)

variable {flag : BitVec 32} {strokes before : List Stroke} {key : KeySlot} {display : Display}

/-! ### One more stroke -/

theorem isHeld_press : isHeld flag (.press key :: strokes) = (isHeld flag strokes || shiftCode key.data = flag) := by
  unfold isHeld
  cases decEq (shiftCode key.data) flag with
  | isTrue same =>
      rw [List.find?_cons_of_pos (by exact decide_eq_true same), decide_eq_true same, Bool.or_true]
      rfl
  | isFalse other =>
      rw [List.find?_cons_of_neg (by exact fun same => other (of_decide_eq_true same)), decide_eq_false other, Bool.or_false]

theorem isHeld_release :
    isHeld flag (.release key :: strokes) = (isHeld flag strokes && shiftCode key.data ≠ flag) := by
  unfold isHeld
  cases decEq (shiftCode key.data) flag with
  | isTrue same =>
      rw [List.find?_cons_of_pos (by exact decide_eq_true same), decide_eq_false (not_not_intro same), Bool.and_false]
      rfl
  | isFalse other =>
      rw [List.find?_cons_of_neg (by exact fun same => other (of_decide_eq_true same)), decide_eq_true other, Bool.and_true]

theorem isLocked_press : isLocked flag (.press key :: strokes) = (isLocked flag strokes ^^ (toggleCode key.data = flag)) := by
  unfold isLocked
  cases decEq (toggleCode key.data) flag with
  | isTrue same =>
      rw [List.countP_cons_of_pos (by exact decide_eq_true same), decide_eq_true same, Bool.xor_true]
      have parity := Nat.mod_two_eq_zero_or_one (strokes.countP fun stroke => stroke.isPress && toggleCode stroke.data = flag)
      rw [← decide_not, decide_eq_decide]
      omega
  | isFalse other =>
      rw [List.countP_cons_of_neg (by exact fun same => other (of_decide_eq_true same)), decide_eq_false other, Bool.xor_false]

theorem isLocked_release : isLocked flag (.release key :: strokes) = isLocked flag strokes := by
  unfold isLocked
  rw [List.countP_cons_of_neg (by exact Bool.false_ne_true)]

namespace Modifiers

variable {data : BitVec 8} {modifiers : Modifiers} {code toggle : BitVec 32}

private theorem shiftCode_mem (data : BitVec 8) : shiftCode data ∈ [0, shiftBit, ctlBit, altBit] := by
  unfold shiftCode
  split
  · exact .tail _ (.tail _ (.head _))
  split
  · exact .tail _ (.head _)
  split
  · exact .tail _ (.tail _ (.tail _ (.head _)))
  · exact .head _

private theorem toggleCode_mem (data : BitVec 8) : toggleCode data ∈ [0, capsLockBit, numLockBit, scrollLockBit] := by
  unfold toggleCode
  split
  · exact .tail _ (.head _)
  split
  · exact .tail _ (.tail _ (.head _))
  split
  · exact .tail _ (.tail _ (.tail _ (.head _)))
  · exact .head _

/-- A property of all modifiers is one of six bits. -/
private theorem forall_iff {property : Modifiers → Prop} :
    (∀ modifiers, property modifiers) ↔ ∀ shift ctl alt capsLock numLock scrollLock : Bool,
      property ⟨shift, ctl, alt, capsLock, numLock, scrollLock⟩ :=
  ⟨fun all _ _ _ _ _ _ => all _, fun all modifiers => all modifiers.1 modifiers.2 modifiers.3 modifiers.4 modifiers.5 modifiers.6⟩

/-- The masks with which a release clears the bits of shift keys. -/
def releaseMasks : List (BitVec 32 × BitVec 32) :=
  [(0, 0xFFFFFFBF), (shiftBit, 0xFFFFFFBE), (ctlBit, 0xFFFFFFBD), (altBit, 0xFFFFFFBB)]

private theorem release_mask {code : BitVec 32} (member : code ∈ [0, shiftBit, ctlBit, altBit]) :
    (code, ~~~(code ||| e0Esc)) ∈ releaseMasks := by
  simp only [releaseMasks, List.mem_cons, List.not_mem_nil, or_false] at member ⊢
  rcases member with rfl | rfl | rfl | rfl
  · exact .inl rfl
  · exact .inr (.inl rfl)
  · exact .inr (.inr (.inl rfl))
  · exact .inr (.inr (.inr rfl))

/-- A press turns on the bit of a shift key and turns over that of a lock; a release turns the bit off, and the escape
bit with it. The bits can be read back. -/
private theorem word_facts : ∀ modifiers : Modifiers,
    ([0, shiftBit, ctlBit, altBit].all fun code => modifiers.word ||| code =
      { modifiers with
        shift := modifiers.shift || code = shiftBit
        ctl := modifiers.ctl || code = ctlBit
        alt := modifiers.alt || code = altBit }.word) ∧
    ([0, capsLockBit, numLockBit, scrollLockBit].all fun toggle => modifiers.word ^^^ toggle =
      { modifiers with
        capsLock := modifiers.capsLock ^^ (toggle = capsLockBit)
        numLock := modifiers.numLock ^^ (toggle = numLockBit)
        scrollLock := modifiers.scrollLock ^^ (toggle = scrollLockBit) }.word) ∧
    (releaseMasks.all fun pair => [0, e0Esc].all fun escape => (modifiers.word ||| escape) &&& pair.2 =
      { modifiers with
        shift := modifiers.shift && pair.1 ≠ shiftBit
        ctl := modifiers.ctl && pair.1 ≠ ctlBit
        alt := modifiers.alt && pair.1 ≠ altBit }.word) ∧
    (modifiers.word &&& e0Esc = 0 ∧ (modifiers.word ||| e0Esc) &&& e0Esc ≠ 0 ∧
      (modifiers.word ||| e0Esc) &&& ~~~e0Esc = modifiers.word) ∧
    (modifiers.word &&& ctlBit ≠ 0 ↔ modifiers.ctl) ∧ (modifiers.word &&& shiftBit ≠ 0 ↔ modifiers.shift) ∧
    (modifiers.word &&& capsLockBit ≠ 0 ↔ modifiers.capsLock) ∧ (modifiers.word = numLockBit ↔ modifiers.deadDigits) := by
  rw [forall_iff]
  decide +kernel

theorem word_press :
    ((after strokes).word ||| shiftCode key.data) ^^^ toggleCode key.data = (after (.press key :: strokes)).word := by
  have set := List.all_eq_true.1 (word_facts (after strokes)).1 _ (shiftCode_mem key.data)
  rw [of_decide_eq_true set]
  apply (of_decide_eq_true (List.all_eq_true.1 (word_facts _).2.1 _ (toggleCode_mem key.data))).trans
  simp only [after, isHeld_press, isLocked_press]

theorem word_release (strokes : List Stroke) (key : KeySlot) {escape : BitVec 32} (choice : escape ∈ [0, e0Esc]) :
    ((after strokes).word ||| escape) &&& ~~~(shiftCode key.data ||| e0Esc) = (after (.release key :: strokes)).word := by
  have mask := release_mask (shiftCode_mem key.data)
  have clear := List.all_eq_true.1 (List.all_eq_true.1 (word_facts (after strokes)).2.2.1 _ mask) _ choice
  rw [of_decide_eq_true clear]
  simp only [after, isHeld_release, isLocked_release]

theorem word_escape (modifiers : Modifiers) : modifiers.word &&& e0Esc = 0 ∧ (modifiers.word ||| e0Esc) &&& e0Esc ≠ 0 ∧
    (modifiers.word ||| e0Esc) &&& ~~~e0Esc = modifiers.word :=
  (word_facts modifiers).2.2.2.1

theorem word_bits (modifiers : Modifiers) : (modifiers.word &&& ctlBit ≠ 0 ↔ modifiers.ctl) ∧
    (modifiers.word &&& shiftBit ≠ 0 ↔ modifiers.shift) ∧ (modifiers.word &&& capsLockBit ≠ 0 ↔ modifiers.capsLock) ∧
    (modifiers.word = numLockBit ↔ modifiers.deadDigits) :=
  (word_facts modifiers).2.2.2.2

end Modifiers

/-! ### One stroke -/

private theorem data_facts : ∀ data : BitVec 8, (specialKey data = keyDel ↔ data = 0xD3) ∧
    (swapCase data = keyDel → data = keyDel) ∧
    (data &&& 0x80 = 0 → data &&& 0x7F ≠ 0x60 →
      data ≠ 0xE0 ∧ data ||| 0x80 ≠ 0xE0 ∧ (data ||| 0x80) &&& 0x80 ≠ 0 ∧ (data ||| 0x80) &&& 0x7F = data) ∧
    (data &&& 0x80 ≠ 0 → data &&& 0x7F ≠ 0x60 →
      data ≠ 0xE0 ∧ data &&& 0x7F ≠ 0xE0 ∧ (data &&& 0x7F) &&& 0x80 = 0 ∧ data &&& 0x7F ||| 0x80 = data) := by
  decide +kernel

private theorem row_facts : keyDel ∉ ctlRow ∧ keyDel ∉ shiftRow ∧ keyDel ∉ normalRow := by decide +kernel

private theorem getD_keyDel {row : List (BitVec 8)} {data : BitVec 8} (absent : keyDel ∉ row) (short : row.length ≤ 0xD3) :
    (row[data.toNat]?).getD (specialKey data) = keyDel ↔ data = 0xD3 := by
  cases found : row[data.toNat]? with
  | none => exact (data_facts data).1
  | some c =>
      constructor
      · intro same
        exact absurd (Option.some.inj (congrArg some same) ▸ List.mem_of_getElem? found) absent
      · rintro rfl
        exact absurd (List.getElem?_eq_some_iff.1 found).1 (Nat.not_lt.2 short)

private theorem charMap_keyDel {row : List (BitVec 8)} {data : BitVec 8} (absent : keyDel ∉ row) (short : row.length ≤ 0xD3) :
    charMap row data = keyDel ↔ data = 0xD3 := by
  unfold charMap
  split
  · next enter => exact iff_of_false (by decide) (enter ▸ by decide)
  split
  · next divide => exact iff_of_false (by decide) (divide ▸ by decide)
  · exact getD_keyDel absent short

private theorem ctlMap_keyDel {data : BitVec 8} : ctlMap data = keyDel ↔ data = 0xD3 := by
  unfold ctlMap
  split
  · next divide => exact iff_of_false (by decide) (divide ▸ by decide)
  · exact getD_keyDel row_facts.1 (by decide)

variable {modifiers : Modifiers} {data : BitVec 8}

theorem charCode_word : charCode modifiers.word data =
    if modifiers.ctl then ctlMap data else if modifiers.shift then charMap shiftRow data else charMap normalRow data := by
  obtain ⟨ctl, shift, _, _⟩ := modifiers.word_bits
  unfold charCode
  rw [if_congr ctl rfl (if_congr shift rfl rfl)]

/-- Whatever is held, the Delete key is the one for `KEY_DEL`. -/
theorem charCode_eq_keyDel_iff : charCode modifiers.word data = keyDel ↔ data = 0xD3 := by
  rw [charCode_word]
  split
  · exact ctlMap_keyDel
  split
  · exact charMap_keyDel row_facts.2.1 (by decide)
  · exact charMap_keyDel row_facts.2.2 (by decide)

theorem answer_press : answer before display (.press key) = if key.data = 0xD3 then display.deleteNext
    else ((Modifiers.after (.press key :: before)).char key.data, display) := rfl

/-- The branch that reboots is never taken, as `KEY_DEL` has been dealt with before it. -/
theorem press_eq : (Terminal.mk display (Modifiers.after before).word false).press key.data =
    ((answer before display (.press key)).1,
      ⟨(answer before display (.press key)).2, (Modifiers.after (.press key :: before)).word, false⟩) := by
  unfold Terminal.press
  simp only [Modifiers.word_press]
  rw [answer_press, if_congr charCode_eq_keyDel_iff rfl rfl]
  split
  · rfl
  · next other =>
      obtain ⟨_, _, capsLock, dead⟩ := (Modifiers.after (.press key :: before)).word_bits
      have noKeyDel : charCode (Modifiers.after (.press key :: before)).word key.data ≠ keyDel :=
        mt charCode_eq_keyDel_iff.1 other
      unfold Modifiers.char
      dsimp only
      rw [← charCode_word, if_congr capsLock rfl rfl, if_congr (and_congr_left' dead) rfl rfl]
      generalize read : (if (Modifiers.after (.press key :: before)).capsLock = true then _ else _) = c
      have notKeyDel : c ≠ keyDel := by
        rintro rfl
        split at read
        · exact noKeyDel ((data_facts _).2.1 read)
        · exact noKeyDel read
      split
      · next digit => rw [if_pos (.inl digit)]
      · next noDigit =>
          split
          · next space => rw [if_pos (.inr space)]
          · next noSpace => rw [if_neg fun both => notKeyDel both.2, if_neg (not_or_intro noDigit noSpace)]

/-! ### The codes of a stroke -/

theorem codes_press : (Stroke.press key).codes = if key.data &&& 0x80 = 0 then [key.data] else [0xE0, key.data &&& 0x7F] := rfl

theorem codes_release : (Stroke.release key).codes =
    if key.data &&& 0x80 = 0 then [key.data ||| 0x80] else [0xE0, key.data] := rfl

/-- The terminal between two strokes. -/
def settled (display : Display) (strokes : List Stroke) : Terminal := ⟨display, (Modifiers.after strokes).word, false⟩

theorem kbdReplies_press : (settled display before).kbdReplies (Stroke.press key).codes =
    ((if key.data &&& 0x80 = 0 then [] else [0]) ++ [(answer before display (.press key)).1],
      settled (answer before display (.press key)).2 (.press key :: before)) := by
  rw [codes_press]
  change (Terminal.mk display (Modifiers.after before).word false).kbdReplies _ = _
  split
  · next plain =>
      obtain ⟨notEscape, _, _, _⟩ := (data_facts key.data).2.2.1 plain key.notEscape
      have clear : ¬ (Modifiers.after before).word &&& e0Esc ≠ 0 := not_not_intro (Modifiers.word_escape _).1
      simp only [Terminal.kbdReplies, Terminal.kbdProcData, if_neg notEscape, if_neg (not_not_intro plain)]
      rw [if_neg clear, press_eq]
      rfl
  · next escaped =>
      obtain ⟨_, notEscape, low, whole⟩ := (data_facts key.data).2.2.2 escaped key.notEscape
      obtain ⟨_, on, off⟩ := Modifiers.word_escape (Modifiers.after before)
      simp only [Terminal.kbdReplies, Terminal.kbdProcData, if_true, if_neg notEscape, if_neg (not_not_intro low), if_pos on]
      rw [off, whole, press_eq]
      rfl

theorem kbdReplies_release : (settled display before).kbdReplies (Stroke.release key).codes =
    ((if key.data &&& 0x80 = 0 then [] else [0]) ++ [0], settled display (.release key :: before)) := by
  rw [codes_release]
  change (Terminal.mk display (Modifiers.after before).word false).kbdReplies _ = _
  split
  · next plain =>
      obtain ⟨_, notEscape, high, low⟩ := (data_facts key.data).2.2.1 plain key.notEscape
      have clear : ¬ (Modifiers.after before).word &&& e0Esc ≠ 0 := not_not_intro (Modifiers.word_escape _).1
      have released := Modifiers.word_release before key (.head [e0Esc])
      rw [show (Modifiers.after before).word ||| 0 = (Modifiers.after before).word from BitVec.or_zero] at released
      simp only [Terminal.kbdReplies, Terminal.kbdProcData, if_neg notEscape, if_pos high, if_neg clear, low, released]
      rfl
  · next escaped =>
      obtain ⟨notEscape, _, _, _⟩ := (data_facts key.data).2.2.2 escaped key.notEscape
      obtain ⟨_, on, _⟩ := Modifiers.word_escape (Modifiers.after before)
      have released := Modifiers.word_release before key (.tail 0 (.head []))
      simp only [Terminal.kbdReplies, Terminal.kbdProcData, if_true, if_neg notEscape, if_pos escaped, if_pos on, released]
      rfl

/-! ### All strokes -/

theorem kbdReplies_append (codes rest : List (BitVec 8)) : ∀ terminal : Terminal, terminal.kbdReplies (codes ++ rest) =
    ((terminal.kbdReplies codes).1 ++ ((terminal.kbdReplies codes).2.kbdReplies rest).1,
      ((terminal.kbdReplies codes).2.kbdReplies rest).2) := by
  induction codes with
  | nil => exact fun _ => rfl
  | cons data codes ih =>
      intro terminal
      simp only [List.cons_append, Terminal.kbdReplies, ih]

private theorem filter_reply (reply : BitVec 8) : [reply].filter (· ≠ 0) = if reply = 0 then [] else [reply] := by
  split
  · next zero => exact List.filter_cons_of_neg (by simp [zero])
  · next nonzero => exact List.filter_cons_of_pos (decide_eq_true nonzero)

theorem kbdReplies_strokes (strokes : List Stroke) : ∀ (before : List Stroke) (display : Display),
    (((settled display before).kbdReplies (strokes.flatMap Stroke.codes)).1.filter (· ≠ 0) = (typedBy before display strokes).1) ∧
      ((settled display before).kbdReplies (strokes.flatMap Stroke.codes)).2 =
        settled (typedBy before display strokes).2 (strokes.reverse ++ before) := by
  induction strokes with
  | nil => exact fun _ _ => ⟨rfl, rfl⟩
  | cons stroke strokes ih =>
      intro before display
      have silent : ((if stroke.data &&& 0x80 = 0 then [] else [0]) : List (BitVec 8)).filter (· ≠ 0) = [] := by
        split <;> rfl
      have first : (settled display before).kbdReplies stroke.codes =
          ((if stroke.data &&& 0x80 = 0 then [] else [0]) ++ [(answer before display stroke).1],
            settled (answer before display stroke).2 (stroke :: before)) := by
        cases stroke with
        | press key => exact kbdReplies_press
        | release key => exact kbdReplies_release
      obtain ⟨replies, last⟩ := ih (stroke :: before) (answer before display stroke).2
      rw [List.flatMap_cons, kbdReplies_append, first]
      constructor
      · rw [List.filter_append, List.filter_append, silent, filter_reply, replies]
        rfl
      · rw [last, List.reverse_cons, List.append_assoc]
        rfl

/-! ### Interrupts -/

/-- `kbd_intr`, with what the controller has for it. -/
def kbdIntr (console : Cons × Terminal) (codes : List (BitVec 8)) : Cons × Terminal :=
  let result := console.2.kbdReplies codes
  (console.1.consIntr result.1, result.2)

theorem foldl_kbdIntr (chunks : List (List (BitVec 8))) : ∀ console : Cons × Terminal,
    chunks.foldl kbdIntr console = kbdIntr console chunks.flatten := by
  induction chunks with
  | nil => exact fun _ => rfl
  | cons codes chunks ih =>
      intro console
      rw [List.foldl_cons, ih, List.flatten_cons]
      simp only [kbdIntr, kbdReplies_append, Cons.consIntr, List.foldl_append]

/-- However the codes of some strokes are divided among interrupts, what they type is in the buffer, in order. The
keyboard never reboots the machine. -/
theorem kbdIntr_types {before strokes : List Stroke} {chunks : List (List (BitVec 8))} {cons : Cons} {unread : List (BitVec 8)}
    (delivered : chunks.flatten = strokes.flatMap Stroke.codes) (holds : cons.Unread unread)
    (room : unread.length + (typedBy before display strokes).1.length < consBufSize) :
    (chunks.foldl kbdIntr (cons, settled display before)).1.Unread (unread ++ (typedBy before display strokes).1) ∧
      (chunks.foldl kbdIntr (cons, settled display before)).2 =
        settled (typedBy before display strokes).2 (strokes.reverse ++ before) := by
  obtain ⟨replies, last⟩ := kbdReplies_strokes strokes before display
  rw [foldl_kbdIntr, delivered]
  constructor
  · rw [← replies] at room ⊢
    exact holds.consIntr _ room
  · exact last

/-- A capital A. -/
def shiftA : List Stroke :=
  [.press ⟨0x2A, by decide⟩, .press ⟨0x1E, by decide⟩, .release ⟨0x1E, by decide⟩, .release ⟨0x2A, by decide⟩]

def emptyDisplay : Display := ⟨fun _ => blank, 0, 0, 0, fun _ => 0⟩

theorem kbdIntr_types_shiftA :
    ([[0x2A], [0x1E, 0x9E, 0xAA]].foldl kbdIntr (Session.initial.cons, settled emptyDisplay [])).1.Unread
        ([] ++ (typedBy [] emptyDisplay shiftA).1) ∧
      ([[0x2A], [0x1E, 0x9E, 0xAA]].foldl kbdIntr (Session.initial.cons, settled emptyDisplay [])).2 =
        settled (typedBy [] emptyDisplay shiftA).2 (shiftA.reverse ++ []) :=
  kbdIntr_types (by decide) ⟨Ring.Holds.empty (by decide), fun _ member => absurd member List.not_mem_nil⟩ (by decide)

/-! ### Every text can be typed -/

/-- Printed, or a newline. -/
def Typable (c : BitVec 8) : Prop := c = 10 ∨ 0x20 ≤ c ∧ c ≤ 0x7E

instance (c : BitVec 8) : Decidable (Typable c) := inferInstanceAs (Decidable (_ ∨ _))

/-- The keys of characters are neither shift keys nor locks. The digits are typed at the keypad with a shift key, which
Num Lock leaves. -/
private theorem typable_facts : ∀ data : BitVec 8,
    (Typable data → (data ≠ 0 ∧ data ≠ 0xFF) ∧ (Typable (swapCase data) ∧ swapCase (swapCase data) = data) ∧
      (data ∈ shiftRow ∨ data ∈ normalRow ∧ ¬ (0x30 ≤ data ∧ data ≤ 0x39))) ∧
    (shiftCode data ≠ 0 ∨ toggleCode data ≠ 0 ∨ data &&& 0x7F = 0x60 ∨ data = 0xD3 →
      (normalRow[data.toNat]?).getD 0 = 0 ∧ (shiftRow[data.toNat]?).getD 0 = 0) := by
  decide +kernel

/-- Nothing but locks is on. -/
def Modifiers.Free (modifiers : Modifiers) : Prop := modifiers.shift = false ∧ modifiers.ctl = false ∧ modifiers.alt = false

/-- A key that is neither a shift key nor a lock, nor the Delete key. -/
structure KeySlot.Silent (key : KeySlot) : Prop where
  notDelete : key.data ≠ 0xD3
  notShift : shiftCode key.data = 0
  notLock : toggleCode key.data = 0

private theorem key_of_mem {row : List (BitVec 8)} {c : BitVec 8} (isRow : row = normalRow ∨ row = shiftRow) (nonzero : c ≠ 0)
    (member : c ∈ row) : ∃ key : KeySlot, charMap row key.data = c ∧ key.Silent := by
  obtain ⟨index, found⟩ := List.mem_iff_getElem?.1 member
  have length : row.length = 84 := by
    cases isRow with
    | inl normal => exact normal ▸ rfl
    | inr shift => exact shift ▸ rfl
  have bound : index < 84 := length ▸ (List.getElem?_eq_some_iff.1 found).1
  have place : (BitVec.ofNat 8 index).toNat = index := Nat.mod_eq_of_lt (by omega)
  have read : (row[(BitVec.ofNat 8 index).toNat]?).getD 0 = c := by
    rw [place, found]
    rfl
  have silent : ¬ (shiftCode (BitVec.ofNat 8 index) ≠ 0 ∨ toggleCode (BitVec.ofNat 8 index) ≠ 0 ∨
      BitVec.ofNat 8 index &&& 0x7F = 0x60 ∨ BitVec.ofNat 8 index = 0xD3) := by
    intro special
    obtain ⟨normal, shift⟩ := (typable_facts _).2 special
    cases isRow with
    | inl same => exact nonzero ((same ▸ read).symm.trans normal)
    | inr same => exact nonzero ((same ▸ read).symm.trans shift)
  simp only [not_or, not_not] at silent
  obtain ⟨notShift, notLock, notEscape, notDelete⟩ := silent
  refine ⟨⟨BitVec.ofNat 8 index, notEscape⟩, ?_, notDelete, notShift, notLock⟩
  have notEnter : BitVec.ofNat 8 index ≠ 0x9C := fun same => by
    have large := congrArg BitVec.toNat same
    rw [place] at large
    exact absurd (large ▸ bound) (by decide)
  have notDivide : BitVec.ofNat 8 index ≠ 0xB5 := fun same => by
    have large := congrArg BitVec.toNat same
    rw [place] at large
    exact absurd (large ▸ bound) (by decide)
  rw [charMap, if_neg notEnter, if_neg notDivide, place, found]
  rfl

theorem exists_key {c : BitVec 8} (typable : Typable c) (free : modifiers.Free) :
    ∃ key : KeySlot, ∃ shift : Bool, { modifiers with shift }.char key.data = c ∧ key.Silent := by
  obtain ⟨other, otherTypable, again⟩ : ∃ other, Typable other ∧ (if modifiers.capsLock then swapCase other else other) = c := by
    cases modifiers.capsLock with
    | false => exact ⟨c, typable, rfl⟩
    | true => exact ⟨swapCase c, ((typable_facts c).1 typable).2.1⟩
  have nonzero := ((typable_facts other).1 otherTypable).1.1
  have notSpace := ((typable_facts c).1 typable).1.2
  have noCtl : ¬ modifiers.ctl = true := by
    rw [free.2.1]
    exact Bool.false_ne_true
  cases ((typable_facts other).1 otherTypable).2.2 with
  | inl shifted =>
      obtain ⟨key, read, silent⟩ := key_of_mem (.inr rfl) nonzero shifted
      refine ⟨key, true, ?_, silent⟩
      have alive : ¬ (Modifiers.deadDigits { modifiers with shift := true } = true ∧ 0x30 ≤ c ∧ c ≤ 0x39 ∨ c = 0xFF) := by
        rintro (dead | space)
        · exact Bool.false_ne_true dead.1
        · exact notSpace space
      simp only [Modifiers.char, if_neg noCtl, if_true, read, again]
      exact if_neg alive
  | inr plain =>
      obtain ⟨key, read, silent⟩ := key_of_mem (.inl rfl) nonzero plain.1
      refine ⟨key, false, ?_, silent⟩
      have alive : ¬ (Modifiers.deadDigits { modifiers with shift := false } = true ∧ 0x30 ≤ c ∧ c ≤ 0x39 ∨ c = 0xFF) := by
        rintro (⟨dead, lower, upper⟩ | space)
        · have noCaps : modifiers.capsLock = false := by
            simp only [Modifiers.deadDigits, Bool.and_eq_true, Bool.not_eq_true'] at dead
            exact dead.1.1.2
          rw [noCaps, if_neg Bool.false_ne_true] at again
          subst again
          exact plain.2 ⟨lower, upper⟩
        · exact notSpace space
      simp only [Modifiers.char, if_neg noCtl, Bool.false_eq_true, if_false, read, again]
      exact if_neg alive

/-! ### Strokes for a text -/

/-- The left shift key. -/
def leftShift : KeySlot := ⟨0x2A, by decide⟩

theorem Modifiers.after_silent (silent : key.Silent) : Modifiers.after (.press key :: strokes) = Modifiers.after strokes ∧
    Modifiers.after (.release key :: strokes) = Modifiers.after strokes := by
  constructor
  · simp only [after, isHeld_press, isLocked_press, silent.notShift, silent.notLock]
    simp
  · simp only [after, isHeld_release, isLocked_release, silent.notShift]
    simp

theorem Modifiers.after_leftShift (strokes : List Stroke) :
    Modifiers.after (.press leftShift :: strokes) = { Modifiers.after strokes with shift := true } ∧
      Modifiers.after (.release leftShift :: strokes) = { Modifiers.after strokes with shift := false } := by
  have shift : shiftCode leftShift.data = shiftBit := rfl
  have lock : toggleCode leftShift.data = 0 := rfl
  constructor
  · simp only [after, isHeld_press, isLocked_press, shift, lock]
    simp
  · simp only [after, isHeld_release, isLocked_release, shift]
    simp

private theorem char_leftShift (modifiers : Modifiers) : modifiers.char leftShift.data = 0 := by
  have none : (if modifiers.ctl then ctlMap leftShift.data else if modifiers.shift then charMap shiftRow leftShift.data
      else charMap normalRow leftShift.data) = 0 := by
    split
    · rfl
    split <;> rfl
  have swapped : (if modifiers.capsLock then swapCase 0 else 0) = (0 : BitVec 8) := by split <;> rfl
  simp only [Modifiers.char, none, swapped]
  split <;> rfl

/-- A key with or without the left shift key. -/
def strokesFor (key : KeySlot) (shift : Bool) : List Stroke :=
  if shift then [.press leftShift, .press key, .release key, .release leftShift] else [.press key, .release key]

theorem answer_release : answer before display (.release key) = (0, display) := rfl

theorem typedBy_strokesFor (display : Display) {shift : Bool} (free : (Modifiers.after before).Free) (silent : key.Silent)
    (nonzero : { Modifiers.after before with shift }.char key.data ≠ 0) :
    typedBy before display (strokesFor key shift) = ([{ Modifiers.after before with shift }.char key.data], display) ∧
      Modifiers.after ((strokesFor key shift).reverse ++ before) = Modifiers.after before := by
  have same : { Modifiers.after before with shift := false } = Modifiers.after before := by rw [← free.1]
  cases shift with
  | false =>
      rw [same] at nonzero ⊢
      constructor
      · simp only [strokesFor, Bool.false_eq_true, if_false, typedBy, answer_press, answer_release, if_neg silent.notDelete,
          (Modifiers.after_silent silent).1, if_neg nonzero, if_true]
        rfl
      · change Modifiers.after (.release key :: .press key :: before) = _
        rw [(Modifiers.after_silent silent).2, (Modifiers.after_silent silent).1]
  | true =>
      have notDelete : leftShift.data ≠ 0xD3 := by decide
      constructor
      · simp only [strokesFor, if_true, typedBy, answer_press, answer_release, if_neg silent.notDelete, if_neg notDelete,
          char_leftShift, (Modifiers.after_silent silent).1, (Modifiers.after_leftShift before).1, if_neg nonzero]
        rfl
      · change Modifiers.after (.release leftShift :: .release key :: .press key :: .press leftShift :: before) = _
        rw [(Modifiers.after_leftShift _).2, (Modifiers.after_silent silent).2, (Modifiers.after_silent silent).1,
          (Modifiers.after_leftShift _).1]
        exact same

theorem typedBy_append (strokes more : List Stroke) : ∀ (before : List Stroke) (display : Display),
    typedBy before display (strokes ++ more) =
      ((typedBy before display strokes).1 ++ (typedBy (strokes.reverse ++ before) (typedBy before display strokes).2 more).1,
        (typedBy (strokes.reverse ++ before) (typedBy before display strokes).2 more).2) := by
  induction strokes with
  | nil => exact fun _ _ => rfl
  | cons stroke strokes ih =>
      intro before display
      simp only [List.cons_append, typedBy, ih, List.reverse_cons, List.append_assoc, List.nil_append]

/-- Whatever locks are on, every text of printed characters and newlines can be typed. -/
theorem exists_strokes (display : Display) {text : List (BitVec 8)} (allowed : ∀ c ∈ text, Typable c)
    (free : (Modifiers.after before).Free) : ∃ strokes, typedBy before display strokes = (text, display) ∧
      Modifiers.after (strokes.reverse ++ before) = Modifiers.after before := by
  induction text generalizing before with
  | nil => exact ⟨[], rfl, rfl⟩
  | cons c text ih =>
      have listed := allowed c (List.mem_cons_self ..)
      obtain ⟨key, shift, read, silent⟩ := exists_key listed free
      have nonzero := ((typable_facts c).1 listed).1.1
      obtain ⟨first, still⟩ := typedBy_strokesFor display free silent (read ▸ nonzero)
      have freeAfter : (Modifiers.after ((strokesFor key shift).reverse ++ before)).Free := still ▸ free
      obtain ⟨strokes, rest, last⟩ := ih (fun c member => allowed c (List.mem_cons_of_mem _ member)) freeAfter
      refine ⟨strokesFor key shift ++ strokes, ?_, ?_⟩
      · rw [typedBy_append, first, rest, read]
        rfl
      · rw [List.reverse_append, List.append_assoc, last, still]

/-- Whatever locks are on, there are strokes with which a text gets into the buffer, however their codes are divided
among interrupts. The display and the locks stay as they are. -/
theorem exists_strokes_typing {text unread : List (BitVec 8)} {cons : Cons} (allowed : ∀ c ∈ text, Typable c)
    (free : (Modifiers.after before).Free) (holds : cons.Unread unread) (room : unread.length + text.length < consBufSize) :
    ∃ strokes : List Stroke, ∀ chunks : List (List (BitVec 8)), chunks.flatten = strokes.flatMap Stroke.codes →
      (chunks.foldl kbdIntr (cons, settled display before)).1.Unread (unread ++ text) ∧
        (chunks.foldl kbdIntr (cons, settled display before)).2 = settled display before := by
  obtain ⟨strokes, types, still⟩ := exists_strokes display allowed free
  refine ⟨strokes, fun chunks delivered => ?_⟩
  have typedRoom : unread.length + (typedBy before display strokes).1.length < consBufSize := by
    rw [types]
    exact room
  obtain ⟨buffered, last⟩ := kbdIntr_types delivered holds typedRoom
  rw [types] at buffered last
  refine ⟨buffered, last.trans ?_⟩
  unfold settled
  rw [still]

/-- Num Lock alone is on, and a digit is typed. -/
theorem exists_strokes_typing_digit :
    ∃ strokes : List Stroke, ∀ chunks : List (List (BitVec 8)), chunks.flatten = strokes.flatMap Stroke.codes →
      (chunks.foldl kbdIntr (Session.initial.cons, settled emptyDisplay [.press ⟨0x45, by decide⟩])).1.Unread ([] ++ [0x37]) ∧
        (chunks.foldl kbdIntr (Session.initial.cons, settled emptyDisplay [.press ⟨0x45, by decide⟩])).2 =
          settled emptyDisplay [.press ⟨0x45, by decide⟩] :=
  exists_strokes_typing (List.forall_mem_singleton.2 (by decide)) ⟨rfl, rfl, rfl⟩
    ⟨Ring.Holds.empty (by decide), fun _ member => absurd member List.not_mem_nil⟩ (by decide)

end Fos.Console
