import Fos.Library.Cprintf
import Fos.Library.PrintedNumbers

/-! What the `cprintf` of an environment leaves on the console. -/

set_option autoImplicit false

namespace Fos.Library

variable {memory next : Bytes} {kernel : KernelTexts} {buf : BitVec 32} {name chars : List (BitVec 8)} {text pending block : Text}
  {console : Text} {printProgName : Bool}

/-- The parts of a text that are handed to the kernel. The last one may be empty. -/
def blocks (text : Text) : List Text := (List.range (text.length / 255 + 1)).map fun index => (text.drop (255 * index)).take 255

/-- What the kernel shows of a block: it takes the block for a string. -/
def visible (block : Text) : Text := ((bytes block).takeWhile (· ≠ 0)).map signedChar

/-- `[%s %d] ` with the name and the id of the environment. -/
def banner (kernel : KernelTexts) (name : List (BitVec 8)) (printProgName : Bool) : Text :=
  if printProgName then
    code '[' :: (name.map signedChar ++ code ' ' :: (signedNumber .initial (kernel.envId.signExtend 64) ++ [code ']', code ' ']))
  else []

/-- A string does not overlap the buffer. -/
def Apart (buf : BitVec 32) (start : Nat) (chars : List (BitVec 8)) : Prop :=
  start + chars.length < buf.toNat ∨ buf.toNat + 256 ≤ start

/-- The kernel's strings are in memory, apart from the buffer. -/
structure KernelTexts.Stand (kernel : KernelTexts) (memory : Bytes) (buf : BitVec 32) (name : List (BitVec 8)) : Prop where
  progNameFormat : Terminated memory kernel.progNameFormat (characters "[%s %d] ")
  stringFormat : Terminated memory kernel.stringFormat (characters "%.*s")
  progName : Terminated memory kernel.progName.toNat name
  nonzero : kernel.progName ≠ 0 ∧ buf ≠ 0
  apart : Apart buf kernel.progNameFormat (characters "[%s %d] ") ∧ Apart buf kernel.stringFormat (characters "%.*s") ∧
    Apart buf kernel.progName.toNat name
  short : name.length < 0x80000000

/-- Only the buffer was written. -/
def Untouched (buf : BitVec 32) (memory next : Bytes) : Prop :=
  ∀ index, index < buf.toNat ∨ buf.toNat + 256 ≤ index → next index = memory index

theorem Terminated.untouched {start : Nat} (terminated : Terminated memory start chars) (apart : Apart buf start chars)
    (untouched : Untouched buf memory next) : Terminated next start chars := by
  apply terminated.frame
  intro index lower upper
  apply untouched
  cases apart with
  | inl before => exact .inl (by omega)
  | inr behind => exact .inr (by omega)

theorem KernelTexts.Stand.untouched (stand : kernel.Stand memory buf name) (untouched : Untouched buf memory next) :
    kernel.Stand next buf name where
  progNameFormat := stand.progNameFormat.untouched stand.apart.1 untouched
  stringFormat := stand.stringFormat.untouched stand.apart.2.1 untouched
  progName := stand.progName.untouched stand.apart.2.2 untouched
  nonzero := stand.nonzero
  apart := stand.apart
  short := stand.short

/-! ### Blocks -/

theorem blocks_short (short : text.length < 255) : blocks text = [text] := by
  have none : text.length / 255 = 0 := Nat.div_eq_of_lt short
  rw [blocks, none]
  simp only [Nat.zero_add, List.range_one, List.map_singleton, Nat.mul_zero, List.drop_zero]
  rw [List.take_of_length_le (by omega)]

theorem blocks_full (full : block.length = 255) : blocks (block ++ text) = block :: blocks text := by
  have more : (block ++ text).length / 255 = text.length / 255 + 1 := by
    rw [List.length_append, full]
    omega
  rw [blocks, more, List.range_succ_eq_map, List.map_cons, List.map_map, Nat.mul_zero, List.drop_zero, ← full,
    List.take_left, blocks, full]
  congr 1
  apply List.map_congr_left
  intro index _
  have behind : 255 * (index + 1) = block.length + 255 * index := by omega
  rw [Function.comp_apply, behind, ← List.drop_drop, List.drop_left]

/-! ### The kernel's part -/

/-- A block is a string of as many characters as come before a NUL. -/
theorem block_stringAt {s : Nat} (stored : Stored memory s (bytes block)) :
    StringAt memory s block.length ((bytes block).takeWhile (· ≠ 0)) := by
  have parts : (bytes block).takeWhile (· ≠ 0) ++ (bytes block).dropWhile (· ≠ 0) = bytes block := List.takeWhile_append_dropWhile
  have length : (bytes block).length = block.length := List.length_map _
  have both := congrArg List.length parts
  rw [List.length_append, length] at both
  have split := stored
  rw [← parts] at split
  obtain ⟨front, back⟩ := Stored.append_iff.1 split
  have nonzero (ch : BitVec 8) (member : ch ∈ (bytes block).takeWhile (· ≠ 0)) : ch ≠ 0 := by
    have taken := List.mem_takeWhile_imp member
    exact of_decide_eq_true taken
  refine ⟨front, nonzero, fun _ => by omega, fun less => ?_⟩
  have some : (bytes block).dropWhile (· ≠ 0) ≠ [] := by
    intro none
    rw [none, List.length_nil] at both
    omega
  cases behind : (bytes block).dropWhile (· ≠ 0) with
  | nil => exact absurd behind some
  | cons ch rest =>
      have stops := List.head_dropWhile_not (fun ch : BitVec 8 => decide (ch ≠ 0)) some
      rw [behind] at back
      simp only [behind, List.head_cons] at stops
      rw [back.1]
      simpa using stops

/-- `%.*s` is a format. -/
private theorem stringFormat_format : Format [.directive [.single .dot, .single .star] .string] :=
  .directive (.single (.single .nil)) .nil

private theorem paddedString_precise {precision : Int} (short : chars.length < 0x80000000) :
    paddedString { Flags.initial with width := 0, precision } chars = chars.map signedChar := by
  have trailing : (long (0 - (chars.length : Int))).toNat = 0 := by
    rw [long_eq (by omega) (by omega)]
    omega
  have shown : chars.map (Flags.shown { Flags.initial with width := 0, precision }) = chars.map signedChar := by
    apply List.map_congr_left
    intro ch _
    exact if_neg fun impossible => Bool.false_ne_true impossible.1
  have narrow : ¬ ((0 : Int) > 0 ∧ Flags.initial.padc ≠ code '-') := by decide
  simp only [paddedString, if_neg narrow, shown]
  rw [trailing, List.replicate_zero, List.nil_append, List.replicate_zero, List.append_nil]

theorem cputs_string (stand : kernel.Stand memory buf name) (stored : Stored memory buf.toNat (bytes block))
    (fits : block.length ≤ 255) :
    ∃ least, ∀ limit ≥ least, vprintfmt memory limit limit kernel.stringFormat [block.length, buf] = .ok (visible block) := by
  apply (vprintfmt_iff stringFormat_format stand.stringFormat).2
  have precision : (block.length : BitVec 32).toInt = block.length := by
    have word : (block.length : BitVec 32).toNat = block.length := by
      rw [BitVec.natCast_eq_ofNat, BitVec.toNat_ofNat]
      exact Nat.mod_eq_of_lt (by omega)
    rw [BitVec.toInt_eq_toNat_cond, word, if_pos (by omega)]
  have string := block_stringAt stored
  have length : ((bytes block).takeWhile (· ≠ 0)).length ≤ block.length :=
    Int.ofNat_le.1 (string.short (Int.natCast_nonneg _))
  have shown : visible block = paddedString { Flags.initial with width := 0, precision := (block.length : BitVec 32).toInt }
      ((bytes block).takeWhile (· ≠ 0)) := (paddedString_precise (by omega)).symm
  rw [← List.append_nil (visible block), shown]
  refine .directive (.cons rfl (.cons rfl .nil)) (.string stand.nonzero.2 ?_) .nil
  change StringAt memory buf.toNat (block.length : BitVec 32).toInt _
  rw [precision]
  exact string

private theorem progNameFormat_format : Format [.plain (byteOf '['), .directive [] .string, .plain (byteOf ' '),
    .directive [] .decimal,
    .plain (byteOf ']'), .plain (byteOf ' ')] :=
  .plain (by decide) (by decide) (.directive .nil (.plain (by decide) (by decide) (.directive .nil
    (.plain (by decide) (by decide) (.plain (by decide) (by decide) .nil)))))

theorem cputs_banner (stand : kernel.Stand memory buf name) :
    ∃ least, ∀ limit ≥ least,
      vprintfmt memory limit limit kernel.progNameFormat [kernel.progName, kernel.envId] = .ok (banner kernel name true) := by
  apply (vprintfmt_iff progNameFormat_format stand.progNameFormat).2
  have string : StringAt memory kernel.progName.toNat (-1) name :=
    ⟨stand.progName.stored, stand.progName.nonzero, fun impossible => absurd impossible (by decide), fun _ => stand.progName.ends⟩
  have shown := paddedString_initial stand.short
  rw [banner, if_pos rfl, ← shown]
  exact .plain (.directive .nil (.string stand.nonzero.1 string) (.plain (.directive .nil (.decimal (.word (by decide)))
    (.plain (.plain .nil)))))

/-- A block is shown behind the name of the environment. -/
theorem cputs_shows (stand : kernel.Stand memory buf name) (stored : Stored memory buf.toNat (bytes block))
    (fits : block.length ≤ 255)
    (printProgName : Bool) :
    ∃ least, ∀ limit ≥ least, ∀ console, Printing.cputs ⟨kernel, limit, buf, printProgName⟩ ⟨memory, console⟩ block.length =
      .ok ⟨memory, console ++ (banner kernel name printProgName ++ visible block)⟩ := by
  obtain ⟨least, string⟩ := cputs_string stand stored fits
  obtain ⟨leastToo, named⟩ := cputs_banner stand
  refine ⟨max least leastToo, fun limit enough console => ?_⟩
  have string := string limit (by omega)
  have named := named limit (by omega)
  cases printProgName with
  | true =>
      have first : Screen.kernelCprintf ⟨memory, console⟩ limit kernel.progNameFormat [kernel.progName, kernel.envId] =
          .ok ⟨memory, console ++ banner kernel name true⟩ := ok_bind named
      have second : Screen.kernelCprintf ⟨memory, console ++ banner kernel name true⟩ limit
          kernel.stringFormat [block.length, buf] =
          .ok ⟨memory, console ++ banner kernel name true ++ visible block⟩ := ok_bind string
      rw [← List.append_assoc, ← second]
      exact ok_bind first
  | false => exact ok_bind string

/-! ### The environment's part -/

/-- What the rest of `vcprintf` does once the text is known. -/
def flush (printing : Printing) (b : PrintBuf) (text : Text) : Printed (Int × Screen) := do
  let b ← text.foldlM printing.putch b
  let screen ← printing.cputs b.screen b.idx
  return (b.cnt, screen)

theorem flush_cons (printing : Printing) (b : PrintBuf) (ch : BitVec 32) (text : Text) :
    flush printing b (ch :: text) = printing.putch b ch >>= fun b => flush printing b text := by
  simp only [flush, List.foldlM_cons, bind_assoc]

/-- `putch` keeps the characters that wait in the buffer. -/
theorem putch_stored {ch : BitVec 32} (stored : Stored next buf.toNat (bytes pending)) :
    Stored (Function.update next (buf.toNat + pending.length) (ch.setWidth 8)) buf.toNat (bytes (pending ++ [ch])) := by
  have length : (bytes pending).length = pending.length := List.length_map _
  have parts : bytes (pending ++ [ch]) = bytes pending ++ [ch.setWidth 8] := List.map_append
  rw [parts]
  apply Stored.append_iff.2
  constructor
  · apply stored.frame
    intro index _ less
    exact Function.update_of_ne (by omega) ..
  · rw [length]
    exact ⟨Function.update_self .., trivial⟩

theorem putch_untouched {ch : BitVec 8} (untouched : Untouched buf memory next) (room : pending.length < 255) :
    Untouched buf memory (Function.update next (buf.toNat + pending.length) ch) := by
  intro index outside
  rw [Function.update_of_ne (by omega)]
  exact untouched index outside

/-- The characters that wait are shown with those that follow. -/
theorem flush_shows (stand : kernel.Stand memory buf name) (printProgName : Bool) (text : Text) :
    ∀ (pending : Text) (next : Bytes),
    pending.length < 255 → Stored next buf.toNat (bytes pending) → Untouched buf memory next →
    ∃ least after, Untouched buf memory after ∧ ∀ limit ≥ least, ∀ console cnt,
      flush ⟨kernel, limit, buf, printProgName⟩ ⟨⟨next, console⟩, pending.length, long cnt⟩ text =
        .ok (long (cnt + text.length),
          ⟨after, console ++ (blocks (pending ++ text)).flatMap fun block =>
              banner kernel name printProgName ++ visible block⟩) := by
  induction text with
  | nil =>
      intro pending next room stored untouched
      obtain ⟨least, shows⟩ := cputs_shows (stand.untouched untouched) stored room.le printProgName
      refine ⟨least, next, untouched, fun limit enough console cnt => ?_⟩
      rw [List.append_nil, blocks_short room, List.flatMap_singleton, List.length_nil, Nat.cast_zero, Int.add_zero]
      exact ok_bind (shows limit enough console)
  | cons ch text ih =>
      intro pending next room stored untouched
      let written := Function.update next (buf.toNat + pending.length) (ch.setWidth 8)
      have storedToo := @putch_stored _ _ _ ch stored
      have untouchedToo := @putch_untouched _ _ _ _ (ch.setWidth 8) untouched room
      have length : (pending ++ [ch]).length = pending.length + 1 := List.length_append
      have whole : pending ++ ch :: text = pending ++ [ch] ++ text := by simp
      have count (cnt : Int) : long (long cnt + 1) = long (cnt + 1) := long_congr ((long_modEq cnt).add_right 1)
      have rest (cnt : Int) : long (cnt + 1 + text.length) = long (cnt + (ch :: text).length) := by
        rw [List.length_cons]
        congr 1
        omega
      cases Nat.decEq (pending.length + 1) 255 with
      | isTrue full =>
          have filled : (pending ++ [ch]).length = 255 := length.trans full
          obtain ⟨least, shows⟩ := cputs_shows (stand.untouched untouchedToo) storedToo filled.le printProgName
          obtain ⟨leastToo, after, last, flushes⟩ := ih [] _ (by decide) trivial untouchedToo
          refine ⟨max least leastToo, after, last, fun limit enough console cnt => ?_⟩
          have shown := shows limit (by omega) console
          rw [length] at shown
          have put : Printing.putch ⟨kernel, limit, buf, printProgName⟩ ⟨⟨next, console⟩, pending.length, long cnt⟩ ch =
              .ok ⟨⟨written, console ++ (banner kernel name printProgName ++ visible (pending ++ [ch]))⟩, 0, long (cnt + 1)⟩ := by
            rw [← count]
            refine (if_pos full).trans ?_
            exact ok_bind shown
          have flushed := flushes limit (by omega) (console ++
              (banner kernel name printProgName ++ visible (pending ++ [ch]))) (cnt + 1)
          rw [flush_cons, ok_bind put, whole, blocks_full filled, List.flatMap_cons, ← rest,
            ← List.append_assoc console (banner kernel name printProgName ++ visible (pending ++ [ch]))]
          exact flushed
      | isFalse short =>
          obtain ⟨least, after, last, flushes⟩ := ih (pending ++ [ch]) _ (by omega) storedToo untouchedToo
          refine ⟨least, after, last, fun limit enough console cnt => ?_⟩
          have put : Printing.putch ⟨kernel, limit, buf, printProgName⟩ ⟨⟨next, console⟩, pending.length, long cnt⟩ ch =
              .ok ⟨⟨written, console⟩, pending.length + 1, long (cnt + 1)⟩ := by
            rw [← count]
            exact if_neg short
          have flushed := flushes limit enough console (cnt + 1)
          rw [length] at flushed
          rw [flush_cons, ok_bind put, whole, ← rest]
          exact flushed

/-- What is printed is shown in blocks, each up to its first NUL, and behind the name of the environment where that is
asked for. -/
theorem vcprintf_shows {fmt : Nat} {ap : VaList} (stand : kernel.Stand memory buf name)
    (prints : ∃ least, ∀ limit ≥ least, vprintfmt memory limit limit fmt ap = .ok text) (console : Text) (printProgName : Bool) :
    ∃ least after, Untouched buf memory after ∧ ∀ limit ≥ least,
      Printing.vcprintf ⟨kernel, limit, buf, printProgName⟩ ⟨memory, console⟩ fmt ap =
        .ok (long text.length,
          ⟨after, console ++ (blocks text).flatMap fun block => banner kernel name printProgName ++ visible block⟩) := by
  obtain ⟨least, prints⟩ := prints
  obtain ⟨leastToo, after, last, flushes⟩ := flush_shows stand printProgName text [] memory (by decide) trivial fun _ _ => rfl
  refine ⟨max least leastToo, after, last, fun limit enough => ?_⟩
  have flushed := flushes limit (by omega) console 0
  rw [Int.zero_add] at flushed
  exact (ok_bind (prints limit (by omega))).trans flushed

private def screenMemory : Bytes := fun index =>
  if index < 16 then literal "[%s %d] " index
  else if index < 32 then literal "%.*s" (index - 16)
  else if index < 48 then literal "fos" (index - 32)
  else literal "hi" (index - 48)

private def screenTexts : KernelTexts where
  progNameFormat := 0
  stringFormat := 16
  progName := 32
  envId := 7

private theorem screenTexts_stand : screenTexts.Stand screenMemory 64 (characters "fos") where
  progNameFormat := ⟨⟨by decide, by decide, by decide, by decide, by decide, by decide, by decide, by decide, trivial⟩,
    by decide, by decide⟩
  stringFormat := ⟨⟨by decide, by decide, by decide, by decide, trivial⟩, by decide, by decide⟩
  progName := ⟨⟨by decide, by decide, by decide, trivial⟩, by decide, by decide⟩
  nonzero := by decide
  apart := ⟨.inl (by decide), .inl (by decide), .inl (by decide)⟩
  short := by decide

private theorem hi_prints : ∃ least, ∀ limit ≥ least, vprintfmt screenMemory limit limit 48 [] = .ok ("hi".toList.map code) :=
  (vprintfmt_iff (.plain (by decide) (by decide) (.plain (by decide) (by decide) .nil))
    ⟨⟨by decide, by decide, trivial⟩, by decide, by decide⟩).2 (.plain (.plain .nil))

theorem vcprintf_shows_run : ∃ least after, Untouched 64 screenMemory after ∧ ∀ limit ≥ least,
    cprintf screenTexts limit 64 ⟨screenMemory, []⟩ 48 [] = .ok (2, ⟨after, "[fos 7] hi".toList.map code⟩) :=
  vcprintf_shows screenTexts_stand hi_prints [] true

end Fos.Library
