import Fos.Console.LineEditor
import Mathlib.Order.Lattice

/-! When the line editor stays in its buffers: a line that is full, a full and an empty
history are where it does not. -/

set_option autoImplicit false

namespace Fos.Console

open Foundation

variable {editor next : Editor} {key : Key} {index : Int} {line row : Line} {c : BitVec 8}

/-- A NUL within the `BUFLEN` characters. -/
def HasNul (line : Line) : Prop := ∃ index : Nat, index < bufLen ∧ line index = 0

namespace Editor

/-- What holds between keys, before `lastIndex` is adjusted. -/
structure Bounded (editor : Editor) : Prop where
  cursor : 0 ≤ editor.i ∧ editor.i < bufLen
  length : 0 ≤ editor.lastIndex ∧ editor.lastIndex < bufLen
  recalled : 0 ≤ editor.commandidx ∧ editor.commandidx ≤ editor.lastCommandIdx + 1
  history : -1 ≤ editor.lastCommandIdx ∧ editor.lastCommandIdx ≤ historyMax
  rows : ∀ index, 0 ≤ index → index ≤ historyMax → HasNul (editor.commandHistory index)

/-- The cursor is in the line, and the line is in its buffer. -/
def InBuffer (editor : Editor) : Prop :=
  0 ≤ editor.adjusted.i ∧ editor.adjusted.i ≤ editor.adjusted.lastIndex ∧ editor.adjusted.lastIndex < bufLen

instance (editor : Editor) : Decidable editor.InBuffer := inferInstanceAs (Decidable (_ ∧ _))

theorem adjusted_i (editor : Editor) : editor.adjusted.i = editor.i := by
  unfold adjusted
  split <;> rfl

theorem adjusted_lastIndex (editor : Editor) : editor.adjusted.lastIndex = max editor.i editor.lastIndex := by
  unfold adjusted
  split
  · next beyond => exact (max_eq_left (le_of_lt beyond)).symm
  · next inside => exact (max_eq_right (not_lt.1 inside)).symm

namespace Bounded

theorem inBuffer (bounded : editor.Bounded) : editor.InBuffer := by
  unfold InBuffer
  rw [adjusted_i, adjusted_lastIndex]
  exact ⟨bounded.cursor.1, le_max_left .., max_lt bounded.cursor.2 bounded.length.2⟩

theorem adjusted (bounded : editor.Bounded) : editor.adjusted.Bounded := by
  unfold Editor.adjusted
  split
  · exact { bounded with length := bounded.cursor }
  · exact bounded

end Bounded

end Editor

/-! ### Accesses -/

section Accesses

variable {post : Unit → Editor → Prop} {fail : OutOfBounds → Editor → Prop}

theorem wp_readBuf {post : BitVec 8 → Editor → Prop} : wp (readBuf index) post fail editor ↔
    if 0 ≤ index ∧ index < bufLen then post (editor.buf index) editor else fail (.buf index) editor := by
  rw [readBuf, wp_bind, wp_get]
  split <;> rfl

theorem wp_writeBuf : wp (writeBuf index c) post fail editor ↔
    if 0 ≤ index ∧ index < bufLen then post () { editor with buf := Function.update editor.buf index c }
    else fail (.buf index) editor := by
  rw [writeBuf]
  split <;> rfl

theorem wp_readRow {post : Line → Editor → Prop} : wp (readRow index) post fail editor ↔
    if 0 ≤ index ∧ index ≤ historyMax then post (editor.commandHistory index) editor else fail (.row index) editor := by
  rw [readRow, wp_bind, wp_get]
  split <;> rfl

theorem wp_writeRow : wp (writeRow index row) post fail editor ↔
    if 0 ≤ index ∧ index ≤ historyMax then
      post () { editor with commandHistory := Function.update editor.commandHistory index row }
    else fail (.row index) editor := by
  rw [writeRow]
  split <;> rfl

/-- A loop over characters stops within the buffer. -/
theorem scan_eq (stops : Int → Bool) (stopped : ∃ index : Nat, index < bufLen ∧ stops index = true) :
    ∃ index, index < bufLen ∧ stops index = true ∧ scan stops = pure index := by
  unfold scan
  cases found : (List.range bufLen).find? fun index : Nat => stops index with
  | none =>
      obtain ⟨index, bound, stop⟩ := stopped
      exact absurd stop (List.find?_eq_none.1 found index (List.mem_range.2 bound))
  | some index =>
      have bound := List.mem_range.1 (List.mem_of_find?_eq_some found)
      have stop := List.find?_some found
      exact ⟨index, bound, stop, rfl⟩

theorem strlen_eq (nul : HasNul line) : ∃ len, len < bufLen ∧ strlen line = pure len := by
  obtain ⟨index, bound, zero⟩ := nul
  obtain ⟨len, inside, -, result⟩ := scan_eq (fun index => line index == 0) ⟨index, bound, beq_iff_eq.2 zero⟩
  exact ⟨len, inside, result⟩

theorem strcmp_eq (nul : HasNul line) (other : Line) : ∃ order, strcmp line other = pure order := by
  obtain ⟨index, bound, zero⟩ := nul
  have stop : (line index == 0 || line index != other index) = true := by
    simp only [zero, BEq.rfl, Bool.true_or]
  obtain ⟨first, -, -, result⟩ := scan_eq (fun index => line index == 0 || line index != other index) ⟨index, bound, stop⟩
  exact ⟨(line first).toNat - (other first).toNat, by rw [strcmp, result, pure_bind]⟩

end Accesses

/-! ### The keys -/

namespace Editor

/-- The cursor is not behind the line. -/
structure Ready (editor : Editor) : Prop extends Bounded editor where
  order : editor.i ≤ editor.lastIndex

theorem Bounded.ready (bounded : editor.Bounded) : editor.adjusted.Ready where
  toBounded := bounded.adjusted
  order := bounded.inBuffer.2.1

end Editor

theorem copyCommand_spec (row : Line) (count : Nat) : ∀ editor : Editor, 0 ≤ editor.i → editor.i + count < bufLen →
    wp (copyCommand row count) (fun _ next => ∃ buf, next = { editor with buf, i := editor.i + count }) (fun _ _ => False)
      editor := by
  induction count with
  | zero => exact fun editor _ _ => ⟨editor.buf, by rw [Int.natCast_zero, Int.add_zero]⟩
  | succ count ih =>
      intro editor lower upper
      have inside : editor.i < bufLen := by omega
      simp only [copyCommand, wp_bind, wp_get, wp_writeBuf, if_pos (And.intro lower inside), wp_modify]
      apply wp_mono_returns (ih _ (by simp only; omega) (by simp only; omega))
      rintro _ next ⟨buf, rfl⟩
      exact ⟨buf, by simp only [Editor.mk.injEq, true_and, and_true]; omega⟩

theorem clearAndWriteCommand_spec (bounded : editor.Bounded) (lower : 0 ≤ index) (upper : index ≤ historyMax) :
    wp (clearAndWriteCommand index) (fun _ next => next.Bounded) (fun _ _ => False) editor := by
  obtain ⟨len, inside, length⟩ := strlen_eq (bounded.rows index lower upper)
  simp only [clearAndWriteCommand, wp_bind, wp_readRow, if_pos (And.intro lower upper), length, wp_pure, wp_modify]
  apply wp_mono_returns (copyCommand_spec _ len _ (Int.le_refl 0) (by simp only; omega))
  rintro _ next ⟨buf, rfl⟩
  have fits : 0 ≤ (len : Int) ∧ (len : Int) < bufLen := by omega
  exact { bounded with cursor := by simpa using fits, length := fits }

theorem upArrow_spec (bounded : editor.Bounded) :
    wp upArrow (fun _ next => next.Bounded) (fun _ _ => False) editor := by
  obtain ⟨lower, upper⟩ := bounded.recalled
  have full := bounded.history.2
  simp only [upArrow, wp_bind, wp_modify, wp_get]
  split
  · next nonzero =>
      have recalled : 0 ≤ editor.commandidx - 1 ∧ editor.commandidx - 1 ≤ editor.lastCommandIdx + 1 := by omega
      exact clearAndWriteCommand_spec { bounded with recalled := recalled } recalled.1 (by simp only; omega)
  · next zero =>
      have first : editor.commandidx = 0 := not_not.1 zero
      exact clearAndWriteCommand_spec bounded lower (first ▸ by decide)

theorem downArrow_spec (bounded : editor.Bounded) (rowExists : editor.commandidx ≤ historyMax) :
    wp downArrow (fun _ next => next.Bounded) (fun _ _ => False) editor := by
  obtain ⟨lower, upper⟩ := bounded.recalled
  have full := bounded.history.2
  simp only [downArrow, wp_bind, wp_modify, wp_get]
  split
  · next older =>
      have recalled : 0 ≤ editor.commandidx + 1 ∧ editor.commandidx + 1 ≤ editor.lastCommandIdx + 1 := by omega
      have kept : Editor.Bounded { editor with commandidx := editor.commandidx + 1 } := { bounded with recalled := recalled }
      split
      · exact clearAndWriteCommand_spec kept recalled.1 (by simp only; omega)
      · exact kept
  · split
    · exact clearAndWriteCommand_spec bounded lower rowExists
    · exact bounded

/-- In a new line, Down recalls row 20 of a full history. -/
theorem downArrow_fails (bounded : editor.Bounded) (noRow : ¬ editor.commandidx ≤ historyMax) :
    wp downArrow (fun _ _ => False) (fun _ _ => True) editor := by
  obtain ⟨lower, upper⟩ := bounded.recalled
  have full := bounded.history.2
  have size : historyMax = 19 := rfl
  have last : ¬ editor.commandidx < editor.lastCommandIdx := by omega
  have recorded : editor.lastCommandIdx ≥ 0 := by omega
  have outside : ¬ (0 ≤ editor.commandidx ∧ editor.commandidx ≤ historyMax) := fun inside => noRow inside.2
  simp only [downArrow, wp_bind, wp_modify, wp_get, if_neg last, if_pos recorded, clearAndWriteCommand, wp_readRow,
    if_neg outside]

theorem shiftLeft_spec (count : Nat) : ∀ (var : Int) (editor : Editor), 0 ≤ var → var + count < bufLen →
    wp (shiftLeft var count) (fun _ next => ∃ buf, next = { editor with buf }) (fun _ _ => False) editor := by
  induction count with
  | zero => exact fun _ editor _ _ => ⟨editor.buf, rfl⟩
  | succ count ih =>
      intro var editor lower upper
      have reads : 0 ≤ var + 1 ∧ var + 1 < bufLen := by omega
      have writes : 0 ≤ var ∧ var < bufLen := by omega
      simp only [shiftLeft, wp_bind, wp_readBuf, if_pos reads, wp_writeBuf, if_pos writes]
      apply wp_mono_returns (ih (var + 1) _ reads.1 (by omega))
      rintro _ next ⟨buf, rfl⟩
      exact ⟨buf, rfl⟩

theorem shiftLeft_fails (count : Nat) : ∀ (var : Int) (editor : Editor), 0 ≤ var → var < bufLen → bufLen ≤ var + count →
    wp (shiftLeft var count) (fun _ _ => False) (fun _ _ => True) editor := by
  induction count with
  | zero =>
      intro var _ _ inside outside
      exact absurd outside (by omega)
  | succ count ih =>
      intro var editor lower inside outside
      simp only [shiftLeft, wp_bind, wp_readBuf]
      split
      · next reads =>
          rw [wp_writeBuf, if_pos ⟨lower, inside⟩]
          exact ih (var + 1) _ reads.1 reads.2 (by omega)
      · trivial

theorem deleteKey_spec (ready : editor.Ready) (inside : 0 < editor.i) (room : editor.lastIndex < bufLen - 1) :
    wp deleteKey (fun _ next => next.Bounded) (fun _ _ => False) editor := by
  have order := ready.order
  simp only [deleteKey, wp_bind, wp_get]
  apply wp_mono_returns (shiftLeft_spec _ editor.i editor ready.cursor.1 (by omega))
  rintro _ next ⟨buf, rfl⟩
  have shorter : 0 ≤ editor.lastIndex - 1 ∧ editor.lastIndex - 1 < bufLen := by omega
  exact { ready.toBounded with length := shorter }

theorem deleteKey_fails (ready : editor.Ready) (full : ¬ editor.lastIndex < bufLen - 1) :
    wp deleteKey (fun _ _ => False) (fun _ _ => True) editor := by
  have order := ready.order
  simp only [deleteKey, wp_bind, wp_get]
  exact wp_mono_fails (shiftLeft_fails _ editor.i editor ready.cursor.1 ready.cursor.2 (by omega)) fun _ _ failed => failed

theorem insertKey_eq (bounded : editor.Bounded) {post : Unit → Editor → Prop} {fail : OutOfBounds → Editor → Prop} :
    wp (insertKey c) post fail editor ↔ post () { editor with
      buf := Function.update editor.buf editor.i c, i := editor.i + 1, lastIndex := editor.lastIndex + 1 } := by
  simp only [insertKey, wp_bind, wp_get, wp_writeBuf, if_pos bounded.cursor, wp_modify]

theorem backspace_spec (bounded : editor.Bounded) (inside : 0 < editor.i) :
    wp backspace (fun _ next => next.Bounded) (fun _ _ => False) editor := by
  obtain ⟨lower, upper⟩ := bounded.cursor
  have before : 0 ≤ editor.i - 1 ∧ editor.i - 1 < bufLen := by omega
  simp only [backspace, wp_bind, wp_get, wp_readBuf, if_pos bounded.cursor, wp_writeBuf, if_pos before, wp_modify]
  exact { bounded with cursor := before }

namespace Editor.Bounded

/-- A row becomes one that ends within the buffer. -/
theorem setRow (bounded : editor.Bounded) (nul : HasNul row) :
    Editor.Bounded { editor with commandHistory := Function.update editor.commandHistory index row } := by
  refine { bounded with rows := fun other lower upper => ?_ }
  simp only [Function.update_apply]
  split
  · exact nul
  · exact bounded.rows other lower upper

end Editor.Bounded

theorem shiftHistory_spec (count : Nat) : ∀ (idx : Int) (editor : Editor), editor.Bounded → 0 ≤ idx → idx + count ≤ historyMax →
    wp (shiftHistory idx count) (fun _ next => next.Bounded ∧ next.buf = editor.buf) (fun _ _ => False) editor := by
  induction count with
  | zero => exact fun _ editor bounded _ _ => ⟨bounded, rfl⟩
  | succ count ih =>
      intro idx editor bounded lower upper
      have reads : 0 ≤ idx + 1 ∧ idx + 1 ≤ historyMax := by omega
      have writes : 0 ≤ idx ∧ idx ≤ historyMax := by omega
      simp only [shiftHistory, wp_bind, wp_readRow, if_pos reads, wp_writeRow, if_pos writes]
      apply ih (idx + 1) _ (bounded.setRow (bounded.rows _ reads.1 reads.2)) reads.1 (by omega)

/-- The text of the line ends at `lastIndex`. -/
theorem hasNul_closed (length : 0 ≤ index ∧ index < bufLen) : HasNul (Function.update line index 0) := by
  refine ⟨index.toNat, by omega, ?_⟩
  rw [Int.toNat_of_nonneg length.1]
  exact Function.update_self ..

theorem enterKey_spec (bounded : editor.Bounded) (recorded : 0 ≤ editor.lastCommandIdx) :
    wp enterKey (fun _ next => next.Bounded ∧ HasNul next.buf) (fun _ _ => False) editor := by
  have closed : HasNul (Function.update editor.buf editor.lastIndex 0) := hasNul_closed bounded.length
  have kept : Editor.Bounded { editor with buf := Function.update editor.buf editor.lastIndex 0 } := { bounded with }
  simp only [enterKey, wp_bind, wp_get, wp_writeBuf, if_pos bounded.length]
  split
  · rw [wp_bind]
    have all : 0 + (historyMax.toNat : Int) ≤ historyMax := by decide
    generalize historyMax.toNat = count at all ⊢
    apply wp_mono_returns (shiftHistory_spec count 0 _ kept (Int.le_refl 0) all)
    rintro _ next ⟨nextBounded, same⟩
    rw [wp_writeRow, if_pos (by decide)]
    exact ⟨nextBounded.setRow closed, same ▸ closed⟩
  · next room =>
      have inside : 0 ≤ editor.lastCommandIdx ∧ editor.lastCommandIdx ≤ historyMax := ⟨recorded, bounded.history.2⟩
      obtain ⟨order, compared⟩ := strcmp_eq (bounded.rows _ inside.1 inside.2)
        (Function.update editor.buf editor.lastIndex 0)
      simp only [wp_bind, wp_readRow, if_pos inside, compared, wp_pure]
      split
      · have next : 0 ≤ editor.lastCommandIdx + 1 ∧ editor.lastCommandIdx + 1 ≤ historyMax := by omega
        have recalled : 0 ≤ editor.commandidx ∧ editor.commandidx ≤ editor.lastCommandIdx + 1 + 1 :=
          ⟨bounded.recalled.1, by have := bounded.recalled.2; omega⟩
        have history : -1 ≤ editor.lastCommandIdx + 1 ∧ editor.lastCommandIdx + 1 ≤ historyMax := by omega
        have more : Editor.Bounded { editor with
            buf := Function.update editor.buf editor.lastIndex 0, lastCommandIdx := editor.lastCommandIdx + 1 } :=
          { kept with history := history, recalled := recalled }
        simp only [wp_bind, wp_modify, wp_writeRow, if_pos next]
        exact ⟨more.setRow closed, closed⟩
      · exact ⟨kept, closed⟩

/-- The first line is compared with the row before the history. -/
theorem enterKey_fails (bounded : editor.Bounded) (empty : ¬ 0 ≤ editor.lastCommandIdx) :
    wp enterKey (fun _ _ => False) (fun _ _ => True) editor := by
  have size : historyMax = 19 := rfl
  have notFull : ¬ editor.lastCommandIdx = historyMax := by omega
  have outside : ¬ (0 ≤ editor.lastCommandIdx ∧ editor.lastCommandIdx ≤ historyMax) := fun inside => empty inside.1
  simp only [enterKey, wp_bind, wp_get, wp_writeBuf, if_pos bounded.length, if_neg notFull, wp_readRow, if_neg outside]

/-! ### One round -/

/-- A key that inserts or deletes finds room for one more character behind the line, Down finds a row
to recall, and Enter an earlier command. -/
def HasRoom (editor : Editor) (key : Key) : Prop :=
  (key.code = 227 → editor.commandidx ≤ historyMax) ∧
    (key.code ≠ 226 → key.code ≠ 227 → key.code = 0xE9 ∧ editor.i > 0 ∨ editor.Inserts key → editor.lastIndex < bufLen - 1) ∧
    (key.isEnter = true → 0 ≤ editor.lastCommandIdx)

instance (editor : Editor) (key : Key) : Decidable (HasRoom editor key) := inferInstanceAs (Decidable (_ ∧ _ ∧ _))

theorem Key.not_isEnter {code : BitVec 8} (is : key.code = code) (other : code ≠ 10 ∧ code ≠ 13) : ¬ key.isEnter = true := by
  intro ends
  rcases of_decide_eq_true ends with line | carriage
  · exact other.1 (is.symm.trans line)
  · exact other.2 (is.symm.trans carriage)

theorem Editor.Inserts.not_isEnter (inserts : editor.Inserts key) : ¬ key.isEnter = true := by
  intro ends
  have printable := inserts.1
  rcases of_decide_eq_true ends with line | carriage
  · exact absurd printable (line ▸ by decide)
  · exact absurd printable (carriage ▸ by decide)

theorem respond_spec (ready : editor.Ready) (room : HasRoom editor key) :
    wp (respond key) (fun _ next => next.Bounded ∧ (key.isEnter = true → HasNul next.buf)) (fun _ _ => False) editor := by
  have bounded := ready.toBounded
  have only {program : EditorM Unit} (spec : wp program (fun _ next => next.Bounded) (fun _ _ => False) editor)
      (other : ¬ key.isEnter = true) :
      wp program (fun _ next => next.Bounded ∧ (key.isEnter = true → HasNul next.buf)) (fun _ _ => False) editor :=
    wp_mono_returns spec (fun _ _ holds => ⟨holds, fun ends => absurd ends other⟩)
  have recorded := room.2.2
  unfold respond
  rw [wp_bind, wp_get]
  split
  · next is => exact only (upArrow_spec bounded) (Key.not_isEnter is (by decide))
  rename_i notUp
  split
  · next is => exact only (downArrow_spec bounded (room.1 is)) (Key.not_isEnter is (by decide))
  rename_i notDown
  have behind := room.2.1 notUp notDown
  split
  · next is =>
      apply only _ (Key.not_isEnter is (by decide))
      split
      · next inside =>
          have moved : 0 ≤ editor.i - 1 ∧ editor.i - 1 < bufLen := by
            have := bounded.cursor
            omega
          exact { bounded with cursor := moved }
      · exact bounded
  split
  · next is =>
      apply only _ (Key.not_isEnter is (by decide))
      split
      · next inside =>
          have moved : 0 ≤ editor.i + 1 ∧ editor.i + 1 < bufLen := by
            have := bounded.cursor
            have := bounded.length
            omega
          exact { bounded with cursor := moved }
      · exact bounded
  split
  · next is => exact only (deleteKey_spec ready is.2 (behind (.inl is))) (Key.not_isEnter is.1 (by decide))
  split
  · next inserts =>
      apply only _ inserts.not_isEnter
      have more := behind (.inr inserts)
      have grown : 0 ≤ editor.lastIndex + 1 ∧ editor.lastIndex + 1 < bufLen := by
        have := bounded.length
        omega
      have moved : 0 ≤ editor.i + 1 ∧ editor.i + 1 < bufLen := by
        have := bounded.cursor
        have := ready.order
        omega
      rw [insertKey_eq bounded]
      exact { bounded with cursor := moved, length := grown }
  split
  · next is => exact only (backspace_spec bounded is.2) (Key.not_isEnter is.1 (by decide))
  split
  · next ends =>
      apply wp_mono_returns (enterKey_spec bounded (recorded ends))
      exact fun _ _ holds => ⟨holds.1, fun _ => holds.2⟩
  · next other => exact ⟨bounded, fun ends => absurd ends other⟩

/-- Without room, an access is out of bounds, or the line is longer than its buffer. -/
theorem respond_careless (ready : editor.Ready) (noRoom : ¬ HasRoom editor key) :
    wp (respond key) (fun _ next => ¬ next.InBuffer) (fun _ _ => True) editor := by
  have bounded := ready.toBounded
  have fails {program : EditorM Unit} (spec : wp program (fun _ _ => False) (fun _ _ => True) editor) :
      wp program (fun _ next => ¬ next.InBuffer) (fun _ _ => True) editor :=
    wp_mono_fails spec fun _ _ failed => failed
  unfold respond
  rw [wp_bind, wp_get]
  rcases not_and_or.1 noRoom with down | rest
  · obtain ⟨is, noRow⟩ := Classical.not_imp.1 down
    rw [if_neg (is ▸ by decide : ¬ key.code = 226), if_pos is]
    exact fails (downArrow_fails bounded noRow)
  · rcases not_and_or.1 rest with edits | enter
    · simp only [Classical.not_imp] at edits
      obtain ⟨notUp, notDown, delete | inserts, full⟩ := edits
      · rw [if_neg notUp, if_neg notDown, if_neg (delete.1 ▸ by decide : ¬ key.code = 228),
          if_neg (delete.1 ▸ by decide : ¬ key.code = 229), if_pos delete]
        exact fails (deleteKey_fails ready full)
      · rw [if_neg notUp, if_neg notDown, if_neg inserts.2.2.2, if_neg inserts.2.2.1]
        split
        · exact fails (deleteKey_fails ready full)
        · rw [insertKey_eq bounded]
          intro inside
          have longer := inside.2.2
          rw [Editor.adjusted_lastIndex] at longer
          exact full (Int.lt_sub_right_of_add_lt (lt_of_le_of_lt (le_max_right ..) longer))
    · obtain ⟨ends, empty⟩ := Classical.not_imp.1 enter
      have other {code : BitVec 8} (differs : code ≠ 10 ∧ code ≠ 13) : ¬ key.code = code :=
        fun is => Key.not_isEnter is differs ends
      rw [if_neg (other (by decide)), if_neg (other (by decide)), if_neg (other (by decide)), if_neg (other (by decide)),
        if_neg fun is => other (by decide) is.1, if_neg fun inserts => inserts.not_isEnter ends,
        if_neg fun is => other (by decide) is.1, if_pos ends]
      exact fails (enterKey_fails bounded empty)

/-! ### Runs of keys -/

/-- A key is served within the buffers, and the text of a line that ends is shorter than its buffer. -/
def StaysInBuffers (editor : Editor) (key : Key) : Prop :=
  wp (readKey key) (fun ends next => next.InBuffer ∧
    (ends = true → wp (strlen next.buf) (fun len _ => len ≤ bufLen - 1) (fun _ _ => False) next)) (fun _ _ => False) editor

instance (editor : Editor) (key : Key) : Decidable (StaysInBuffers editor key) :=
  inferInstanceAs (Decidable (wp (readKey key) _ _ editor))

/-- The room a key needs is there once `lastIndex` has been adjusted. -/
def Careful (editor : Editor) (key : Key) : Prop := HasRoom editor.adjusted key

instance (editor : Editor) (key : Key) : Decidable (Careful editor key) := inferInstanceAs (Decidable (HasRoom _ _))

/-- Any history, at the start of a line. -/
structure Editor.Starts (editor : Editor) : Prop where
  history : -1 ≤ editor.lastCommandIdx ∧ editor.lastCommandIdx ≤ historyMax
  rows : ∀ index, 0 ≤ index → index ≤ historyMax → HasNul (editor.commandHistory index)
  cursor : editor.i = 0 ∧ editor.lastIndex = 0
  recalled : editor.commandidx = editor.lastCommandIdx + 1

/-- One line after the other. -/
def lineEditor : System Editor Key where
  start := Editor.Starts
  exec editor key :=
    match readKey key editor with
    | .ok ends next => some (if ends then next.newLine else next)
    | .error _ _ => none

theorem Editor.Starts.bounded (starts : editor.Starts) : editor.Bounded := by
  obtain ⟨⟨lower, upper⟩, rows, ⟨cursor, length⟩, recalled⟩ := starts
  have zero : (0 : Int) ≤ 0 ∧ (0 : Int) < bufLen := by decide
  exact ⟨cursor ▸ zero, length ▸ zero, by omega, ⟨lower, upper⟩, rows⟩

theorem readKey_spec (bounded : editor.Bounded) (careful : Careful editor key) :
    wp (readKey key) (fun ends next => next.Bounded ∧ (ends = true → HasNul next.buf)) (fun _ _ => False) editor := by
  simp only [readKey, wp_bind, wp_modify, wp_pure]
  exact respond_spec bounded.ready careful

theorem bounded_of_reaches (reached : lineEditor.Reaches Careful editor) : editor.Bounded := by
  apply reached.invariant Editor.Bounded
  · exact fun editor starts => starts.bounded
  · intro editor key next bounded careful executes
    have served := readKey_spec bounded careful
    unfold wp at served
    simp only [lineEditor] at executes
    split at served
    · next ends after outcome =>
        rw [outcome] at executes
        cases executes
        cases ends with
        | false => exact served.1
        | true =>
            have started : after.newLine.Starts := ⟨served.1.history, served.1.rows, ⟨rfl, rfl⟩, rfl⟩
            exact started.bounded
    · exact served.elim

/-- In a run of careful keys, the line stays in its buffer, and the next key stays in the buffers
exactly if it is careful. -/
theorem staysInBuffers_iff (reached : lineEditor.Reaches Careful editor) :
    editor.InBuffer ∧ ∀ key, StaysInBuffers editor key ↔ Careful editor key := by
  have bounded := bounded_of_reaches reached
  refine ⟨bounded.inBuffer, fun key => ⟨fun stays => ?_, fun careful => ?_⟩⟩
  · apply Decidable.of_not_not
    intro careless
    have misses : wp (readKey key) (fun _ next => ¬ next.InBuffer) (fun _ _ => True) editor := by
      simp only [readKey, wp_bind, wp_modify, wp_pure]
      exact respond_careless bounded.ready careless
    obtain ⟨_, next, outside, inside, -⟩ := exists_of_wp misses stays
    exact outside inside
  · apply wp_mono_returns (readKey_spec bounded careful)
    rintro ends next ⟨nextBounded, nul⟩
    refine ⟨nextBounded.inBuffer, fun ended => ?_⟩
    apply (strlen_eq (nul ended)).elim
    intro len text
    rw [text.2, wp_pure]
    exact Nat.le_sub_one_of_lt text.1

/-- The start of a line with commands of 1023 characters up to a row of the history. -/
private def recorded (last : Int) : Editor where
  buf := .empty
  i := 0
  lastIndex := 0
  commandidx := last + 1
  lastCommandIdx := last
  commandHistory row := if row ≤ last then fun index => if index < 1023 then 97 else 0 else .empty

private theorem recorded_starts {last : Int} (history : -1 ≤ last ∧ last ≤ historyMax) : lineEditor.start (recorded last) := by
  refine ⟨history, fun index lower upper => ⟨1023, by decide, ?_⟩, ⟨rfl, rfl⟩, rfl⟩
  simp only [recorded]
  split <;> rfl

/-- A full line is recalled, and the cursor moved. -/
theorem staysInBuffers_recalled : ∃ editor, editor.i = 1022 ∧ editor.InBuffer ∧
    ∀ key, StaysInBuffers editor key ↔ Careful editor key := by
  obtain ⟨editor, ran, cursor⟩ : ∃ editor ∈ lineEditor.attempt Careful (recorded 0) [.up, .left], editor.i = 1022 := by
    decide +kernel
  exact ⟨editor, cursor, staysInBuffers_iff ((System.Reaches.start (recorded_starts (by decide))).attempt ran)⟩

/-- A character typed there makes the line longer than its buffer. Down at the start of a line with a
full history recalls row 20, and the first line of all is compared with row -1. -/
theorem not_staysInBuffers :
    (∃ editor ∈ lineEditor.run (recorded 0) [.up, .left], ¬ StaysInBuffers editor ⟨97, by decide⟩) ∧
      ¬ StaysInBuffers (recorded 19) .down ∧ ¬ StaysInBuffers (recorded (-1)) .enter := by
  decide +kernel

end Fos.Console
