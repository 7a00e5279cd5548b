import Fos.Library.PrintedNumbers

/-! What `vsnprintf` leaves in its buffer. -/

set_option autoImplicit false

namespace Fos.Library

variable {memory : Bytes} {fmt : Nat} {ap : VaList} {text : Text}

/-- The characters go into the buffer as long as there is room. -/
theorem foldl_sprintputch (text : Text) : ∀ (memory : Bytes) (buf room : Nat) (cnt : Int),
    ∃ after, text.foldl SprintBuf.sprintputch ⟨memory, buf, buf + room, long cnt⟩ =
        ⟨after, buf + min text.length room, buf + room, long (cnt + text.length)⟩ ∧
      Stored after buf (bytes (text.take room)) ∧ ∀ index, index < buf ∨ buf + min text.length room ≤ index →
          after index = memory index := by
  induction text with
  | nil =>
      intro memory buf room cnt
      refine ⟨memory, ?_, ?_, fun _ _ => rfl⟩
      · rw [List.foldl_nil, List.length_nil, Nat.zero_min, Nat.cast_zero, Int.add_zero, Nat.add_zero]
      · rw [List.take_nil]
        trivial
  | cons ch text ih =>
      intro memory buf room cnt
      have count : long (long cnt + 1) = long (cnt + 1) := long_congr ((long_modEq cnt).add_right 1)
      have rest : cnt + 1 + text.length = cnt + (ch :: text).length := by
        rw [List.length_cons]
        omega
      rw [List.foldl_cons]
      cases room with
      | zero =>
          obtain ⟨after, folded, _, same⟩ := ih memory buf 0 (cnt + 1)
          have full : SprintBuf.sprintputch ⟨memory, buf, buf + 0, long cnt⟩ ch = ⟨memory, buf, buf + 0, long (cnt + 1)⟩ := by
            rw [← count]
            exact if_neg (Nat.lt_irrefl _)
          rw [Nat.min_zero] at folded same
          rw [full, folded, rest, Nat.min_zero]
          exact ⟨after, rfl, trivial, same⟩
      | succ room =>
          obtain ⟨after, folded, stored, same⟩ := ih (Function.update memory buf (ch.setWidth 8)) (buf + 1) room (cnt + 1)
          have shift : buf + (room + 1) = buf + 1 + room := by omega
          have put : SprintBuf.sprintputch ⟨memory, buf, buf + (room + 1), long cnt⟩ ch =
              ⟨Function.update memory buf (ch.setWidth 8), buf + 1, buf + 1 + room, long (cnt + 1)⟩ := by
            have below : buf < buf + (room + 1) := by omega
            rw [← count, ← shift]
            exact if_pos below
          have least : buf + min (ch :: text).length (room + 1) = buf + 1 + min text.length room := by
            rw [List.length_cons]
            omega
          rw [put, folded, rest, least, ← shift]
          refine ⟨after, rfl, ⟨?_, stored⟩, fun index outside => ?_⟩
          · rw [same buf (.inl (Nat.lt_succ_self buf))]
            exact Function.update_self ..
          · rw [same index (by omega)]
            exact Function.update_of_ne (by omega) ..

/-- What is printed comes from outside a buffer: neither the format nor a string it shows lies there. -/
def PrintsApart (memory : Bytes) (buf size fmt : Nat) (ap : VaList) (text : Text) : Prop :=
  ∀ shown : Bytes, (∀ index, index < buf ∨ buf + size ≤ index → shown index = memory index) →
    ∃ least, ∀ limit ≥ least, vprintfmt shown limit limit fmt ap = .ok text

/-- `vsnprintf` returns the length of the text, and leaves the text in the buffer, cut to `n - 1` characters, with a NUL
behind it. It writes nothing else, and the text stays what is printed while the buffer is being filled. -/
theorem vsnprintf_writes {buf : Nat} {n : Int} (nonnull : buf ≠ 0) (room : 1 ≤ n)
    (apart : PrintsApart memory buf n.toNat fmt ap text) :
    (∃ least after, (∀ limit ≥ least, vsnprintf memory limit buf n fmt ap = .ok (long text.length, after)) ∧
      Stored after buf (bytes (text.take (n.toNat - 1)) ++ [0]) ∧
      ∀ index, index < buf ∨ buf + min text.length (n.toNat - 1) < index → after index = memory index) ∧
    ∀ count, ∃ least, ∀ limit ≥ least,
      vprintfmt ((text.take count).foldl SprintBuf.sprintputch ⟨memory, buf, buf + n.toNat - 1, 0⟩).memory limit limit fmt ap =
        .ok text := by
  have last : buf + n.toNat - 1 = buf + (n.toNat - 1) := by omega
  have zero : (0 : Int) = long 0 := rfl
  rw [last, zero]
  constructor
  · obtain ⟨least, prints⟩ := apart memory fun _ _ => rfl
    obtain ⟨written, folded, stored, same⟩ := foldl_sprintputch text memory buf (n.toNat - 1) 0
    have valid : ¬ (buf = 0 ∨ n < 1) := not_or.2 ⟨nonnull, by omega⟩
    have length : (bytes (text.take (n.toNat - 1))).length = min text.length (n.toNat - 1) := by
      rw [bytes, List.length_map, List.length_take, Nat.min_comm]
    refine ⟨least, Function.update written (buf + min text.length (n.toNat - 1)) 0, fun limit enough => ?_, ?_, ?_⟩
    · rw [vsnprintf, if_neg valid, ok_bind (prints limit enough), last, zero, folded, Int.zero_add]
      rfl
    · apply Stored.append_iff.2
      rw [length]
      refine ⟨stored.frame fun index _ less => ?_, Function.update_self .., trivial⟩
      exact Function.update_of_ne (by omega) ..
    · intro index outside
      rw [Function.update_of_ne (by omega)]
      exact same index (by omega)
  · intro count
    obtain ⟨written, folded, -, same⟩ := foldl_sprintputch (text.take count) memory buf (n.toNat - 1) 0
    rw [folded]
    exact apart written fun index outside => same index (by omega)

private theorem abc_apart : PrintsApart (literal "abc") 16 3 0 [] ("abc".toList.map code) := by
  intro shown same
  have terminated : Terminated shown 0 [byteOf 'a', byteOf 'b', byteOf 'c'] :=
    ⟨⟨same 0 (by decide), same 1 (by decide), same 2 (by decide), trivial⟩, same 3 (by decide), by decide⟩
  exact (vprintfmt_iff (.plain (by decide) (by decide) (.plain (by decide) (by decide) (.plain (by decide) (by decide) .nil)))
    terminated).2 (.plain (.plain (.plain .nil)))

/-- The third character has no place. -/
theorem vsnprintf_writes_run : ∃ least after, (∀ limit ≥ least, vsnprintf (literal "abc") limit 16 3 0 [] = .ok (3, after)) ∧
    Stored after 16 [byteOf 'a', byteOf 'b', 0] ∧ ∀ index, index < 16 ∨ 18 < index → after index = literal "abc" index :=
  (vsnprintf_writes (by decide : 16 ≠ 0) (by decide : (1 : Int) ≤ 3) abc_apart).1

end Fos.Library
