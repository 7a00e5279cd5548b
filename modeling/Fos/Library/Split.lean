import Fos.Library.Strings

/-! `strsplit` of `lib/string.c`: a string becomes arguments, in place. -/

set_option autoImplicit false

namespace Fos.Library

abbrev maxArguments : Nat := 16

/-- The rest of a string from a character on. -/
def strchr : List (BitVec 8) → BitVec 8 → Option (List (BitVec 8))
  | [], _ => none
  | char :: s, c => if char = c then some (char :: s) else strchr s c

/-- Separators in front of an argument are overwritten by zeros. -/
def trimLoop (splitChars : List (BitVec 8)) : Nat → Bytes → Nat → Option (Bytes × Nat)
  | 0, _, _ => none
  | fuel + 1, memory, string =>
      if memory string ≠ 0 ∧ (strchr splitChars (memory string)).isSome then
        trimLoop splitChars fuel (Function.update memory string 0) (string + 1)
      else some (memory, string)

/-- The argument goes on to the next separator or the end. -/
def scanLoop (splitChars : List (BitVec 8)) (memory : Bytes) : Nat → Nat → Option Nat
  | 0, _ => none
  | fuel + 1, string =>
      if memory string ≠ 0 ∧ ¬ (strchr splitChars (memory string)).isSome then
        scanLoop splitChars memory fuel (string + 1)
      else some string

/-- What `strsplit` leaves behind and returns. A pointer in `argv` is `none` if it is NULL. -/
structure Arguments where
  memory : Bytes
  argv : Nat → Option Nat
  argc : Nat
  returned : Nat

def splitLoop (splitChars : List (BitVec 8)) : Nat → Bytes → Nat → (Nat → Option Nat) → Nat → Option Arguments
  | 0, _, _, _, _ => none
  | fuel + 1, memory, string, argv, argc => do
      let (memory, string) ← trimLoop splitChars (fuel + 1) memory string
      if memory string = 0 then
        return { memory, argv := Function.update argv argc none, argc, returned := 1 }
      else if argc = maxArguments - 1 then
        return { memory, argv, argc, returned := 0 }
      else
        let argv := Function.update argv argc (some string)
        let string ← scanLoop splitChars memory (fuel + 1) string
        splitLoop splitChars fuel memory string argv (argc + 1)

/-- No loop makes more rounds than `fuel`. -/
def strsplit (fuel : Nat) (memory : Bytes) (string : Nat) (splitChars : List (BitVec 8)) (argv : Nat → Option Nat) :
    Option Arguments :=
  splitLoop splitChars fuel memory string (Function.update argv 0 none) 0

/-! ### Runs -/

variable {separators rest : List (BitVec 8)} {memory next : Bytes} {position fuel : Nat} {char : BitVec 8}

def separates (separators : List (BitVec 8)) (char : BitVec 8) : Bool := separators.contains char

/-- The characters up to the first separator. -/
def run (separators rest : List (BitVec 8)) : List (BitVec 8) := rest.takeWhile fun char => !separates separators char

/-- What is behind these characters. -/
def afterRun (separators rest : List (BitVec 8)) : List (BitVec 8) := rest.dropWhile fun char => !separates separators char

/-- The maximal runs of characters that are no separators, with where they start: `inRun` says that
the character in front belongs to a run. -/
def runs (separators : List (BitVec 8)) : Bool → Nat → List (BitVec 8) → List (Nat × List (BitVec 8))
  | _, _, [] => []
  | inRun, position, char :: rest =>
      if separates separators char then runs separators false (position + 1) rest
      else if inRun then runs separators true (position + 1) rest
      else (position, run separators (char :: rest)) :: runs separators true (position + 1) rest

/-- Behind a run is a separator. -/
theorem separates_afterRun {more : List (BitVec 8)} (after : afterRun separators rest = char :: more) :
    separates separators char := by
  have head := List.head?_dropWhile_not (fun char => !separates separators char) rest
  rw [afterRun] at after
  rw [after] at head
  simpa using head

section Lists

variable (separators)

theorem run_append (rest : List (BitVec 8)) : run separators rest ++ afterRun separators rest = rest :=
  List.takeWhile_append_dropWhile

theorem run_of_separates {char : BitVec 8} (separator : separates separators char = true) (rest : List (BitVec 8)) :
    run separators (char :: rest) = [] ∧ afterRun separators (char :: rest) = char :: rest := by
  simp only [run, afterRun, List.takeWhile_cons, List.dropWhile_cons, separator]
  exact ⟨rfl, rfl⟩

theorem run_of_other {char : BitVec 8} (other : separates separators char = false) (rest : List (BitVec 8)) :
    run separators (char :: rest) = char :: run separators rest ∧
      afterRun separators (char :: rest) = afterRun separators rest := by
  simp only [run, afterRun, List.takeWhile_cons, List.dropWhile_cons, other]
  exact ⟨rfl, rfl⟩

theorem runs_trim (rest : List (BitVec 8)) : ∀ position, runs separators false position rest =
    runs separators false (position + (rest.takeWhile (separates separators)).length)
      (rest.dropWhile (separates separators)) := by
  induction rest with
  | nil => exact fun _ => rfl
  | cons char rest ih =>
      intro position
      cases found : separates separators char with
      | true =>
          simp only [runs, List.takeWhile_cons, List.dropWhile_cons, found, if_true, List.length_cons]
          rw [ih, Nat.add_assoc, Nat.add_comm 1]
      | false =>
          simp only [List.takeWhile_cons, List.dropWhile_cons, found]
          rfl

theorem runs_scan (rest : List (BitVec 8)) : ∀ position, runs separators true position rest =
    runs separators false (position + (run separators rest).length) (afterRun separators rest) := by
  induction rest with
  | nil => exact fun _ => rfl
  | cons char rest ih =>
      intro position
      cases found : separates separators char with
      | true =>
          obtain ⟨none, all⟩ := run_of_separates separators found rest
          rw [none, all, runs, if_pos found, List.length_nil, Nat.add_zero, runs, if_pos found]
      | false =>
          obtain ⟨more, behind⟩ := run_of_other separators found rest
          rw [more, behind, runs, found, if_neg Bool.false_ne_true, if_pos rfl, List.length_cons, ih, Nat.add_assoc,
            Nat.add_comm 1]

/-- The first of the runs, and those behind it. -/
theorem runs_cons {char : BitVec 8} (other : separates separators char = false) (rest : List (BitVec 8)) (position : Nat) :
    runs separators false position (char :: rest) =
      (position, run separators (char :: rest)) ::
        runs separators false (position + (run separators (char :: rest)).length) (afterRun separators (char :: rest)) := by
  have scanned := runs_scan separators (char :: rest) position
  rw [runs, other, if_neg Bool.false_ne_true, if_pos rfl] at scanned
  rw [← scanned, runs, other, if_neg Bool.false_ne_true, if_neg Bool.false_ne_true]

end Lists

/-! ### The two scans -/

theorem strchr_isSome (s : List (BitVec 8)) (c : BitVec 8) : (strchr s c).isSome = separates s c := by
  induction s with
  | nil => rfl
  | cons char s ih =>
      rw [strchr, separates, List.contains_cons]
      split
      · next same => simp [same]
      · next different =>
          rw [beq_false_of_ne (Ne.symm different), Bool.false_or]
          exact ih

theorem trimLoop_spec (separators rest : List (BitVec 8)) : ∀ fuel memory position, Terminated memory position rest →
    rest.length < fuel → ∃ next, trimLoop separators fuel memory position =
      some (next, position + (rest.takeWhile (separates separators)).length) ∧
      ∀ index, next index = if position ≤ index ∧ index < position + (rest.takeWhile (separates separators)).length then 0
        else memory index := by
  induction rest with
  | nil =>
      intro fuel memory position terminated enough
      obtain ⟨fuel, rfl⟩ := Nat.exists_eq_add_of_lt enough
      refine ⟨memory, if_neg fun more => more.1 terminated.ends, fun index => (if_neg ?_).symm⟩
      rw [List.takeWhile_nil, List.length_nil]
      omega
  | cons char rest ih =>
      intro fuel memory position terminated enough
      obtain ⟨fuel, rfl⟩ := Nat.exists_eq_succ_of_ne_zero (Nat.ne_zero_of_lt enough)
      have here : memory position = char := terminated.stored.1
      have nonzero : char ≠ 0 := terminated.nonzero char (List.mem_cons_self ..)
      rw [trimLoop, here, strchr_isSome]
      cases found : separates separators char with
      | true =>
          have behind : Terminated (Function.update memory position 0) (position + 1) rest := by
            apply terminated.tail.frame
            exact fun index lower _ => Function.update_of_ne (Nat.ne_of_gt lower) ..
          obtain ⟨next, returned, cleared⟩ := ih fuel _ (position + 1) behind (Nat.lt_of_succ_lt_succ enough)
          rw [if_pos ⟨nonzero, rfl⟩, returned]
          simp only [List.takeWhile_cons, found, if_true, List.length_cons]
          refine ⟨next, by rw [Nat.add_assoc, Nat.add_comm 1], fun index => ?_⟩
          rw [cleared]
          rcases Nat.lt_trichotomy index position with before | rfl | later
          · rw [if_neg (by omega), if_neg (by omega), Function.update_of_ne (Nat.ne_of_lt before)]
          · rw [if_neg (by omega), if_pos (by omega), Function.update_self]
          · rw [Function.update_of_ne (Nat.ne_of_gt later)]
            exact if_congr (by omega) rfl rfl
      | false =>
          rw [if_neg fun goes => Bool.false_ne_true goes.2]
          simp only [List.takeWhile_cons, found]
          exact ⟨memory, rfl, fun index => (if_neg (by simp)).symm⟩

theorem scanLoop_spec (rest : List (BitVec 8)) : ∀ fuel position, Terminated memory position rest →
    rest.length < fuel → scanLoop separators memory fuel position = some (position + (run separators rest).length) := by
  induction rest with
  | nil =>
      intro fuel position terminated enough
      obtain ⟨fuel, rfl⟩ := Nat.exists_eq_add_of_lt enough
      exact if_neg fun more => more.1 terminated.ends
  | cons char rest ih =>
      intro fuel position terminated enough
      obtain ⟨fuel, rfl⟩ := Nat.exists_eq_succ_of_ne_zero (Nat.ne_zero_of_lt enough)
      have here : memory position = char := terminated.stored.1
      have nonzero : char ≠ 0 := terminated.nonzero char (List.mem_cons_self ..)
      rw [scanLoop, here, strchr_isSome]
      cases found : separates separators char with
      | true =>
          rw [if_neg fun goes => goes.2 rfl, (run_of_separates separators found rest).1]
          rfl
      | false =>
          rw [if_pos ⟨nonzero, Bool.false_ne_true⟩, ih fuel (position + 1) terminated.tail (Nat.lt_of_succ_lt_succ enough),
            (run_of_other separators found rest).1, List.length_cons, Nat.add_assoc, Nat.add_comm 1]

/-! ### The arguments -/

/-- What becomes of the rest of a string from a position on, when some arguments are there already. -/
structure Splits (separators : List (BitVec 8)) (memory : Bytes) (position : Nat) (rest : List (BitVec 8))
    (argv : Nat → Option Nat) (argc : Nat) (result : Arguments) : Prop where
  count : result.argc = min (argc + (runs separators false position rest).length) (maxArguments - 1)
  argument : ∀ index start chars, (runs separators false position rest)[index]? = some (start, chars) →
    argc + index < maxArguments - 1 → result.argv (argc + index) = some start ∧ Terminated result.memory start chars
  kept : ∀ index, index < argc ∨ maxArguments - 1 < index → result.argv index = argv index
  returned : result.returned = if argc + (runs separators false position rest).length ≤ maxArguments - 1 then 1 else 0
  final : result.returned = 1 → result.argv result.argc = none
  cleared : result.returned = 1 → ∀ index, result.memory index =
    if position ≤ index ∧ index < position + rest.length ∧ separates separators (memory index) then 0 else memory index
  others : ∀ index, result.memory index = memory index ∨
    position ≤ index ∧ index < position + rest.length ∧ separates separators (memory index) ∧ result.memory index = 0
  leading : ∀ char more, rest = char :: more → separates separators char → result.memory position = 0

section Round

variable {argv : Nat → Option Nat} {argc : Nat} {result : Arguments}

/-- The bytes in front of the first run are separators, and become 0. -/
structure Trimmed (separators : List (BitVec 8)) (memory : Bytes) (position : Nat) (rest : List (BitVec 8))
    (next : Bytes) (start : Nat) (left : List (BitVec 8)) : Prop where
  same : runs separators false position rest = runs separators false start left
  order : position ≤ start
  length : start + left.length = position + rest.length
  zeroed : ∀ index, next index = if position ≤ index ∧ index < start then 0 else memory index
  skipped : ∀ index, position ≤ index → index < start → separates separators (memory index)
  terminated : Terminated next start left
  other : ∀ char more, left = char :: more → separates separators char = false
  leading : ∀ char more, rest = char :: more → separates separators char → position < start

theorem trimLoop_trims {fuel : Nat} (terminated : Terminated memory position rest) (enough : rest.length < fuel) :
    ∃ next start left, trimLoop separators fuel memory position = some (next, start) ∧
      Trimmed separators memory position rest next start left := by
  obtain ⟨next, returned, cleared⟩ := trimLoop_spec separators rest fuel memory position terminated enough
  have parts : rest.takeWhile (separates separators) ++ rest.dropWhile (separates separators) = rest :=
    List.takeWhile_append_dropWhile
  refine ⟨next, _, rest.dropWhile (separates separators), returned, {
    same := runs_trim separators rest position
    order := Nat.le_add_right ..
    length := ?_
    zeroed := cleared
    skipped := ?_
    terminated := ?_
    other := ?_
    leading := ?_ }⟩
  · rw [Nat.add_assoc, ← List.length_append, parts]
  · intro index lower upper
    obtain ⟨offset, rfl⟩ := Nat.exists_eq_add_of_le lower
    have inside := Nat.lt_of_add_lt_add_left upper
    rw [← parts] at terminated
    rw [(Stored.append_iff.1 terminated.stored).1.get inside]
    exact List.all_eq_true.1 List.all_takeWhile _ (List.getElem_mem inside)
  · rw [← parts] at terminated
    apply terminated.behind.frame
    intro index lower _
    rw [cleared, if_neg (by omega)]
  · intro char more found
    have head := List.head?_dropWhile_not (separates separators) rest
    rw [found] at head
    simpa using head
  · rintro char more rfl separator
    rw [List.takeWhile_cons_of_pos separator, List.length_cons]
    exact Nat.lt_add_of_pos_right (Nat.zero_lt_succ _)

/-- A run is scanned: what is true of the string behind it is true of all of it. -/
theorem Splits.of_behind {start : Nat} {left : List (BitVec 8)}
    (trimmed : Trimmed separators memory position rest next start (char :: left)) (few : argc < maxArguments - 1)
    (behind : Splits separators next (start + (run separators (char :: left)).length) (afterRun separators (char :: left))
      (Function.update argv argc (some start)) (argc + 1) result) :
    Splits separators memory position rest argv argc result := by
  have other := trimmed.other char left rfl
  have found : runs separators false position rest = (start, run separators (char :: left)) ::
      runs separators false (start + (run separators (char :: left)).length) (afterRun separators (char :: left)) :=
    trimmed.same.trans (runs_cons separators other left start)
  have positive : 0 < (run separators (char :: left)).length := by
    rw [(run_of_other separators other left).1]
    exact Nat.zero_lt_succ _
  have parts := run_append separators (char :: left)
  have length := congrArg List.length parts
  rw [List.length_append] at length
  have total := trimmed.length
  have order := trimmed.order
  have terminated := trimmed.terminated
  have unchanged (index : Nat) (lower : start ≤ index) : next index = memory index := by
    rw [trimmed.zeroed, if_neg fun before => Nat.not_lt.2 lower before.2]
  have inRun (index : Nat) (lower : start ≤ index) (upper : index < start + (run separators (char :: left)).length) :
      separates separators (memory index) = false := by
    obtain ⟨offset, rfl⟩ := Nat.exists_eq_add_of_le lower
    have inside := Nat.lt_of_add_lt_add_left upper
    rw [← parts] at terminated
    rw [← unchanged _ lower, (Stored.append_iff.1 terminated.stored).1.get inside]
    have all := List.all_eq_true.1 List.all_takeWhile _ (List.getElem_mem inside)
    exact Bool.not_eq_true' _ ▸ all
  have first : Terminated result.memory start (run separators (char :: left)) := by
    constructor
    · rw [← parts] at terminated
      apply (Stored.append_iff.1 terminated.stored).1.frame
      intro index _ upper
      cases behind.others index with
      | inl same => exact same
      | inr later => exact absurd later.1 (Nat.not_le.2 upper)
    · cases after : afterRun separators (char :: left) with
      | nil =>
          rw [after, List.length_nil, Nat.add_zero] at length
          have ends := terminated.ends
          rw [← length] at ends
          cases behind.others (start + (run separators (char :: left)).length) with
          | inl same => exact same.trans ends
          | inr zero => exact zero.2.2.2
      | cons separator more => exact behind.leading separator more after (separates_afterRun after)
    · intro other member
      apply terminated.nonzero other
      rw [← parts]
      exact List.mem_append_left _ member
  constructor
  · rw [behind.count, found, List.length_cons, Nat.add_assoc, Nat.add_comm 1]
  · intro index place chars entry room
    rw [found] at entry
    cases index with
    | zero =>
        cases entry
        exact ⟨(behind.kept argc (.inl (Nat.lt_succ_self argc))).trans (Function.update_self ..), first⟩
    | succ index =>
        have shifted : argc + (index + 1) = argc + 1 + index := by omega
        rw [shifted] at room ⊢
        exact behind.argument index place chars entry room
  · intro index apart
    have different : index ≠ argc := by omega
    rw [behind.kept index (by omega), Function.update_of_ne different]
  · rw [behind.returned, found, List.length_cons, Nat.add_assoc, Nat.add_comm 1]
  · exact behind.final
  · intro one index
    rw [behind.cleared one index]
    rcases Nat.lt_or_ge index start with before | atLeast
    · rw [if_neg (by omega), trimmed.zeroed]
      apply if_congr _ rfl rfl
      constructor
      · exact fun within => ⟨within.1, by omega, trimmed.skipped index within.1 before⟩
      · exact fun within => ⟨within.1, before⟩
    · rw [unchanged index atLeast]
      rcases Nat.lt_or_ge index (start + (run separators (char :: left)).length) with inside | later
      · rw [inRun index atLeast inside, if_neg (by omega), if_neg fun within => Bool.false_ne_true within.2.2]
      · exact if_congr (by rw [← and_assoc, ← and_assoc]; exact and_congr_left' (by omega)) rfl rfl
  · intro index
    rcases Nat.lt_or_ge index start with before | atLeast
    · have same : result.memory index = next index := by
        cases behind.others index with
        | inl same => exact same
        | inr later => exact absurd later.1 (by omega)
      rw [same, trimmed.zeroed]
      split
      · next within => exact .inr ⟨within.1, by omega, trimmed.skipped index within.1 before, rfl⟩
      · exact .inl rfl
    · rw [← unchanged index atLeast]
      cases behind.others index with
      | inl same => exact .inl same
      | inr later => exact .inr ⟨by omega, by omega, later.2.2⟩
  · intro first more same separator
    have before := trimmed.leading first more same separator
    have zero : next position = 0 := by rw [trimmed.zeroed, if_pos ⟨Nat.le_refl _, before⟩]
    cases behind.others position with
    | inl same => exact same.trans zero
    | inr later => exact later.2.2.2

/-- There is no run left. -/
theorem Splits.of_end {start : Nat} (trimmed : Trimmed separators memory position rest next start [])
    (few : argc ≤ maxArguments - 1) :
    Splits separators memory position rest argv argc ⟨next, Function.update argv argc none, argc, 1⟩ := by
  have found : runs separators false position rest = [] := trimmed.same
  have total := trimmed.length
  rw [List.length_nil, Nat.add_zero] at total
  have zeroed (index : Nat) : next index =
      if position ≤ index ∧ index < position + rest.length ∧ separates separators (memory index) then 0
      else memory index := by
    rw [trimmed.zeroed, total]
    apply if_congr _ rfl rfl
    constructor
    · exact fun within => ⟨within.1, within.2, trimmed.skipped index within.1 (total ▸ within.2)⟩
    · exact fun within => ⟨within.1, within.2.1⟩
  constructor
  · rw [found, List.length_nil, Nat.add_zero, Nat.min_eq_left few]
  · intro index start chars entry _
    rw [found] at entry
    cases entry
  · intro index apart
    exact Function.update_of_ne (by omega) ..
  · rw [found, List.length_nil, Nat.add_zero, if_pos few]
  · exact fun _ => Function.update_self ..
  · exact fun _ => zeroed
  · intro index
    dsimp only
    rw [zeroed index]
    split
    · next within => exact .inr ⟨within.1, within.2.1, within.2.2, rfl⟩
    · exact .inl rfl
  · intro first more same separator
    have before := trimmed.leading first more same separator
    exact (trimmed.zeroed position).trans (if_pos ⟨Nat.le_refl _, before⟩)

/-- There is a run left, and no place for it. -/
theorem Splits.of_full {start : Nat} {left : List (BitVec 8)}
    (trimmed : Trimmed separators memory position rest next start (char :: left)) (full : argc = maxArguments - 1) :
    Splits separators memory position rest argv argc ⟨next, argv, argc, 0⟩ := by
  have found := trimmed.same.trans (runs_cons separators (trimmed.other char left rfl) left start)
  have total := trimmed.length
  constructor
  · rw [full]
    exact (Nat.min_eq_right (Nat.le_add_right ..)).symm
  · intro index place chars _ room
    omega
  · exact fun _ _ => rfl
  · rw [found, List.length_cons, if_neg (by omega)]
  · exact fun one => absurd one Nat.zero_ne_one
  · exact fun one => absurd one Nat.zero_ne_one
  · intro index
    dsimp only
    rw [trimmed.zeroed]
    split
    · next within => exact .inr ⟨within.1, by omega, trimmed.skipped index within.1 within.2, rfl⟩
    · exact .inl rfl
  · intro first more same separator
    have before := trimmed.leading first more same separator
    exact (trimmed.zeroed position).trans (if_pos ⟨Nat.le_refl _, before⟩)

end Round

theorem splitLoop_spec (separators : List (BitVec 8)) (fuel : Nat) :
    ∀ memory position rest argv argc, Terminated memory position rest →
    rest.length < fuel → argc ≤ maxArguments - 1 → ∃ result,
      splitLoop separators fuel memory position argv argc = some result ∧
        Splits separators memory position rest argv argc result := by
  induction fuel with
  | zero => exact fun _ _ _ _ _ _ enough => absurd enough (Nat.not_lt_zero _)
  | succ fuel ih =>
      intro memory position rest argv argc terminated enough few
      obtain ⟨next, start, left, returned, trimmed⟩ := trimLoop_trims terminated enough
      have step : splitLoop separators (fuel + 1) memory position argv argc =
          if next start = 0 then some ⟨next, Function.update argv argc none, argc, 1⟩
          else if argc = maxArguments - 1 then some ⟨next, argv, argc, 0⟩
          else (scanLoop separators next (fuel + 1) start).bind fun string =>
            splitLoop separators fuel next string (Function.update argv argc (some start)) (argc + 1) := by
        rw [splitLoop, returned]
        rfl
      rw [step]
      cases left with
      | nil =>
          have ends : next start = 0 := trimmed.terminated.ends
          rw [if_pos ends]
          exact ⟨_, rfl, .of_end trimmed few⟩
      | cons char left =>
          have here : next start = char := trimmed.terminated.stored.1
          have nonzero := trimmed.terminated.nonzero char (List.mem_cons_self ..)
          rw [if_neg (here ▸ nonzero)]
          split
          · next full => exact ⟨_, rfl, .of_full trimmed full⟩
          · next room =>
              have total := trimmed.length
              have order := trimmed.order
              rw [scanLoop_spec _ _ _ trimmed.terminated (by omega), Option.bind_some]
              have parts := run_append separators (char :: left)
              have behind := trimmed.terminated
              rw [← parts] at behind
              have shorter := congrArg List.length parts
              rw [List.length_append, (run_of_other separators (trimmed.other char left rfl) left).1, List.length_cons] at shorter
              obtain ⟨result, split, splits⟩ := ih next _ _ (Function.update argv argc (some start)) (argc + 1)
                behind.behind (by omega) (by omega)
              exact ⟨result, split, .of_behind trimmed (by omega) splits⟩

/-- The arguments are the first runs of the string, as many as there is room for. All are there
exactly if 1 is returned, and then the separators and nothing else became 0. -/
structure SplitsExactly (separators : List (BitVec 8)) (memory : Bytes) (string : Nat) (chars : List (BitVec 8))
    (argv : Nat → Option Nat) (result : Arguments) : Prop where
  argc : result.argc = min (runs separators false string chars).length (maxArguments - 1)
  arguments : ∀ index start run, (runs separators false string chars)[index]? = some (start, run) → index < result.argc →
    result.argv index = some start ∧ Terminated result.memory start run
  returned : result.returned = if (runs separators false string chars).length ≤ maxArguments - 1 then 1 else 0
  final : result.returned = 1 → result.argv result.argc = none
  overwritten : result.returned = 1 → ∀ index, result.memory index =
    if string ≤ index ∧ index < string + chars.length ∧ separates separators (memory index) then 0 else memory index
  argvKept : ∀ index, maxArguments - 1 < index → result.argv index = argv index
  memoryKept : ∀ index, index < string ∨ string + chars.length ≤ index → result.memory index = memory index

theorem strsplit_splits {string : Nat} {chars splitChars : List (BitVec 8)} (argv : Nat → Option Nat)
    (terminated : Terminated memory string chars) (enough : chars.length < fuel) :
    ∃ result, strsplit fuel memory string splitChars argv = some result ∧
      SplitsExactly splitChars memory string chars argv result := by
  obtain ⟨result, returned, splits⟩ := splitLoop_spec splitChars fuel memory string chars
    (Function.update argv 0 none) 0 terminated enough (Nat.zero_le _)
  have count := splits.count
  rw [Nat.zero_add] at count
  refine ⟨result, returned, {
    argc := count
    arguments := ?_
    returned := ?_
    final := splits.final
    overwritten := splits.cleared
    argvKept := ?_
    memoryKept := ?_ }⟩
  · intro index start run entry inArguments
    have argument := splits.argument index start run entry (by omega)
    rw [Nat.zero_add] at argument
    exact argument
  · rw [splits.returned, Nat.zero_add]
  · intro index beyond
    rw [splits.kept index (.inr beyond), Function.update_of_ne (Nat.ne_zero_of_lt beyond)]
  · intro index outside
    cases splits.others index with
    | inl same => exact same
    | inr within => exact absurd within.1 (by omega)

/-- The command line of a program with two arguments, with blanks around them. -/
private def commandLine : List (BitVec 8) := [32, 114, 117, 110, 32, 32, 120, 32]

private def commandMemory : Bytes := fun index => commandLine.getD index 0

private theorem commandMemory_terminated : Terminated commandMemory 0 commandLine where
  stored := by simp only [commandLine, Stored]; decide
  ends := rfl
  nonzero := by decide

theorem strsplit_splits_run : ∃ result, strsplit 9 commandMemory 0 [32, 9] (fun _ => none) = some result ∧
    SplitsExactly [32, 9] commandMemory 0 commandLine (fun _ => none) result :=
  strsplit_splits _ commandMemory_terminated (by decide)

example : runs [32, 9] false 0 commandLine = [(1, [114, 117, 110]), (6, [120])] := by decide

end Fos.Library
