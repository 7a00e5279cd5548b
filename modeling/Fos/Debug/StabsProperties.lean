import Fos.Debug.Stabs

/-! When `stab_binsearch` finds the enclosing entry. -/

set_option autoImplicit false

namespace Fos.Debug

variable {stabs : Int → Stab} {type left right : Int} {addr : BitVec 32} {search next final : Search}

/-! ### Scans and rounds -/

/-- How far a scan goes down. -/
structure Scanned (stabs : Int → Stab) (type l m found : Int) : Prop where
  le : found ≤ m
  gap : ∀ n, found < n → n ≤ m → matchesType stabs type n = false
  stops : found < l ∨ matchesType stabs type found
  lower : l - 1 ≤ m → l - 1 ≤ found

theorem scanDown_spec (l : Int) (rounds : Nat) : ∀ m, m - l + 1 ≤ rounds →
    Scanned stabs type l m (scanDown stabs type l rounds m) := by
  induction rounds with
  | zero =>
      intro m few
      exact ⟨Int.le_refl m, fun n lower upper => absurd lower (Int.not_lt.2 upper), .inl (by rw [scanDown]; omega), id⟩
  | succ rounds ih =>
      intro m few
      rw [scanDown]
      split
      · next goes =>
          obtain ⟨le, gap, stops, lower⟩ := ih (m - 1) (by omega)
          refine ⟨by omega, fun n above upper => ?_, stops, fun _ => lower (by omega)⟩
          cases Int.lt_or_le n m with
          | inl below => exact gap n above (by omega)
          | inr last =>
              obtain rfl : n = m := Int.le_antisymm upper last
              exact (Bool.not_eq_true _).mp goes.2
      · next stops =>
          refine ⟨Int.le_refl m, fun n lower upper => absurd lower (Int.not_lt.2 upper), ?_, id⟩
          cases Int.lt_or_le m l with
          | inl below => exact .inl below
          | inr atLeast => exact .inr (not_not.1 fun other => stops ⟨atLeast, other⟩)

theorem earliest_spec (stabs : Int → Stab) (type l m : Int) : Scanned stabs type l m (earliest stabs type l m) :=
  scanDown_spec l _ m (by omega)

/-- The search comes to an end. -/
def Ends (stabs : Int → Stab) (type : Int) (search final : Search) : Prop :=
  ∃ fuel, searchLoop stabs type fuel search = some final

theorem ends_iff_of_le (more : search.l ≤ search.r) :
    Ends stabs type search final ↔ ∃ next, searchStep stabs type search = some next ∧ Ends stabs type next final := by
  constructor
  · rintro ⟨fuel, ends⟩
    cases fuel with
    | zero => cases ends
    | succ fuel =>
        rw [searchLoop, if_pos more] at ends
        obtain ⟨next, stepped, rest⟩ := Option.bind_eq_some_iff.1 ends
        exact ⟨next, stepped, fuel, rest⟩
  · rintro ⟨next, stepped, fuel, rest⟩
    refine ⟨fuel + 1, ?_⟩
    rw [searchLoop, if_pos more, stepped]
    exact rest

theorem ends_iff_of_lt (crossed : search.r < search.l) : Ends stabs type search final ↔ final = search := by
  constructor
  · rintro ⟨fuel, ends⟩
    cases fuel with
    | zero => cases ends
    | succ fuel =>
        rw [searchLoop, if_neg (Int.not_le.2 crossed)] at ends
        exact (Option.some.inj ends).symm
  · rintro rfl
    exact ⟨1, if_neg (Int.not_le.2 crossed)⟩

/-- What one round may do. -/
inductive Probed (stabs : Int → Stab) (type : Int) (search : Search) : Option Search → Prop where
  | skip (trueM : Int) (lower : search.l ≤ trueM) (upper : trueM ≤ search.r)
      (gap : ∀ n, search.l ≤ n → n ≤ trueM → matchesType stabs type n = false) :
      Probed stabs type search (some { search with l := trueM + 1 })
  | less (trueM m : Int) (lower : search.l ≤ m) (le : m ≤ trueM) (upper : trueM ≤ search.r)
      (ofType : matchesType stabs type m) (gap : ∀ n, m < n → n ≤ trueM → matchesType stabs type n = false)
      (value : (stabs m).nValue < search.addr) :
      Probed stabs type search (some { search with anyMatches := true, regionLeft := m, l := trueM + 1 })
  | greater (m : Int) (lower : search.l ≤ m) (upper : m ≤ search.r) (ofType : matchesType stabs type m)
      (value : search.addr < (stabs m).nValue) :
      Probed stabs type search (some { search with anyMatches := true, regionRight := m - 1, r := m - 1 })
  | exact (m : Int) (lower : search.l ≤ m) (upper : m ≤ search.r) (ofType : matchesType stabs type m)
      (value : (stabs m).nValue = search.addr) (room : search.addr.toNat + 4 < wordSize) :
      Probed stabs type search
        (some { search with anyMatches := true, regionLeft := m, l := m, addr := search.addr + 4 })
  | overflow (m : Int) (lower : search.l ≤ m) (upper : m ≤ search.r) (ofType : matchesType stabs type m)
      (value : (stabs m).nValue = search.addr) : Probed stabs type search none

theorem searchStep_probed (stabs : Int → Stab) (type : Int) (more : search.l ≤ search.r) :
    Probed stabs type search (searchStep stabs type search) := by
  have scanned := earliest_spec stabs type search.l ((search.l + search.r) / 2)
  have lower : search.l ≤ (search.l + search.r) / 2 := by omega
  have upper : (search.l + search.r) / 2 ≤ search.r := by omega
  unfold searchStep
  dsimp only
  generalize (search.l + search.r) / 2 = trueM at scanned lower upper ⊢
  generalize earliest stabs type search.l trueM = m at scanned ⊢
  split
  · next none => exact .skip trueM lower upper fun n above => scanned.gap n (by omega)
  · next found =>
      have atLeast := Int.not_lt.1 found
      have ofType := scanned.stops.resolve_left found
      have below := Int.le_trans scanned.le upper
      split
      · next less => exact .less trueM m atLeast scanned.le upper ofType scanned.gap less
      · next notLess =>
          split
          · next greater => exact .greater m atLeast below ofType greater
          · next notGreater =>
              have same := BitVec.le_antisymm (BitVec.not_lt.1 notGreater) (BitVec.not_lt.1 notLess)
              split
              · next room => exact .exact m atLeast below ofType same room
              · exact .overflow m atLeast below ofType same

/-! ### Searches without an exact match -/

section Sweep

variable (stabs type left right) in
/-- Around the place looked for: the entries in front of the window are not behind the address, and
the one after the window is. -/
structure Brackets (addr : BitVec 32) (search : Search) : Prop where
  lower : left ≤ search.l
  same : search.regionRight = search.r
  low : ∀ n, Entry stabs type left right n → n < search.l → (stabs n).nValue ≤ addr
  high : search.r = right ∨ Entry stabs type left right (search.r + 1) ∧ addr < (stabs (search.r + 1)).nValue
  region : search.regionLeft = left ∨
    Entry stabs type left right search.regionLeft ∧ (stabs search.regionLeft).nValue ≤ addr
  matched : search.anyMatches = true → ∃ n, Entry stabs type left right n
  unmatched : search.anyMatches = false →
    search.regionLeft = left ∧ search.r = right ∧ ∀ n, Entry stabs type left right n → search.l ≤ n

variable (stabs type left right) in
/-- For the entries in the window the address of the search says the same, and none of them is hit. -/
def Agrees (addr : BitVec 32) (search : Search) : Prop :=
  ∀ n, Entry stabs type left right n → search.l ≤ n → n ≤ search.r →
    ((stabs n).nValue < search.addr ∧ (stabs n).nValue ≤ addr) ∨
      (search.addr < (stabs n).nValue ∧ addr < (stabs n).nValue)

theorem Brackets.le_right (brackets : Brackets stabs type left right addr search) : search.r ≤ right := by
  cases brackets.high with
  | inl last => exact Int.le_of_eq last
  | inr next => exact Int.le_of_lt (Int.lt_of_add_one_le next.1.upper)

/-- What agrees for a window agrees for a smaller one. -/
theorem Agrees.shrink (agrees : Agrees stabs type left right addr search) (sameAddr : next.addr = search.addr)
    (lower : search.l ≤ next.l) (upper : next.r ≤ search.r) : Agrees stabs type left right addr next := by
  intro n entry above below
  rw [sameAddr]
  exact agrees n entry (Int.le_trans lower above) (Int.le_trans below upper)

/-- Entries up to one that is not behind the address are not behind it. -/
theorem Increasing.low {m n : Int} (increasing : Increasing stabs type left right) (entry : Entry stabs type left right m)
    (other : Entry stabs type left right n) (order : n ≤ m) (low : (stabs m).nValue ≤ addr) : (stabs n).nValue ≤ addr := by
  cases Int.lt_or_eq_of_le order with
  | inl before => exact BitVec.le_trans (BitVec.le_of_lt (increasing n m other entry before)) low
  | inr same => exact same ▸ low

theorem Brackets.step (increasing : Increasing stabs type left right) (more : search.l ≤ search.r)
    (brackets : Brackets stabs type left right addr search) (agrees : Agrees stabs type left right addr search) :
    ∃ next, searchStep stabs type search = some next ∧ Brackets stabs type left right addr next ∧
      Agrees stabs type left right addr next ∧ next.r - next.l < search.r - search.l := by
  have inRange {m : Int} (lower : search.l ≤ m) (upper : m ≤ search.r) (ofType : matchesType stabs type m) :
      Entry stabs type left right m :=
    ⟨Int.le_trans brackets.lower lower, Int.le_trans upper brackets.le_right, ofType⟩
  have notHit {m : Int} (lower : search.l ≤ m) (upper : m ≤ search.r) (ofType : matchesType stabs type m) :
      (stabs m).nValue ≠ search.addr := by
    intro hit
    cases agrees m (inRange lower upper ofType) lower upper with
    | inl less => exact BitVec.lt_irrefl _ (hit ▸ less.1)
    | inr greater => exact BitVec.lt_irrefl _ (hit ▸ greater.1)
  have probed := searchStep_probed stabs type more
  generalize searchStep stabs type search = result at probed ⊢
  cases probed with
  | skip trueM lower upper gap =>
      refine ⟨_, rfl, { brackets with
        lower := by have := brackets.lower; dsimp only; omega
        low := fun n entry below => ?_
        unmatched := fun none => ?_ }, agrees.shrink rfl (by dsimp only; omega) (Int.le_refl _), by dsimp only; omega⟩
      · cases Int.lt_or_le n search.l with
        | inl before => exact brackets.low n entry before
        | inr inside => exact absurd entry.ofType (by rw [gap n inside (Int.le_of_lt_add_one below)]; exact Bool.false_ne_true)
      · obtain ⟨region, all, ahead⟩ := brackets.unmatched none
        refine ⟨region, all, fun n entry => ?_⟩
        cases Int.lt_or_le trueM n with
        | inl behind => exact behind
        | inr inside =>
            exact absurd entry.ofType (by rw [gap n (ahead n entry) inside]; exact Bool.false_ne_true)
  | less trueM m lower le upper ofType gap value =>
      have entry := inRange lower (Int.le_trans le upper) ofType
      have low : (stabs m).nValue ≤ addr := by
        cases agrees m entry lower (Int.le_trans le upper) with
        | inl less => exact less.2
        | inr greater => exact absurd value (BitVec.lt_asymm greater.1)
      refine ⟨_, rfl, { brackets with
        lower := by have := brackets.lower; dsimp only; omega
        low := fun n other below => ?_
        region := .inr ⟨entry, low⟩
        matched := fun _ => ⟨m, entry⟩
        unmatched := fun none => nomatch none }, agrees.shrink rfl (by dsimp only; omega) (Int.le_refl _),
        by dsimp only; omega⟩
      cases Int.lt_or_le m n with
      | inl behind =>
          exact absurd other.ofType (by rw [gap n behind (Int.le_of_lt_add_one below)]; exact Bool.false_ne_true)
      | inr order => exact increasing.low entry other order low
  | greater m lower upper ofType value =>
      have entry := inRange lower upper ofType
      have high : addr < (stabs m).nValue := by
        cases agrees m entry lower upper with
        | inl less => exact absurd value (BitVec.lt_asymm less.1)
        | inr greater => exact greater.2
      have restored : m - 1 + 1 = m := by omega
      exact ⟨_, rfl, { brackets with
        same := rfl
        high := .inr (by dsimp only; rw [restored]; exact ⟨entry, high⟩)
        matched := fun _ => ⟨m, entry⟩
        unmatched := fun none => nomatch none }, agrees.shrink rfl (Int.le_refl _) (by dsimp only; omega),
        by dsimp only; omega⟩
  | exact m lower upper ofType value room => exact absurd value (notHit lower upper ofType)
  | overflow m lower upper ofType value => exact absurd value (notHit lower upper ofType)

/-- A search without an exact match ends. -/
theorem Brackets.ends (increasing : Increasing stabs type left right) (size : Nat) : ∀ search : Search,
    search.r - search.l < size → Brackets stabs type left right addr search → Agrees stabs type left right addr search →
    ∃ final, Ends stabs type search final ∧ Brackets stabs type left right addr final ∧ final.r < final.l := by
  induction size with
  | zero =>
      intro search small brackets agrees
      have crossed : search.r < search.l := by omega
      exact ⟨search, (ends_iff_of_lt crossed).2 rfl, brackets, crossed⟩
  | succ size ih =>
      intro search small brackets agrees
      cases Int.lt_or_le search.r search.l with
      | inl crossed => exact ⟨search, (ends_iff_of_lt crossed).2 rfl, brackets, crossed⟩
      | inr more =>
          obtain ⟨next, stepped, kept, stillAgrees, shorter⟩ := brackets.step increasing more agrees
          obtain ⟨final, ends, result⟩ := ih next (by omega) kept stillAgrees
          exact ⟨final, (ends_iff_of_le more).2 ⟨next, stepped, ends⟩, result⟩

theorem Brackets.initial : Brackets stabs type left right addr ⟨left, right, left, right, false, addr⟩ where
  lower := Int.le_refl left
  same := rfl
  low _ entry before := absurd entry.lower (Int.not_le.2 before)
  high := .inl rfl
  region := .inl rfl
  matched impossible := nomatch impossible
  unmatched _ := ⟨rfl, rfl, fun _ entry => entry.lower⟩

/-- What the last loop does when something was found. -/
theorem finish_matched (stabs : Int → Stab) (type : Int) (matched : search.anyMatches = true) :
    Scanned stabs type (search.regionLeft + 1) search.regionRight (finish stabs type search).1 ∧
      (finish stabs type search).2 = search.regionRight := by
  rw [finish, if_pos matched]
  exact ⟨scanDown_spec _ _ _ (by omega), rfl⟩

theorem Brackets.finish_none (brackets : Brackets stabs type left right addr final)
    (none : ∀ n, ¬ Entry stabs type left right n) : (finish stabs type final).1 > (finish stabs type final).2 := by
  have unmatched : final.anyMatches = false := by
    apply Bool.eq_false_of_not_eq_true
    intro matched
    obtain ⟨n, entry⟩ := brackets.matched matched
    exact none n entry
  rw [finish, unmatched]
  exact Int.sub_one_lt_of_le (Int.le_refl _)

theorem Brackets.finish_enclosing {m : Int} (brackets : Brackets stabs type left right addr final)
    (crossed : final.r < final.l) (increasing : Increasing stabs type left right)
    (enclosing : IsEnclosing stabs type left right addr m) :
    (finish stabs type final).1 = m ∧ IsEnd stabs type left right m (finish stabs type final).2 := by
  have entry := enclosing.entry
  have matched : final.anyMatches = true := by
    apply Bool.eq_true_of_not_eq_false
    intro unmatched
    obtain ⟨-, all, ahead⟩ := brackets.unmatched unmatched
    have later := ahead m entry
    have inside := entry.upper
    omega
  obtain ⟨scanned, last⟩ := finish_matched stabs type matched
  rw [last]
  rw [brackets.same] at scanned ⊢
  generalize (finish stabs type final).1 = found at scanned ⊢
  have inside : m ≤ final.r := by
    cases brackets.high with
    | inl all => exact all ▸ entry.upper
    | inr next =>
        apply Int.not_lt.1
        intro before
        have low := increasing.low entry next.1 (by omega) enclosing.notBehind
        exact BitVec.not_lt.2 low next.2
  have region : final.regionLeft ≤ m := by
    cases brackets.region with
    | inl start => exact start ▸ entry.lower
    | inr hit => exact enclosing.last _ hit.1 hit.2
  have atLeast : m ≤ found := by
    apply Int.not_lt.1
    intro before
    exact absurd entry.ofType (by rw [scanned.gap m before inside]; exact Bool.false_ne_true)
  have start := scanned.lower (by omega)
  refine ⟨?_, inside, ?_, ?_⟩
  · cases scanned.stops with
    | inl reached => omega
    | inr ofType =>
        cases Int.lt_or_eq_of_le start with
        | inl above =>
            have first : left ≤ final.regionLeft := by
              cases brackets.region with
              | inl start => exact Int.le_of_eq start.symm
              | inr hit => exact hit.1.lower
            have le := scanned.le
            have upper := brackets.le_right
            have other : Entry stabs type left right found := ⟨by omega, by omega, ofType⟩
            exact Int.le_antisymm (enclosing.last found other (brackets.low found other (by omega))) atLeast
        | inr same => omega
  · intro n other behind
    apply Int.not_le.1
    intro within
    exact absurd (enclosing.last n other (brackets.low n other (by omega))) (Int.not_le.2 behind)
  · exact brackets.high.imp_right And.left

end Sweep

/-! ### Searches with an exact match -/

theorem Ends.unique {other : Search} (ends : Ends stabs type search final) (others : Ends stabs type search other) :
    final = other := by
  obtain ⟨fuel, ends⟩ := ends
  induction fuel generalizing search with
  | zero => cases ends
  | succ fuel ih =>
      rw [searchLoop] at ends
      split at ends
      · next more =>
          obtain ⟨next, stepped, rest⟩ := Option.bind_eq_some_iff.1 ends
          obtain ⟨same, steppedSame, restOthers⟩ := (ends_iff_of_le more).1 others
          cases stepped.symm.trans steppedSame
          exact ih restOthers rest
      · next crossed =>
          cases ends
          exact ((ends_iff_of_lt (Int.not_le.1 crossed)).1 others).symm

/-- The search comes to an exact match with the window it has then. -/
theorem ends_hit {m : Int} (increasing : Increasing stabs type left right) (entry : Entry stabs type left right m)
    (final : Search) (rounds : Nat) : ∀ search : Search, search.r - search.l < rounds → left ≤ search.l → search.l ≤ m →
        m ≤ search.r →
    search.r ≤ right → search.regionRight = search.r → search.addr = (stabs m).nValue →
    (Ends stabs type search final ↔ search.addr.toNat + 4 < wordSize ∧ Ends stabs type
      ⟨m, windowEnd stabs type m rounds search.l search.r, m, windowEnd stabs type m rounds search.l search.r, true,
        search.addr + 4⟩ final) := by
  induction rounds with
  | zero =>
      intro search small _ lower upper
      omega
  | succ rounds ih =>
      intro search small start lower upper within same exactly
      have more := Int.le_trans lower upper
      have scanned := earliest_spec stabs type search.l ((search.l + search.r) / 2)
      have lowerM : search.l ≤ (search.l + search.r) / 2 := by omega
      have upperM : (search.l + search.r) / 2 ≤ search.r := by omega
      rw [ends_iff_of_le more, windowEnd, searchStep]
      generalize (search.l + search.r) / 2 = trueM at scanned lowerM upperM ⊢
      generalize earliest stabs type search.l trueM = found at scanned ⊢
      have le := scanned.le
      have inRange (atLeast : search.l ≤ found) : Entry stabs type left right found :=
        ⟨by omega, by omega, scanned.stops.resolve_left (Int.not_lt.2 atLeast)⟩
      rcases Int.lt_trichotomy found m with before | hit | behind
      · have further : trueM < m := by
          apply Int.not_le.1
          intro within
          exact absurd entry.ofType (by rw [scanned.gap m before within]; exact Bool.false_ne_true)
        rw [if_pos before]
        cases Int.lt_or_le found search.l with
        | inl none =>
            simp only [if_pos none, Option.some.injEq, exists_eq_left']
            exact ih { search with l := trueM + 1 } (by dsimp only; omega) (by dsimp only; omega) further upper within
              same exactly
        | inr atLeast =>
            have less : (stabs found).nValue < search.addr := exactly ▸ increasing found m (inRange atLeast) entry before
            simp only [if_neg (Int.not_lt.2 atLeast), if_pos less, Option.some.injEq, exists_eq_left']
            exact ih { search with anyMatches := true, regionLeft := found, l := trueM + 1 } (by dsimp only; omega)
              (by dsimp only; omega) further upper within same exactly
      · subst hit
        have atLeast : ¬ found < search.l := Int.not_lt.2 lower
        have notLess : ¬ (stabs found).nValue < search.addr := exactly ▸ BitVec.lt_irrefl _
        have notGreater : ¬ (stabs found).nValue > search.addr := exactly ▸ BitVec.lt_irrefl _
        rw [if_neg atLeast, if_neg notLess, if_neg notGreater, if_neg (Int.lt_irrefl _), if_neg (Int.lt_irrefl _), same]
        split
        · next room => simp only [Option.some.injEq, exists_eq_left', room, true_and]
        · next full => simp only [full, reduceCtorEq, false_and, exists_false]
      · have atLeast : search.l ≤ found := by omega
        have greater : (stabs found).nValue > search.addr := exactly ▸ increasing m found entry (inRange atLeast) behind
        have notLess : ¬ (stabs found).nValue < search.addr := BitVec.lt_asymm greater
        rw [if_neg (Int.lt_asymm behind), if_pos behind]
        simp only [if_neg (Int.not_lt.2 atLeast), if_neg notLess, if_pos greater, Option.some.injEq, exists_eq_left']
        exact ih { search with anyMatches := true, regionRight := found - 1, r := found - 1 } (by dsimp only; omega)
          start lower (by dsimp only; omega) (by dsimp only; omega) rfl exactly

theorem toNat_add_four (room : addr.toNat + 4 < wordSize) : (addr + 4).toNat = addr.toNat + 4 := by
  rw [BitVec.toNat_add]
  exact Nat.mod_eq_of_lt room

/-- The search has gone past an entry that is behind the address. -/
structure Past (stabs : Int → Stab) (type left right : Int) (near : Int) (search : Search) : Prop where
  lower : left ≤ search.l
  upper : search.r ≤ right
  behind : near ≤ search.r
  value : (stabs near).nValue ≤ search.addr
  matched : search.anyMatches = true
  same : search.regionRight = search.r

/-- Such a search ends behind that entry. -/
theorem Past.ends {near : Int} (increasing : Increasing stabs type left right) (entry : Entry stabs type left right near)
    (past : Past stabs type left right near search) (ends : Ends stabs type search final) :
    Past stabs type left right near final := by
  obtain ⟨fuel, ends⟩ := ends
  induction fuel generalizing search with
  | zero => cases ends
  | succ fuel ih =>
      rw [searchLoop] at ends
      split at ends
      · next more =>
          obtain ⟨next, stepped, rest⟩ := Option.bind_eq_some_iff.1 ends
          apply ih _ rest
          have lower := past.lower
          have upper := past.upper
          have probed := searchStep_probed stabs type more
          rw [stepped] at probed
          cases probed with
          | skip trueM below above gap => exact { past with lower := by dsimp only; omega }
          | less trueM m below le above ofType gap value =>
              exact { past with lower := by dsimp only; omega, matched := rfl }
          | greater m below above ofType value =>
              have other : Entry stabs type left right m := ⟨by omega, by omega, ofType⟩
              have order : near < m := by
                apply Int.not_le.1
                intro order
                exact BitVec.not_lt.2 (increasing.low entry other order past.value) value
              exact { past with
                upper := by dsimp only; omega
                behind := by dsimp only; omega
                matched := rfl
                same := rfl }
          | exact m below above ofType value room =>
              have further : (stabs near).nValue ≤ search.addr + 4 := by
                have before := past.value
                rw [BitVec.le_def] at before ⊢
                rw [toNat_add_four room]
                exact Nat.le_add_right_of_le before
              exact { past with
                lower := by dsimp only; omega
                value := further
                matched := rfl }
      · cases ends
        exact past

/-! ### When the enclosing entry is found -/

/-- There is a last entry that is not behind the address, if there is one at all. -/
theorem exists_enclosing {n : Int} (entry : Entry stabs type left right n) (low : (stabs n).nValue ≤ addr) :
    ∃ m, IsEnclosing stabs type left right addr m := by
  have search (rounds : Nat) : ∀ n, right - n < rounds → Entry stabs type left right n → (stabs n).nValue ≤ addr →
      ∃ m, IsEnclosing stabs type left right addr m := by
    induction rounds with
    | zero =>
        intro n near entry
        have upper := entry.upper
        omega
    | succ rounds ih =>
        intro n near entry low
        by_cases later : ∃ other, Entry stabs type left right other ∧ (stabs other).nValue ≤ addr ∧ n < other
        · obtain ⟨other, otherEntry, otherLow, order⟩ := later
          exact ih other (by omega) otherEntry otherLow
        · exact ⟨n, entry, low, fun other otherEntry otherLow => Int.not_lt.1 fun order =>
              later ⟨other, otherEntry, otherLow, order⟩⟩
  exact search (right - n + 1).toNat n (by omega) entry low

theorem findsEnclosing_iff_ends : FindsEnclosing stabs type left right addr ↔
    ∃ final, Ends stabs type ⟨left, right, left, right, false, addr⟩ final ∧
      ((∃ m, IsEnclosing stabs type left right addr m ∧ (finish stabs type final).1 = m ∧
        IsEnd stabs type left right m (finish stabs type final).2) ∨
      (∀ m, ¬ IsEnclosing stabs type left right addr m) ∧ (finish stabs type final).1 > (finish stabs type final).2) := by
  constructor
  · rintro ⟨fuel, first, last, found, good⟩
    obtain ⟨final, ends, result⟩ := Option.map_eq_some_iff.1 found
    rw [← Prod.mk.eta (p := finish stabs type final)] at result
    obtain ⟨rfl, rfl⟩ := Prod.mk.inj result
    exact ⟨final, ⟨fuel, ends⟩, good⟩
  · rintro ⟨final, ⟨fuel, ends⟩, good⟩
    exact ⟨fuel, _, _, congrArg (Option.map (finish stabs type)) ends, good⟩

theorem IsEnclosing.unique {m n : Int} (enclosing : IsEnclosing stabs type left right addr m)
    (other : IsEnclosing stabs type left right addr n) : n = m :=
  Int.le_antisymm (enclosing.last n other.entry other.notBehind) (other.last m enclosing.entry enclosing.notBehind)

/-- The window ends at the end of the range or in front of an entry. -/
theorem windowEnd_spec {m : Int} (entry : Entry stabs type left right m) (rounds : Nat) : ∀ l r, left ≤ l → l ≤ m → m ≤ r →
    (r = right ∨ Entry stabs type left right (r + 1)) →
    m ≤ windowEnd stabs type m rounds l r ∧
      (windowEnd stabs type m rounds l r = right ∨ Entry stabs type left right (windowEnd stabs type m rounds l r + 1)) := by
  induction rounds with
  | zero => exact fun l r _ _ upper bound => ⟨upper, bound⟩
  | succ rounds ih =>
      intro l r start lower upper bound
      have within : r ≤ right := by
        cases bound with
        | inl last => exact Int.le_of_eq last
        | inr next => exact Int.le_of_lt (Int.lt_of_add_one_le next.upper)
      have scanned := earliest_spec stabs type l ((l + r) / 2)
      have lowerM : l ≤ (l + r) / 2 := by omega
      have upperM : (l + r) / 2 ≤ r := by omega
      rw [windowEnd]
      generalize (l + r) / 2 = trueM at scanned lowerM upperM ⊢
      generalize earliest stabs type l trueM = found at scanned ⊢
      have le := scanned.le
      split
      · next before =>
          have further : trueM < m := by
            apply Int.not_le.1
            intro inside
            exact absurd entry.ofType (by rw [scanned.gap m before inside]; exact Bool.false_ne_true)
          exact ih (trueM + 1) r (by omega) further upper bound
      · split
        · next behind =>
            have ofType := scanned.stops.resolve_left (by omega)
            have other : Entry stabs type left right (found - 1 + 1) := by
              rw [Int.sub_add_cancel]
              exact ⟨by omega, by omega, ofType⟩
            exact ih l (found - 1) start lower (by omega) (.inr other)
        · exact ⟨upper, bound⟩

theorem findsEnclosing_of_agrees {m : Int} (increasing : Increasing stabs type left right)
    (enclosing : IsEnclosing stabs type left right addr m) (brackets : Brackets stabs type left right addr search)
    (agrees : Agrees stabs type left right addr search) :
    ∃ final, Ends stabs type search final ∧ (finish stabs type final).1 = m ∧
      IsEnd stabs type left right m (finish stabs type final).2 := by
  obtain ⟨final, ends, still, crossed⟩ :=
    brackets.ends increasing (search.r - search.l + 1).toNat search (by omega) agrees
  exact ⟨final, ends, still.finish_enclosing crossed increasing enclosing⟩

/-- After an exact match, the search goes on with the entries that are still in its window. -/
theorem ends_exactly {m : Int} (increasing : Increasing stabs type left right)
    (enclosing : IsEnclosing stabs type left right (stabs m).nValue m) :
    (∃ final, Ends stabs type ⟨left, right, left, right, false, (stabs m).nValue⟩ final ∧
      (finish stabs type final).1 = m ∧ IsEnd stabs type left right m (finish stabs type final).2) ↔
    (stabs m).nValue.toNat + 4 < wordSize ∧ ∀ n, Entry stabs type left right n → m < n →
      n ≤ windowEnd stabs type m (right - left + 1).toNat left right → (stabs m).nValue.toNat + 4 < (stabs n).nValue.toNat := by
  have entry := enclosing.entry
  have lower := entry.lower
  have upper := entry.upper
  have hit (final : Search) := ends_hit increasing entry final (right - left + 1).toNat
    ⟨left, right, left, right, false, (stabs m).nValue⟩ (by dsimp only; omega) (Int.le_refl left) lower upper
    (Int.le_refl right) rfl rfl
  obtain ⟨inside, bound⟩ := windowEnd_spec entry (right - left + 1).toNat left right (Int.le_refl left) lower upper (.inl rfl)
  generalize windowEnd stabs type m (right - left + 1).toNat left right = last at hit inside bound ⊢
  constructor
  · rintro ⟨final, ends, -, isEnd⟩
    obtain ⟨room, rest⟩ := (hit final).1 ends
    refine ⟨room, fun n other behind within => Nat.not_le.1 fun near => ?_⟩
    have past : Past stabs type left right n ⟨m, last, m, last, true, (stabs m).nValue + 4⟩ := {
      lower
      upper := by
        cases bound with
        | inl all => exact Int.le_of_eq all
        | inr next => exact Int.le_of_lt (Int.lt_of_add_one_le next.upper)
      behind := within
      value := by rw [BitVec.le_def, toNat_add_four room]; exact near
      matched := rfl
      same := rfl }
    have after := past.ends increasing other rest
    have between := isEnd.between n other behind
    rw [(finish_matched stabs type after.matched).2, after.same] at between
    exact Int.not_le.2 between after.behind
  · rintro ⟨room, clear⟩
    have brackets : Brackets stabs type left right (stabs m).nValue ⟨m, last, m, last, true, (stabs m).nValue + 4⟩ := {
      lower
      same := rfl
      low := fun n other before => BitVec.le_of_lt (increasing n m other entry before)
      high := bound.imp_right fun next => ⟨next, increasing m _ entry next (Int.lt_add_one_of_le inside)⟩
      region := .inr ⟨entry, BitVec.le_refl _⟩
      matched := fun _ => ⟨m, entry⟩
      unmatched := fun none => nomatch none }
    have agrees : Agrees stabs type left right (stabs m).nValue ⟨m, last, m, last, true, (stabs m).nValue + 4⟩ := by
      intro n other above within
      cases Int.lt_or_eq_of_le above with
      | inl behind =>
          refine .inr ⟨?_, increasing m n entry other behind⟩
          rw [BitVec.lt_def, toNat_add_four room]
          exact clear n other behind within
      | inr same =>
          cases same
          refine .inl ⟨?_, BitVec.le_refl _⟩
          rw [BitVec.lt_def, toNat_add_four room]
          exact Nat.lt_add_of_pos_right (by decide)
    obtain ⟨final, ends, good⟩ := findsEnclosing_of_agrees increasing enclosing brackets agrees
    exact ⟨final, (hit final).2 ⟨room, ends⟩, good⟩

/-- Without an enclosing entry the search ends as it should only if there are no entries at all. -/
theorem ends_none (increasing : Increasing stabs type left right) (none : ∀ m, ¬ IsEnclosing stabs type left right addr m) :
    (∃ final, Ends stabs type ⟨left, right, left, right, false, addr⟩ final ∧
      (finish stabs type final).1 > (finish stabs type final).2) ↔ ∀ m, ¬ Entry stabs type left right m := by
  have behind (n : Int) (entry : Entry stabs type left right n) : addr < (stabs n).nValue := by
    apply BitVec.not_le.1
    intro low
    obtain ⟨m, enclosing⟩ := exists_enclosing entry low
    exact none m enclosing
  have agrees : Agrees stabs type left right addr ⟨left, right, left, right, false, addr⟩ :=
    fun n entry _ _ => .inr ⟨behind n entry, behind n entry⟩
  obtain ⟨final, ends, brackets, crossed⟩ :=
    Brackets.initial.ends increasing (right - left + 1).toNat _ (by dsimp only; omega) agrees
  constructor
  · rintro ⟨other, otherEnds, greater⟩ m entry
    cases ends.unique otherEnds
    have matched : final.anyMatches = true := by
      apply Bool.eq_true_of_not_eq_false
      intro unmatched
      obtain ⟨-, all, ahead⟩ := brackets.unmatched unmatched
      have later := ahead m entry
      have inside := entry.upper
      omega
    obtain ⟨scanned, last⟩ := finish_matched stabs type matched
    rw [last] at greater
    exact Int.not_le.2 greater scanned.le
  · exact fun empty => ⟨final, ends, brackets.finish_none empty⟩

/-- The search finds the enclosing entry exactly if it can. -/
theorem findsEnclosing_iff (increasing : Increasing stabs type left right) :
    FindsEnclosing stabs type left right addr ↔ CanFind stabs type left right addr := by
  rw [findsEnclosing_iff_ends]
  by_cases found : ∃ m, IsEnclosing stabs type left right addr m
  · obtain ⟨m, enclosing⟩ := found
    have some : (∃ final, Ends stabs type ⟨left, right, left, right, false, addr⟩ final ∧
        (finish stabs type final).1 = m ∧ IsEnd stabs type left right m (finish stabs type final).2) ↔
        ((stabs m).nValue = addr → addr.toNat + 4 < wordSize ∧ ∀ n, Entry stabs type left right n → m < n →
          n ≤ windowEnd stabs type m (right - left + 1).toNat left right → addr.toNat + 4 < (stabs n).nValue.toNat) := by
      by_cases exactly : (stabs m).nValue = addr
      · subst exactly
        rw [ends_exactly increasing enclosing]
        exact ⟨fun room _ => room, fun room => room rfl⟩
      · apply iff_of_true _ fun same => absurd same exactly
        have less : (stabs m).nValue < addr :=
          Nat.lt_of_le_of_ne enclosing.notBehind fun same => exactly (BitVec.eq_of_toNat_eq same)
        apply findsEnclosing_of_agrees increasing enclosing .initial
        intro n other _ _
        cases Int.lt_or_le m n with
        | inl behind =>
            have greater := BitVec.not_le.1 fun notBehind => Int.not_le.2 behind (enclosing.last n other notBehind)
            exact .inr ⟨greater, greater⟩
        | inr order =>
            have low := increasing.low enclosing.entry other order (BitVec.le_refl _)
            exact .inl ⟨Nat.lt_of_le_of_lt low less, BitVec.le_trans low enclosing.notBehind⟩
    constructor
    · rintro ⟨final, ends, ⟨n, other, good⟩ | ⟨none, -⟩⟩
      · cases enclosing.unique other
        exact .inr ⟨m, enclosing, some.1 ⟨final, ends, good⟩⟩
      · exact absurd enclosing (none m)
    · rintro (empty | ⟨n, other, room⟩)
      · exact absurd enclosing.entry (empty m)
      · cases enclosing.unique other
        obtain ⟨final, ends, good⟩ := some.2 room
        exact ⟨final, ends, .inl ⟨m, enclosing, good⟩⟩
  · have none := not_exists.1 found
    have empty := ends_none increasing none
    constructor
    · rintro ⟨final, ends, ⟨m, enclosing, -⟩ | ⟨-, greater⟩⟩
      · exact absurd enclosing (none m)
      · exact .inl (empty.1 ⟨final, ends, greater⟩)
    · rintro (nothing | ⟨m, enclosing, -⟩)
      · obtain ⟨final, ends, greater⟩ := empty.2 nothing
        exact ⟨final, ends, .inr ⟨none, greater⟩⟩
      · exact absurd enclosing (none m)

/-- Two functions, the second one two bytes behind the first. -/
private def twoStabs (m : Int) : Stab := ⟨36, if m = 0 then 16 else 18⟩

private theorem twoStabs_increasing : Increasing twoStabs 36 0 1 := by
  intro m n entry other order
  obtain rfl : m = 0 := Int.le_antisymm (by have := other.upper; omega) entry.lower
  obtain rfl : n = 1 := Int.le_antisymm other.upper order
  decide

theorem findsEnclosing_iff_two : FindsEnclosing twoStabs 36 0 1 17 ↔ CanFind twoStabs 36 0 1 17 :=
  findsEnclosing_iff twoStabs_increasing

/-- The address of the first function is taken for one in the second. -/
theorem not_findsEnclosing_two : Increasing twoStabs 36 0 1 ∧ ¬ FindsEnclosing twoStabs 36 0 1 16 := by
  refine ⟨twoStabs_increasing, fun finds => ?_⟩
  obtain ⟨final, ends, good⟩ := findsEnclosing_iff_ends.1 finds
  have run : Ends twoStabs 36 ⟨0, 1, 0, 1, false, 16⟩ ⟨2, 1, 1, 1, true, 20⟩ := ⟨4, by rfl⟩
  cases ends.unique run
  have enclosing : IsEnclosing twoStabs 36 0 1 16 0 := by
    refine ⟨⟨by decide, by decide, by decide⟩, by decide, fun n entry low => Int.not_lt.1 fun behind => ?_⟩
    obtain rfl : n = 1 := Int.le_antisymm entry.upper behind
    exact absurd low (by decide)
  rcases good with ⟨m, other, first, -⟩ | ⟨none, -⟩
  · cases enclosing.unique other
    exact absurd first (by decide)
  · exact none 0 enclosing

end Fos.Debug
