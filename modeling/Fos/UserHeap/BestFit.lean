import Fos.UserHeap.Session

/-! `malloc` is best fit: which space it takes from, and what it leaves of it. -/

set_option autoImplicit false

namespace Fos.UserHeap

/-- The entries that are not erased tile the heap, and erased slots are not free. -/
structure Tiled (spaces : List Info) : Prop where
  partition : Partition (inUse spaces)
  erased : ∀ space ∈ spaces, space.pages = -1 → space.isFree = false

/-- A slot with the smallest of the free spaces of at least `count` pages, the first of several. -/
structure BestFit (spaces : List Info) (count index : Nat) : Prop where
  bound : index < spaces.length
  fits : Fits count (slot spaces index)
  fewest : ∀ other < spaces.length, Fits count (slot spaces other) →
    (slot spaces index).pages ≤ (slot spaces other).pages
  first : ∀ other < index, Fits count (slot spaces other) →
    (slot spaces index).pages < (slot spaces other).pages

/-- The first `count` pages of a space are allocated, the rest of it is a new space, and the
other slots stay. -/
structure Takes (spaces : List Info) (count index : Nat) (after : List Info) : Prop where
  taken : slot after index = ⟨(slot spaces index).strAddress,
    (slot spaces index).strAddress + count * pageSize, count, false⟩
  others : ∀ other < spaces.length, other ≠ index → slot after other = slot spaces other
  rest : if (slot spaces index).pages = count then after.length = spaces.length
    else after.length = spaces.length + 1 ∧ slot after spaces.length =
      ⟨(slot spaces index).strAddress + count * pageSize, (slot spaces index).endAddress,
        (slot spaces index).pages - count, true⟩

namespace Tiled

variable {spaces : List Info} {size count index : Nat}

theorem mem_inUse_of_fits (tiled : Tiled spaces) {space : Info} (member : space ∈ spaces)
    (fits : Fits count space) : space ∈ inUse spaces := by
  apply mem_inUse.2
  refine ⟨member, fun gone => ?_⟩
  have held := tiled.erased space member gone
  rw [fits.1] at held
  cases held

/-- The search finds a best fit, and nothing only where nothing fits. -/
theorem searchBestFit (tiled : Tiled spaces) (count : Nat) :
    match UserHeap.searchBestFit count spaces 0 (numPages + 1) none with
    | none => ∀ space ∈ spaces, ¬ Fits count space
    | some index => BestFit spaces count index := by
  split
  · next absent =>
      intro space member fits
      have far := (searchBestFit_eq_none absent).2 space member fits
      have near := tiled.partition.pages_le (tiled.mem_inUse_of_fits member fits)
      omega
  · next index found =>
      cases searchBestFit_fewest found with
      | inl kept => cases kept.1
      | inr improved =>
          obtain ⟨offset, space, position, here, fits, -, fewest, first⟩ := improved
          obtain rfl : index = offset := by omega
          obtain ⟨bound, value⟩ := List.getElem?_eq_some_iff.1 here
          have chosen : slot spaces index = space := by rw [slot_eq_getElem bound, value]
          refine ⟨bound, chosen ▸ fits, fun other otherBound otherFits => ?_, fun other before otherFits => ?_⟩
          · rw [slot_eq_getElem otherBound] at otherFits ⊢
            rw [chosen]
            exact fewest _ (List.getElem_mem otherBound) otherFits
          · have otherBound : other < spaces.length := before.trans bound
            rw [slot_eq_getElem otherBound] at otherFits ⊢
            rw [chosen]
            exact first other _ before (List.getElem?_eq_getElem otherBound) otherFits

end Tiled

theorem slot_set (spaces : List Info) (index other : Nat) (space : Info) :
    slot (spaces.set index space) other =
      if other = index ∧ index < spaces.length then space else slot spaces other := by
  simp only [slot, List.getD_eq_getElem?_getD, List.getElem?_set]
  by_cases same : index = other
  · subst same
    by_cases bound : index < spaces.length <;> simp [bound]
  · have different : ¬ (other = index ∧ index < spaces.length) := fun both => same both.1.symm
    rw [if_neg same, if_neg different]

theorem slot_append (spaces : List Info) (last : Info) (other : Nat) :
    slot (spaces ++ [last]) other = if other = spaces.length then last else slot spaces other := by
  simp only [slot, List.getD_eq_getElem?_getD, List.getElem?_append]
  by_cases bound : other < spaces.length
  · rw [if_pos bound, if_neg bound.ne]
  · rw [if_neg bound]
    by_cases same : other = spaces.length
    · simp [same]
    · have beyond : 1 ≤ other - spaces.length := by omega
      rw [if_neg same, List.getElem?_eq_none (by simpa using beyond), List.getElem?_eq_none (not_lt.1 bound)]

/-- What `malloc` does with a best fit. -/
theorem malloc_takes {spaces : List Info} {size index : Nat} (tiled : Tiled spaces)
    (room : spaces.length < numPages)
    (initialized : initializeSpaces spaces = spaces)
    (found : searchBestFit (reqPagesOf size) spaces 0 (numPages + 1) none = some index)
    (best : BestFit spaces (reqPagesOf size) index) :
    ∃ outcome, malloc size spaces = .ok outcome ∧ outcome.pointer = (slot spaces index).strAddress ∧
      Takes spaces (reqPagesOf size) index outcome.spaces ∧
      outcome.systemCall = some (.allocateMem (slot spaces index).strAddress (reqPagesOf size * pageSize)) := by
  have member : slot spaces index ∈ spaces := by
    rw [slot_eq_getElem best.bound]
    exact List.getElem_mem best.bound
  have present := tiled.mem_inUse_of_fits member best.fits
  have pages := tiled.partition.pages_eq present
  unfold malloc
  simp only [initialized, found]
  by_cases whole : (reqPagesOf size : Int) = (slot spaces index).pages
  · rw [if_pos whole]
    refine ⟨_, rfl, rfl, ⟨?_, fun other bound different => ?_, ?_⟩, rfl⟩
    · have ends : (slot spaces index).endAddress = (slot spaces index).strAddress + reqPagesOf size * pageSize := by
        simp only [pageSize] at pages ⊢
        omega
      simp only [slot_set, best.bound, and_self, if_true, whole, ← ends]
    · simp only [slot_set, different, false_and, if_false]
    · rw [if_pos whole.symm, List.length_set]
  · have short : ¬ spaces.length = numPages := room.ne
    rw [if_neg whole, if_neg short]
    have bound := best.bound
    refine ⟨_, rfl, rfl, ⟨?_, fun other otherBound different => ?_, ?_⟩, rfl⟩
    · simp only [slot_append, List.length_set, bound.ne, if_false, slot_set, bound, and_self, if_true]
    · simp only [slot_append, List.length_set, otherBound.ne, if_false, slot_set, different, false_and]
    · have partly : ¬ (slot spaces index).pages = (reqPagesOf size : Int) := fun same => whole same.symm
      rw [if_neg partly]
      simp only [List.length_append, List.length_set, List.length_singleton, slot_append, if_true, and_self]

/-- `malloc` is best fit on every table that has room. -/
theorem malloc_bestFit {spaces : List Info} {size : Nat} (tiled : Tiled spaces) (nonempty : 0 < spaces.length)
    (room : spaces.length < numPages) :
    (malloc size spaces = .ok ⟨spaces, 0, none⟩ ↔ ∀ space ∈ spaces, ¬ Fits (reqPagesOf size) space) ∧
      ((∃ space ∈ spaces, Fits (reqPagesOf size) space) → ∃ index outcome,
        BestFit spaces (reqPagesOf size) index ∧ malloc size spaces = .ok outcome ∧
        outcome.pointer = (slot spaces index).strAddress ∧ outcome.pointer ≠ 0 ∧
        Takes spaces (reqPagesOf size) index outcome.spaces ∧
        outcome.systemCall = some (.allocateMem (slot spaces index).strAddress (reqPagesOf size * pageSize))) := by
  have initialized : initializeSpaces spaces = spaces := if_neg nonempty.ne'
  have search := tiled.searchBestFit (reqPagesOf size)
  cases found : searchBestFit (reqPagesOf size) spaces 0 (numPages + 1) none with
  | none =>
      rw [found] at search
      refine ⟨⟨fun _ => search, fun _ => ?_⟩, fun ⟨space, member, fits⟩ => absurd fits (search space member)⟩
      simp only [malloc, initialized, found]
  | some index =>
      rw [found] at search
      have best : BestFit spaces (reqPagesOf size) index := search
      obtain ⟨outcome, result, pointer, takes, systemCall⟩ := malloc_takes tiled room initialized found best
      have member : slot spaces index ∈ spaces := by
        rw [slot_eq_getElem best.bound]
        exact List.getElem_mem best.bound
      have lower := tiled.partition.start_ge (tiled.mem_inUse_of_fits member best.fits)
      have nonNull : outcome.pointer ≠ 0 := by
        simp only [pointer, userHeapStart] at lower ⊢
        omega
      refine ⟨⟨fun null => ?_, fun none => absurd best.fits (none _ member)⟩,
        fun _ => ⟨index, outcome, best, result, pointer, nonNull, takes, systemCall⟩⟩
      rw [result] at null
      exact absurd (congrArg Outcome.pointer (Except.ok.inj null)) nonNull

/-- Two pages are taken from the free space of three, which is behind one of four and before the rest of the heap. -/
theorem malloc_bestFit_mixed : ∃ index outcome, BestFit Session.mixed.spaces (reqPagesOf 5000) index ∧
    malloc 5000 Session.mixed.spaces = .ok outcome ∧
    outcome.pointer = (slot Session.mixed.spaces index).strAddress ∧ outcome.pointer ≠ 0 ∧
    Takes Session.mixed.spaces (reqPagesOf 5000) index outcome.spaces ∧
    outcome.systemCall = some (.allocateMem (slot Session.mixed.spaces index).strAddress (reqPagesOf 5000 * pageSize)) := by
  have tiled : Tiled Session.mixed.spaces := ⟨Session.mixed_sound.slots.partition, by decide⟩
  have fits : ∃ space ∈ Session.mixed.spaces, Fits (reqPagesOf 5000) space :=
    ⟨⟨0x80005000, 0x80008000, 3, true⟩, by decide, rfl, by decide⟩
  exact (malloc_bestFit tiled (by decide) (by decide)).2 fits

end Fos.UserHeap
