import Fos.UserHeap.Spaces

/-! What one call of `malloc` or `free` does to the spaces in use. -/

set_option autoImplicit false

namespace Fos.UserHeap

open Foundation

theorem slot_eq_getElem {spaces : List Info} {index : Nat}
    (bound : index < spaces.length) : slot spaces index = spaces[index] := by
  simp [slot, List.getD_eq_getElem?_getD, List.getElem?_eq_getElem bound]

/-! ### malloc -/

/-- A call of `malloc` either finds no space, or takes a free space whole, or cuts the
request off its start. -/
theorem malloc_cases {size : Nat} {spaces : List Info} {outcome : Outcome}
    (slots : Slots (initializeSpaces spaces)) (result : malloc size spaces = .ok outcome) :
    (outcome = ⟨initializeSpaces spaces, 0, none⟩ ∧
      ∀ space ∈ inUse (initializeSpaces spaces), space.isFree = true →
        space.pages < reqPagesOf size) ∨
    ∃ space rest, (inUse (initializeSpaces spaces)).Perm (space :: rest) ∧
      space.isFree = true ∧ outcome.pointer = space.strAddress ∧
      (∀ other ∈ outcome.spaces, other.pages = -1 → other = Info.removed) ∧
      ((space.pages = reqPagesOf size ∧
          (inUse outcome.spaces).Perm ({ space with isFree := false } :: rest)) ∨
        (reqPagesOf size < space.pages ∧
          (inUse outcome.spaces).Perm
            (⟨space.strAddress, space.strAddress + reqPagesOf size * pageSize,
              reqPagesOf size, false⟩ ::
              ⟨space.strAddress + reqPagesOf size * pageSize, space.endAddress,
                space.pages - reqPagesOf size, true⟩ :: rest))) := by
  simp only [malloc] at result
  split at result
  · next absent =>
      refine .inl ⟨(Except.ok.inj result).symm, fun space member isFree => ?_⟩
      by_contra large
      have fits := (searchBestFit_eq_none absent).2 space (mem_inUse.1 member).1
        ⟨isFree, not_lt.1 large⟩
      have bound := slots.partition.pages_le member
      omega
  · next index found =>
      rcases searchBestFit_eq_some found with none | ⟨offset, space, position, atOffset, fits⟩
      · cases none
      · obtain rfl : index = offset := by omega
        obtain ⟨bound, value⟩ := List.getElem?_eq_some_iff.1 atOffset
        have chosen : slot (initializeSpaces spaces) index = space := by
          rw [slot_eq_getElem bound, value]
        obtain ⟨others, before, after⟩ := exists_rest_set (initializeSpaces spaces) index bound
        rw [value] at before
        have spaceMember : space ∈ initializeSpaces spaces := before.mem_iff.2 (by simp)
        have present : space ∈ inUse (initializeSpaces spaces) :=
          slots.mem_inUse_of_isFree spaceMember fits.1
        have positive := slots.partition.pages_pos present
        have othersRemoved : ∀ other ∈ others, other.pages = -1 → other = Info.removed :=
          fun other member => slots.removed other (before.mem_iff.2 (by simp [member]))
        have beforeUse := inUse_perm before
        rw [inUse_cons_of_pos (by omega)] at beforeUse
        refine .inr ⟨space, inUse others, beforeUse, fits.1, ?_⟩
        rw [chosen] at result
        split at result
        · next whole =>
            obtain rfl := Except.ok.inj result
            have afterUse := inUse_perm (after { space with isFree := false })
            rw [inUse_cons_of_pos (by simpa using positive.le)] at afterUse
            refine ⟨rfl, fun other member gone => ?_, .inl ⟨whole.symm, afterUse⟩⟩
            rcases List.mem_cons.1 ((after _).mem_iff.1 member) with rfl | member
            · simp only at gone
              omega
            · exact othersRemoved other member gone
        · next partly =>
            split at result
            · cases result
            · obtain rfl := Except.ok.inj result
              have smaller : (reqPagesOf size : Int) < space.pages :=
                lt_of_le_of_ne fits.2 partly
              have shape := (@List.perm_append_comm _ ((initializeSpaces spaces).set index
                { space with
                  endAddress := space.strAddress + reqPagesOf size * pageSize
                  pages := reqPagesOf size
                  isFree := false })
                [⟨space.strAddress + reqPagesOf size * pageSize, space.endAddress,
                  space.pages - reqPagesOf size, true⟩]).trans
                (((after _).cons _).trans (.swap _ _ _))
              have afterUse := inUse_perm shape
              rw [inUse_cons_of_pos (by simp), inUse_cons_of_pos (by simpa using smaller.le)]
                at afterUse
              refine ⟨rfl, fun other member gone => ?_, .inr ⟨smaller, afterUse⟩⟩
              rcases List.mem_cons.1 (shape.mem_iff.1 member) with rfl | member
              · simp only at gone
                omega
              · rcases List.mem_cons.1 member with rfl | member
                · simp only at gone
                  omega
                · exact othersRemoved other member gone

/-! ### free -/

section Merge

variable {meets : Info → Info → Bool} {joined : Info → Info → Info} {index : Nat}
  {spaces : List Info}

private theorem mergeInto_eq_none (absent : mergeInto meets joined index spaces = none)
    {space : Info} (member : space ∈ spaces) (isFree : space.isFree = true) :
    meets (slot spaces index) space = false := by
  simp only [mergeInto] at absent
  split at absent
  · next notFound =>
      have := List.findIdx?_eq_none_iff.1 notFound space member
      simpa [isFree] using this
  · cases absent

private theorem mergeInto_eq_some {merged : List Info}
    (bound : index < spaces.length) (held : spaces[index].isFree = false)
    (result : mergeInto meets joined index spaces = some merged) :
    ∃ space rest, spaces.Perm (space :: spaces[index] :: rest) ∧ space.isFree = true ∧
      meets spaces[index] space = true ∧
      merged.Perm (joined spaces[index] space :: Info.removed :: rest) ∧
      slot merged index = Info.removed := by
  simp only [mergeInto] at result
  split at result
  · cases result
  · next i found =>
      obtain rfl := Option.some.inj result
      obtain ⟨inside, suitable, -⟩ := List.findIdx?_eq_some_iff_getElem.1 found
      rw [slot_eq_getElem bound, Bool.and_eq_true] at suitable
      have different : i ≠ index := by
        rintro rfl
        rw [held] at suitable
        exact absurd suitable.1 (by decide)
      obtain ⟨rest, before, after⟩ := exists_rest_set_set spaces i index inside bound different
      refine ⟨spaces[i], rest, before, suitable.1, suitable.2, ?_, ?_⟩
      · rw [slot_eq_getElem bound, slot_eq_getElem inside]
        exact after _ _
      · simp [slot, bound]

end Merge

/-- The slot `free` looks up is the space that starts at its argument. -/
private theorem findIdx?_start {spaces : List Info} (slots : Slots spaces) {space : Info}
    (member : space ∈ inUse spaces) :
    ∃ index, ∃ bound : index < spaces.length,
      (spaces.findIdx? fun other => other.strAddress == space.strAddress) = some index ∧
        spaces[index] = space := by
  cases found : spaces.findIdx? fun other => other.strAddress == space.strAddress with
  | none =>
      have := List.findIdx?_eq_none_iff.1 found space (mem_inUse.1 member).1
      simp at this
  | some index =>
      obtain ⟨bound, starts, -⟩ := List.findIdx?_eq_some_iff_getElem.1 found
      refine ⟨index, bound, rfl, ?_⟩
      have starts : spaces[index].strAddress = space.strAddress := by simpa using starts
      have present : spaces[index].pages ≠ -1 := by
        intro gone
        have lower := slots.partition.start_ge member
        rw [← starts, slots.removed _ (List.getElem_mem bound) gone] at lower
        exact absurd lower (by decide)
      obtain ⟨rest, same, -⟩ := exists_rest_set spaces index bound
      have inUseSame := inUse_perm same
      have positive := slots.partition.pages_pos
        (mem_inUse.2 ⟨List.getElem_mem bound, present⟩)
      rw [inUse_cons_of_pos positive.le] at inUseSame
      rcases List.mem_cons.1 (inUseSame.mem_iff.1 member) with rfl | inRest
      · rfl
      · exact absurd starts.symm ((slots.partition.perm inUseSame).start_ne inRest)

private theorem Slots.start_ne_zero {spaces : List Info} (slots : Slots spaces) {space : Info}
    (member : space ∈ inUse spaces) : space.strAddress ≠ 0 := by
  have lower := slots.partition.start_ge member
  simp only [userHeapStart] at lower
  omega

section Joined

variable {spaces merged rest : List Info} {space neighbour joined : Info} {index : Nat}

/-- After a join an unused slot is the one given up or was unused before. -/
private theorem Slots.removed_of_joined (slots : Slots spaces) (before : spaces.Perm (neighbour :: space :: rest))
    (after : merged.Perm (joined :: Info.removed :: rest)) (present : 0 ≤ joined.pages) :
    ∀ other ∈ merged, other.pages = -1 → other = Info.removed := by
  intro other inMerged gone
  have shape := after.mem_iff.1 inMerged
  simp only [List.mem_cons] at shape
  rcases shape with rfl | rfl | inRest
  · omega
  · rfl
  · exact slots.removed other (before.mem_iff.2 (by simp [inRest])) gone

/-- The neighbour is one of the other spaces in use. -/
private theorem inUse_neighbour {others : List Info} (before : spaces.Perm (neighbour :: space :: rest))
    (sameUse : (inUse spaces).Perm (space :: others)) (neighbourPresent : 0 ≤ neighbour.pages)
    (present : 0 ≤ space.pages) : others.Perm (neighbour :: inUse rest) := by
  have whole := inUse_perm before
  rw [inUse_cons_of_pos neighbourPresent, inUse_cons_of_pos present] at whole
  exact (sameUse.symm.trans (whole.trans (.swap _ _ _))).cons_inv

private theorem inUse_joined (after : merged.Perm (joined :: Info.removed :: rest)) (present : 0 ≤ joined.pages) :
    (inUse merged).Perm (joined :: inUse rest) := by
  have afterUse := inUse_perm after
  rwa [inUse_cons_of_pos present, inUse_cons_removed] at afterUse

/-- The slot just given up is zeroed, and no free space starts at address 0. -/
private theorem mergeRight_of_given (given : slot merged index = Info.removed)
    (started : ∀ other ∈ merged, other.isFree = true → other.strAddress ≠ 0) : mergeRight index merged = none := by
  cases again : mergeRight index merged with
  | none => rfl
  | some twice =>
      simp only [mergeRight, mergeInto, given] at again
      split at again
      · cases again
      · next i found =>
          obtain ⟨inside, suitable, -⟩ := List.findIdx?_eq_some_iff_getElem.1 found
          simp only [Info.removed, Bool.and_eq_true, beq_iff_eq] at suitable
          exact absurd suitable.2.symm (started _ (List.getElem_mem inside) suitable.1)

/-- The spaces after a join, but the joined one, start where they did. -/
private theorem Slots.started_of_joined (slots : Slots spaces) (before : spaces.Perm (neighbour :: space :: rest))
    (after : merged.Perm (joined :: Info.removed :: rest)) (start : joined.strAddress ≠ 0) :
    ∀ other ∈ merged, other.isFree = true → other.strAddress ≠ 0 := by
  intro other inMerged isFree
  have shape := after.mem_iff.1 inMerged
  simp only [List.mem_cons] at shape
  rcases shape with rfl | rfl | inRest
  · exact start
  · cases isFree
  · exact slots.start_ne_zero (slots.mem_inUse_of_isFree (before.mem_iff.2 (by simp [inRest])) isFree)

end Joined

/-- Freeing a held space joins it to a free space before it, or else to one after it, or
else leaves it on its own. -/
theorem free_cases {spaces : List Info} (slots : Slots spaces) {space : Info}
    (member : space ∈ inUse spaces) (held : space.isFree = false) :
    ∃ outcome rest, free space.strAddress spaces = .ok outcome ∧
      (inUse spaces).Perm (space :: rest) ∧
      outcome.systemCall = some (.freeMem space.strAddress
        (toUInt32 (space.pages * pageSize))) ∧
      (∀ other ∈ outcome.spaces, other.pages = -1 → other = Info.removed) ∧
      ((∃ left others, rest.Perm (left :: others) ∧ left.isFree = true ∧
          left.endAddress = space.strAddress ∧
          (inUse outcome.spaces).Perm
            (⟨left.strAddress, space.endAddress, left.pages + space.pages, true⟩ :: others)) ∨
        (∀ left ∈ rest, left.isFree = true → left.endAddress ≠ space.strAddress) ∧
          ((∃ right others, rest.Perm (right :: others) ∧ right.isFree = true ∧
              space.endAddress = right.strAddress ∧
              (inUse outcome.spaces).Perm
                (⟨space.strAddress, right.endAddress, space.pages + right.pages, true⟩ ::
                  others)) ∨
            (∀ right ∈ rest, right.isFree = true → right.strAddress ≠ space.endAddress) ∧
              (inUse outcome.spaces).Perm ({ space with isFree := true } :: rest))) := by
  obtain ⟨index, bound, found, value⟩ := findIdx?_start slots member
  have atIndex : slot spaces index = space := by rw [slot_eq_getElem bound, value]
  have atIndexHeld : spaces[index].isFree = false := by rw [value, held]
  have positive := slots.partition.pages_pos member
  obtain ⟨others, same, replaced⟩ := exists_rest_set spaces index bound
  rw [value] at same
  have sameUse := inUse_perm same
  rw [inUse_cons_of_pos positive.le] at sameUse
  have fromRest (other : Info) (inRest : other ∈ inUse others) : other ∈ spaces :=
    (mem_inUse.1 (sameUse.mem_iff.2 (List.mem_cons_of_mem _ inRest))).1
  refine ⟨_, inUse others, by simp only [free, found]; rfl, sameUse, by rw [atIndex], ?_⟩
  cases left : mergeLeft index spaces with
  | some merged =>
      obtain ⟨neighbour, rest, before, isFree, meets, after, given⟩ :=
        mergeInto_eq_some bound atIndexHeld left
      rw [value] at before meets after
      have neighbourUse : neighbour ∈ inUse spaces :=
        slots.mem_inUse_of_isFree (before.mem_iff.2 (by simp)) isFree
      have neighbourPositive := slots.partition.pages_pos neighbourUse
      have started : neighbour.strAddress ≠ 0 := slots.start_ne_zero neighbourUse
      have right : mergeRight index merged = none :=
        mergeRight_of_given given (slots.started_of_joined before after started)
      simp only [right, Option.getD_none]
      refine ⟨slots.removed_of_joined before after (by simp only; omega),
        .inl ⟨neighbour, inUse rest, inUse_neighbour before sameUse neighbourPositive.le positive.le, isFree, ?_, ?_⟩⟩
      · simpa using (beq_iff_eq.1 meets).symm
      · simpa only [isFree] using inUse_joined after (by simp only; omega)
  | none =>
      have noLeft : ∀ neighbour ∈ inUse others, neighbour.isFree = true →
          neighbour.endAddress ≠ space.strAddress := by
        intro neighbour inRest isFree meets
        have apart := mergeInto_eq_none left (fromRest neighbour inRest) isFree
        rw [atIndex] at apart
        simp [meets] at apart
      cases right : mergeRight index spaces with
      | some merged =>
          obtain ⟨neighbour, rest, before, isFree, meets, after, -⟩ :=
            mergeInto_eq_some bound atIndexHeld right
          rw [value] at before meets after
          have neighbourPositive := slots.partition.pages_pos
            (slots.mem_inUse_of_isFree (before.mem_iff.2 (by simp)) isFree)
          simp only [Option.getD_some]
          refine ⟨slots.removed_of_joined before after (by simp only; omega), .inr ⟨noLeft, .inl ⟨neighbour, inUse rest,
            inUse_neighbour before sameUse neighbourPositive.le positive.le, isFree, beq_iff_eq.1 meets, ?_⟩⟩⟩
          simpa only [isFree, add_comm neighbour.pages] using inUse_joined after (by simp only; omega)
      | none =>
          have noRight : ∀ neighbour ∈ inUse others, neighbour.isFree = true →
              neighbour.strAddress ≠ space.endAddress := by
            intro neighbour inRest isFree meets
            have apart := mergeInto_eq_none right (fromRest neighbour inRest) isFree
            rw [atIndex] at apart
            simp [meets] at apart
          have after := replaced { space with isFree := true }
          have afterUse := inUse_perm after
          rw [inUse_cons_of_pos (by simpa using positive.le)] at afterUse
          simp only [Option.getD_none, atIndex]
          refine ⟨?_, .inr ⟨noLeft, .inr ⟨noRight, afterUse⟩⟩⟩
          intro other inMerged gone
          rcases List.mem_cons.1 (after.mem_iff.1 inMerged) with rfl | inRest
          · simp only at gone
            omega
          · exact slots.removed other (same.mem_iff.2 (by simp [inRest])) gone

end Fos.UserHeap
