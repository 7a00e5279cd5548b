import Fos.UserHeap.Requests

/-! Free neighbours: when `free` leaves none behind, and what `malloc` can then find. -/

set_option autoImplicit false

namespace Fos.UserHeap

open Foundation

/-- No free space ends where another one starts. -/
def Coalesced (spaces : List Info) : Prop :=
  ∀ left ∈ inUse spaces, ∀ right ∈ inUse spaces, left.isFree = true → right.isFree = true →
    left.endAddress ≠ right.strAddress

/-- The request frees a space between two free ones. -/
def Session.FreesBetween (session : Session) : Request → Prop
  | .malloc _ => False
  | .free pointer => ∃ left ∈ inUse session.spaces, ∃ freed ∈ inUse session.spaces,
      ∃ right ∈ inUse session.spaces, left.isFree = true ∧ left.endAddress = pointer ∧
        freed.strAddress = pointer ∧ right.isFree = true ∧ right.strAddress = freed.endAddress

/-- The pages from `start` on lie in the heap, and no live allocation touches them. -/
structure Session.FreePages (session : Session) (start count : Nat) : Prop where
  aligned : start % pageSize = 0
  lower : userHeapStart ≤ start
  upper : start + count * pageSize ≤ userHeapMax
  apart : ∀ allocation ∈ session.live,
    (⟨start, start + count * pageSize⟩ : Span Nat).Apart allocation.span

/-- No two free spaces are neighbours, and a request that finds no space needs more
contiguous free pages than there are. -/
structure Session.FullyCoalesced (session : Session) : Prop where
  coalesced : Coalesced session.spaces
  full : ∀ size outcome, (Request.malloc size).Sized →
    malloc size session.spaces = .ok outcome → outcome.pointer = 0 →
      ¬ ∃ start, session.FreePages start (reqPagesOf size)

private def CoalescedBlocks (blocks : List Info) : Prop :=
  ∀ left ∈ blocks, ∀ right ∈ blocks, left.isFree = true → right.isFree = true →
    left.endAddress ≠ right.strAddress

private theorem coalesced_perm {spaces blocks : List Info} (same : (inUse spaces).Perm blocks) :
    Coalesced spaces ↔ CoalescedBlocks blocks := by
  simp only [Coalesced, CoalescedBlocks, same.mem_iff]

/-- A space that is not free has no say. -/
private theorem coalescedBlocks_cons_held {space : Info} {rest : List Info}
    (held : space.isFree = false) : CoalescedBlocks (space :: rest) ↔ CoalescedBlocks rest := by
  simp [CoalescedBlocks, held]

/-- A free space beside the others: none ends at its start, none starts at its end. -/
private theorem coalescedBlocks_cons_free (space : Info) {rest : List Info}
    (isFree : space.isFree = true) (nonempty : space.strAddress < space.endAddress) :
    CoalescedBlocks (space :: rest) ↔ CoalescedBlocks rest ∧
      (∀ left ∈ rest, left.isFree = true → left.endAddress ≠ space.strAddress) ∧
      ∀ right ∈ rest, right.isFree = true → right.strAddress ≠ space.endAddress := by
  constructor
  · intro coalesced
    refine ⟨fun left leftMember right rightMember => ?_, fun left member free => ?_,
      fun right member free => ?_⟩
    · exact coalesced left (by simp [leftMember]) right (by simp [rightMember])
    · exact coalesced left (by simp [member]) space (by simp) free isFree
    · exact (coalesced space (by simp) right (by simp [member]) isFree free).symm
  · rintro ⟨others, noLeft, noRight⟩ left leftMember right rightMember leftFree rightFree
    rcases List.mem_cons.1 leftMember with rfl | leftInRest
    · rcases List.mem_cons.1 rightMember with rfl | rightInRest
      · exact nonempty.ne'
      · exact (noRight right rightInRest rightFree).symm
    · rcases List.mem_cons.1 rightMember with rfl | rightInRest
      · exact noLeft left leftInRest leftFree
      · exact others left leftInRest right rightInRest leftFree rightFree

namespace Session.Sound

variable {session : Session}

/-- A request for memory creates no free neighbours. -/
theorem coalesced_malloc {size : Nat} {outcome : Outcome} (sound : session.Sound)
    (sized : (Request.malloc size).Sized)
    (result : malloc size session.spaces = .ok outcome)
    (coalesced : Coalesced session.spaces) : Coalesced outcome.spaces := by
  have initialized := sound.initializeSpaces_eq
  rcases malloc_cases (by rw [initialized]; exact sound.slots) result with
    ⟨rfl, -⟩ | ⟨space, rest, before, isFree, -, -, ⟨whole, after⟩ | ⟨partly, after⟩⟩
  · rw [initialized]
    exact coalesced
  · rw [initialized] at before
    have nonempty := (sound.slots.partition.perm before).nonempty (List.mem_cons_self ..)
    rw [coalesced_perm before, coalescedBlocks_cons_free space isFree nonempty] at coalesced
    rw [coalesced_perm after, coalescedBlocks_cons_held rfl]
    exact coalesced.1
  · rw [initialized] at before
    have partition := sound.slots.partition.perm before
    have nonempty := partition.nonempty (List.mem_cons_self ..)
    have split := partition.split (reqPagesOf size) (reqPagesOf_pos sized) partly false true
    have first := split.nonempty (List.mem_cons_self ..)
    have second := split.nonempty (List.mem_cons_of_mem _ (List.mem_cons_self ..))
    simp only at first second
    rw [coalesced_perm before, coalescedBlocks_cons_free space isFree nonempty] at coalesced
    rw [coalesced_perm after, coalescedBlocks_cons_held rfl,
      coalescedBlocks_cons_free _ rfl second]
    refine ⟨coalesced.1, fun left member leftFree meet => ?_, coalesced.2.2⟩
    -- a space that ends at the cut would overlap the space that was cut
    have leftNonempty := partition.nonempty (List.mem_cons_of_mem _ member)
    have apart := partition.tiles.apart
    simp only [List.map_cons, List.pairwise_cons] at apart
    have := apart.1 left.span (List.mem_map_of_mem member)
    simp only [Span.Apart, Info.span] at this meet
    omega

/-- Freeing leaves free neighbours exactly when it frees a space between two free
ones. -/
theorem coalesced_free_iff {allocation : Allocation} {outcome : Outcome}
    (sound : session.Sound) (member : allocation ∈ session.live)
    (result : UserHeap.free allocation.pointer session.spaces = .ok outcome)
    (coalesced : Coalesced session.spaces) :
    Coalesced outcome.spaces ↔ ¬ session.FreesBetween (.free allocation.pointer) := by
  obtain ⟨space, inHeld, start, -⟩ := sound.exists_space member
  obtain ⟨present, notFree⟩ := mem_held.1 inHeld
  obtain ⟨outcome', rest, result', before, -, -, cases⟩ :=
    free_cases sound.slots present notFree
  rw [start, result] at result'
  obtain rfl := Except.ok.inj result'
  have partition := sound.slots.partition.perm before
  have nonempty := partition.nonempty (List.mem_cons_self ..)
  rw [coalesced_perm before, coalescedBlocks_cons_held notFree] at coalesced
  -- the freed space is the only one that starts at the pointer
  have between : session.FreesBetween (.free allocation.pointer) ↔
      (∃ left ∈ rest, left.isFree = true ∧ left.endAddress = space.strAddress) ∧
      ∃ right ∈ rest, right.isFree = true ∧ right.strAddress = space.endAddress := by
    have inRest (other : Info) (inUseMember : other ∈ inUse session.spaces)
        (isFree : other.isFree = true) : other ∈ rest := by
      refine (List.mem_cons.1 (before.mem_iff.1 inUseMember)).resolve_left ?_
      rintro rfl
      rw [notFree] at isFree
      cases isFree
    constructor
    · rintro ⟨left, leftMember, freed, freedMember, right, rightMember, leftFree, leftEnd,
        freedStart, rightFree, rightStart⟩
      have same : freed = space := by
        refine (List.mem_cons.1 (before.mem_iff.1 freedMember)).resolve_right fun inOthers => ?_
        exact partition.start_ne inOthers (by rw [freedStart, start])
      subst same
      exact ⟨⟨left, inRest left leftMember leftFree, leftFree, by rw [leftEnd, start]⟩,
        right, inRest right rightMember rightFree, rightFree, rightStart⟩
    · rintro ⟨⟨left, leftMember, leftFree, leftEnd⟩, right, rightMember, rightFree, rightStart⟩
      exact ⟨left, before.mem_iff.2 (by simp [leftMember]), space, present, right,
        before.mem_iff.2 (by simp [rightMember]), leftFree, by rw [leftEnd, start], start,
        rightFree, rightStart⟩
  rw [between]
  rcases cases with ⟨left, others, split, leftFree, meet, after⟩ |
    ⟨noLeft, ⟨right, others, split, rightFree, meet, after⟩ | ⟨noRight, after⟩⟩
  · have leftPresent : left ∈ rest := split.mem_iff.2 (by simp)
    have leftNonempty := partition.nonempty (List.mem_cons_of_mem _ leftPresent)
    have restCoalesced : CoalescedBlocks (left :: others) := by
      simpa only [CoalescedBlocks, split.mem_iff] using coalesced
    rw [coalescedBlocks_cons_free left leftFree leftNonempty] at restCoalesced
    rw [coalesced_perm after, coalescedBlocks_cons_free _ rfl (by simp only; omega)]
    constructor
    · rintro ⟨-, -, noRight⟩ ⟨-, right, rightMember, rightFree, rightStart⟩
      rcases List.mem_cons.1 (split.mem_iff.1 rightMember) with rfl | inOthers
      · omega
      · exact noRight right inOthers rightFree rightStart
    · intro notBetween
      refine ⟨restCoalesced.1, restCoalesced.2.1, fun right rightMember rightFree meets => ?_⟩
      exact notBetween ⟨⟨left, leftPresent, leftFree, meet⟩, right,
        split.mem_iff.2 (by simp [rightMember]), rightFree, meets⟩
  · have rightPresent : right ∈ rest := split.mem_iff.2 (by simp)
    have rightNonempty := partition.nonempty (List.mem_cons_of_mem _ rightPresent)
    have restCoalesced : CoalescedBlocks (right :: others) := by
      simpa only [CoalescedBlocks, split.mem_iff] using coalesced
    rw [coalescedBlocks_cons_free right rightFree rightNonempty] at restCoalesced
    rw [coalesced_perm after, coalescedBlocks_cons_free _ rfl (by simp only; omega)]
    refine ⟨fun _ => ?_, fun _ => ⟨restCoalesced.1, fun left leftMember leftFree => ?_,
      restCoalesced.2.2⟩⟩
    · rintro ⟨⟨left, leftMember, leftFree, leftEnd⟩, -⟩
      exact noLeft left leftMember leftFree leftEnd
    · exact noLeft left (split.mem_iff.2 (by simp [leftMember])) leftFree
  · rw [coalesced_perm after,
      coalescedBlocks_cons_free { space with isFree := true } rfl nonempty]
    refine ⟨fun _ => ?_, fun _ => ⟨coalesced, noLeft, noRight⟩⟩
    rintro ⟨⟨left, leftMember, leftFree, leftEnd⟩, -⟩
    exact noLeft left leftMember leftFree leftEnd

/-- In a coalesced heap contiguous free pages lie in one free space. -/
theorem exists_space_of_freePages {start count : Nat} (sound : session.Sound)
    (coalesced : Coalesced session.spaces) (positive : 0 < count)
    (free : session.FreePages start count) :
    ∃ space ∈ inUse session.spaces, space.isFree = true ∧
      space.strAddress ≤ start ∧ start + count * pageSize ≤ space.endAddress := by
  have partition := sound.slots.partition
  obtain ⟨-, lower, upper, apart⟩ := free
  -- a space that covers an address of the pages is free
  have freeAt (address : Nat) (from_ : start ≤ address)
      (below : address < start + count * pageSize) :
      ∃ space ∈ inUse session.spaces, space.isFree = true ∧ space.strAddress ≤ address ∧
        address < space.endAddress := by
    obtain ⟨span, member, covers⟩ :=
      (partition.tiles.covers address).1 ⟨by omega, by omega⟩
    obtain ⟨space, spaceMember, rfl⟩ := List.mem_map.1 member
    refine ⟨space, spaceMember, ?_, covers⟩
    by_contra notFree
    have inHeld : space ∈ held session.spaces :=
      mem_held.2 ⟨spaceMember, by simpa using notFree⟩
    obtain ⟨allocation, live, same⟩ := List.mem_map.1
      (sound.live.mem_iff.1 (List.mem_map_of_mem (f := Info.span) inHeld))
    refine (apart allocation live).not_both_cover address ⟨from_, below⟩ ?_
    rw [same]
    exact covers
  obtain ⟨space, member, isFree, startIn, endIn⟩ := freeAt start le_rfl (by
    simp only [pageSize]
    omega)
  refine ⟨space, member, isFree, startIn, ?_⟩
  by_contra short
  -- the next address belongs to a free space that must be its neighbour
  obtain ⟨next, nextMember, nextFree, nextStart, nextEnd⟩ :=
    freeAt space.endAddress endIn.le (not_le.1 short)
  refine coalesced space member next nextMember isFree nextFree ?_
  by_contra different
  have inBoth : next.span.Covers (space.endAddress - 1) := ⟨by
    simp only [Info.span]
    omega, by
    simp only [Info.span]
    omega⟩
  have same := partition.eq_of_covers member nextMember
    (space.endAddress - 1) ⟨by simp only [Info.span]; omega, by
      simp only [Info.span]; omega⟩ inBoth
  omega

theorem fullyCoalesced (sound : session.Sound) (coalesced : Coalesced session.spaces) :
    session.FullyCoalesced where
  coalesced := coalesced
  full := by
    rintro size outcome sized result absent ⟨start, free⟩
    obtain ⟨-, small⟩ := sound.malloc_none result absent
    obtain ⟨space, member, isFree, startIn, endIn⟩ :=
      sound.exists_space_of_freePages coalesced (reqPagesOf_pos sized) free
    have pages := sound.slots.partition.pages_eq member
    have few := small space member isFree
    simp only [pageSize] at *
    omega

end Session.Sound

/-- One request that frees no space between two free ones creates no free neighbours. -/
theorem Session.Sound.coalesced_exec {session next : Session} {request : Request}
    (sound : session.prepared.Sound) (coalesced : Coalesced session.prepared.spaces)
    (sized : request.Sized) (apart : ¬ session.FreesBetween request)
    (executes : session.exec request = some next) : Coalesced next.spaces := by
  cases request with
  | malloc size =>
      obtain ⟨outcome, result, rfl⟩ := Session.exec_malloc executes
      rw [← malloc_initializeSpaces] at result
      exact sound.coalesced_malloc sized result coalesced
  | free pointer =>
      obtain ⟨allocation, member, rfl, outcome, result, rfl⟩ := Session.exec_free executes
      by_cases empty : session.spaces.length = 0
      · simp only [UserHeap.free, List.length_eq_zero_iff.1 empty, List.findIdx?_nil] at result
        cases result
      · have same : session.prepared = session := by
          simp only [Session.prepared, initializeSpaces, if_neg empty]
        rw [same] at sound coalesced
        exact (sound.coalesced_free_iff member result coalesced).2 apart

/-- A run of sized requests that frees no space between two free ones never leaves free
neighbours behind, and requests fail in it only for want of contiguous pages. -/
theorem Session.fullyCoalesced_of_reaches {session : Session}
    (reached : sessions.Reaches (fun session request =>
      request.Sized ∧ ¬ session.FreesBetween request) session) : session.FullyCoalesced := by
  have invariant : session.prepared.Sound ∧ Coalesced session.prepared.spaces := by
    refine reached.invariant
      (fun session => session.prepared.Sound ∧ Coalesced session.prepared.spaces)
      ?_ ?_
    · rintro session rfl
      refine ⟨Session.Sound.initial, ?_⟩
      rintro left leftMember right rightMember - -
      simp only [Session.prepared, Session.initial, initializeSpaces, List.length_nil, if_true]
        at leftMember rightMember
      obtain rfl := List.mem_singleton.1 (mem_inUse.1 leftMember).1
      obtain rfl := List.mem_singleton.1 (mem_inUse.1 rightMember).1
      decide
    · rintro session request next ⟨sound, coalesced⟩ ⟨sized, apart⟩ executes
      have nextSound := sound.exec sized executes
      refine ⟨nextSound.prepared, ?_⟩
      simp only [Session.prepared, nextSound.initializeSpaces_eq]
      exact sound.coalesced_exec coalesced sized apart executes
  obtain ⟨sound, coalesced⟩ := invariant
  have full := sound.fullyCoalesced coalesced
  refine ⟨fun left leftMember right rightMember => ?_, fun size outcome sized result absent => ?_⟩
  · by_cases empty : session.spaces.length = 0
    · simp [inUse, List.length_eq_zero_iff.1 empty] at leftMember
    · have same : session.prepared.spaces = session.spaces := by
        simp only [Session.prepared, initializeSpaces, if_neg empty]
      rw [same] at coalesced
      exact coalesced left leftMember right rightMember
  · rw [← malloc_initializeSpaces] at result
    rintro ⟨start, aligned, lower, upper, apart⟩
    exact full.full size outcome sized result absent ⟨start, aligned, lower, upper, apart⟩

instance (session : Session) : DecidablePred session.FreesBetween
  | .malloc _ => inferInstanceAs (Decidable False)
  | .free _ => inferInstanceAs (Decidable (∃ left ∈ _, ∃ freed ∈ _, ∃ right ∈ _, _))

/-- The fourth block is freed next to the third. -/
theorem Session.fullyCoalesced_mixed : Session.mixed.FullyCoalesced := by
  have ran : sessions.attempt (fun session request => request.Sized ∧ ¬ session.FreesBetween request) Session.initial mixing =
      some Session.mixed := by decide
  exact Session.fullyCoalesced_of_reaches ((System.Reaches.start rfl).attempt ran)

/-- Three pages, freed left, right, middle: the middle one joins its left neighbour only. -/
theorem Session.not_fullyCoalesced :
    ¬ ∀ session, sessions.Reaches (fun _ request => request.Sized) session →
      session.FullyCoalesced := by
  intro always
  have reached : sessions.Reaches (fun _ request => request.Sized)
      ⟨[⟨0x80000000, 0x80002000, 2, true⟩, Info.removed, Info.removed,
        ⟨0x80002000, 0xA0000000, 131070, true⟩], []⟩ := by
    refine .step (.free 0x80001000) (.step (.free 0x80002000)
      (.step (.free 0x80000000) (.step (.malloc 4096)
        (.step (.malloc 4096) (.step (.malloc 4096) (.start rfl)
          (by decide) rfl) (by decide) rfl) (by decide) rfl) (by decide) rfl) (by decide) rfl)
      (by decide) rfl
  have coalesced := (always _ reached).coalesced
  exact coalesced ⟨0x80000000, 0x80002000, 2, true⟩ (by decide)
    ⟨0x80002000, 0xA0000000, 131070, true⟩ (by decide) rfl rfl rfl

end Fos.UserHeap
