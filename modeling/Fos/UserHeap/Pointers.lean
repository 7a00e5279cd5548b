import Fos.UserHeap.Requests

/-! Which pointers `free` rejects. -/

set_option autoImplicit false

namespace Fos.UserHeap

/-- `free` takes the pointer of a live allocation, and any other one it answers with a panic,
before the system call and with the table as it was. -/
def Session.ChecksPointer (session : Session) (pointer : Nat) : Prop :=
  if pointer ∈ session.live.map Allocation.pointer then
    ∃ outcome, free pointer session.spaces = .ok outcome
  else
    free pointer session.spaces = .error (.panic "Error")

/-- The pointer is not the start of a free space, and not NULL once a merge has removed a slot. -/
def Session.NotMistaken (session : Session) (pointer : Nat) : Prop :=
  (∀ space ∈ session.spaces, space.isFree = true → space.strAddress ≠ pointer) ∧
    (pointer = 0 → Info.removed ∉ session.spaces)

theorem free_eq_panic_iff {pointer : Nat} {spaces : List Info} :
    free pointer spaces = .error (.panic "Error") ↔ ∀ space ∈ spaces, space.strAddress ≠ pointer := by
  unfold free
  constructor
  · intro panics space member same
    cases found : spaces.findIdx? fun space => space.strAddress == pointer with
    | none =>
        have missing := List.findIdx?_eq_none_iff.1 found space member
        simp [same] at missing
    | some index => simp [found] at panics
  · intro missing
    have found : (spaces.findIdx? fun space => space.strAddress == pointer) = none :=
      List.findIdx?_eq_none_iff.2 fun space member => by simpa using missing space member
    simp only [found]

namespace Session.Sound

variable {session : Session} {pointer : Nat}

/-- A slot of the table is free, or was removed, or is a live allocation. -/
theorem slot_cases (sound : session.Sound) {space : Info} (member : space ∈ session.spaces) :
    space.isFree = true ∨ space = Info.removed ∨
      space.strAddress ∈ session.live.map Allocation.pointer := by
  by_cases erased : space.pages = -1
  · exact .inr (.inl (sound.slots.removed space member erased))
  · cases isFree : space.isFree with
    | true => exact .inl rfl
    | false =>
        have inHeld := mem_held.2 ⟨mem_inUse.2 ⟨member, erased⟩, isFree⟩
        obtain ⟨allocation, live, same⟩ := List.mem_map.1
          (sound.live.mem_iff.1 (List.mem_map_of_mem (f := Info.span) inHeld))
        have start : allocation.pointer = space.strAddress := congrArg Foundation.Span.start same
        exact .inr (.inr (List.mem_map.2 ⟨allocation, live, start⟩))

/-- The pointer of a live allocation is the start of no other slot. -/
theorem notMistaken_of_live (sound : session.Sound) {allocation : Allocation}
    (live : allocation ∈ session.live) : session.NotMistaken allocation.pointer := by
  obtain ⟨held, inHeld, start, -⟩ := sound.exists_space live
  obtain ⟨present, notFree⟩ := mem_held.1 inHeld
  have partition := sound.slots.partition
  constructor
  · intro space member isFree same
    have freePresent := sound.slots.mem_inUse_of_isFree member isFree
    obtain ⟨rest, perm⟩ : ∃ rest, (inUse session.spaces).Perm (held :: rest) :=
      ⟨_, List.perm_cons_erase present⟩
    cases List.mem_cons.1 (perm.mem_iff.1 freePresent) with
    | inl equal =>
        rw [equal, notFree] at isFree
        cases isFree
    | inr inRest => exact (partition.perm perm).start_ne inRest (same.trans start.symm)
  · intro null
    have lower := partition.start_ge present
    rw [start, null] at lower
    exact absurd lower (by decide)

theorem checksPointer_iff (sound : session.Sound) :
    session.ChecksPointer pointer ↔ session.NotMistaken pointer := by
  unfold ChecksPointer
  by_cases isLive : pointer ∈ session.live.map Allocation.pointer
  · rw [if_pos isLive]
    obtain ⟨allocation, live, rfl⟩ := List.mem_map.1 isLive
    obtain ⟨outcome, result, -⟩ := sound.free live
    exact ⟨fun _ => sound.notMistaken_of_live live, fun _ => ⟨outcome, result⟩⟩
  · rw [if_neg isLive, free_eq_panic_iff]
    constructor
    · intro missing
      exact ⟨fun space member _ => missing space member, fun null removed =>
        missing Info.removed removed null.symm⟩
    · intro notMistaken space member same
      rcases sound.slot_cases member with isFree | removed | live
      · exact notMistaken.1 space member isFree same
      · subst removed
        exact notMistaken.2 same.symm member
      · exact isLive (same ▸ live)

end Session.Sound

/-- After every run, `free` tells live pointers from others as long as these are no starts of
free spaces and not NULL. -/
theorem Session.checksPointer_iff_notMistaken {session : Session}
    (reached : sessions.Reaches (fun _ request => request.Sized) session) (pointer : Nat) :
    session.ChecksPointer pointer ↔ session.NotMistaken pointer := by
  cases Session.initial_or_sound reached with
  | inl isInitial =>
      subst isInitial
      constructor
      · intro _
        exact ⟨fun space member => absurd member List.not_mem_nil, fun _ => List.not_mem_nil⟩
      · intro _
        rfl
  | inr sound => exact sound.checksPointer_iff

/-- The pointer was freed before, and its space is part of another one. -/
theorem Session.checksPointer_freed : 0x80007000 ∉ Session.mixed.live.map Allocation.pointer ∧
    free 0x80007000 Session.mixed.spaces = .error (.panic "Error") := by
  have notLive : 0x80007000 ∉ Session.mixed.live.map Allocation.pointer := by decide
  have notMistaken : Session.mixed.NotMistaken 0x80007000 := ⟨by decide, by decide⟩
  have checks := (Session.checksPointer_iff_notMistaken Session.mixed_reached 0x80007000).2 notMistaken
  rw [Session.ChecksPointer, if_neg notLive] at checks
  exact ⟨notLive, checks⟩

/-- The rest of the heap behind the first allocation can be freed without being allocated. -/
theorem Session.not_checksPointer_rest :
    ¬ ∀ session, sessions.Reaches (fun _ request => request.Sized) session →
      ∀ pointer, session.ChecksPointer pointer := by
  intro always
  have checks := always Session.onePage (.step (.malloc 1) (.start rfl) (by decide) (by decide)) 0x80001000
  have notLive : 0x80001000 ∉ Session.onePage.live.map Allocation.pointer := by decide
  rw [Session.ChecksPointer, if_neg notLive, free_eq_panic_iff] at checks
  exact checks ⟨0x80001000, 0xA0000000, 131071, true⟩ (by decide) rfl

end Fos.UserHeap
