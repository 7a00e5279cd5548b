import Fos.UserHeap.Session

/-! What a program may expect of `malloc` and `free`, over all runs. -/

set_option autoImplicit false

namespace Fos.UserHeap

open Foundation

/-- The heap of a program that has asked for one byte. -/
def Session.onePage : Session where
  spaces := [⟨0x80000000, 0x80001000, 1, false⟩, ⟨0x80001000, 0xA0000000, 131071, true⟩]
  live := [⟨0x80000000, 1⟩]

/-- After every request the spaces that were not removed by a merge tile the heap, and
those that are not free are the live allocations. -/
theorem Session.sound_of_request {session next : Session} (request : Request)
    (reached : sessions.Reaches (fun _ request => request.Sized) session)
    (sized : request.Sized) (executes : session.exec request = some next) : next.Sound :=
  (Session.prepared_sound_of_reaches reached).exec sized executes

theorem Session.sound_of_request_onePage : Session.onePage.Sound :=
  Session.sound_of_request (.malloc 1) (.start rfl) (by decide) (by decide)

/-- Before the first request there are no spaces at all. -/
theorem Session.not_sound_initial :
    ¬ ∀ session, sessions.Reaches (fun _ request => request.Sized) session → session.Sound := by
  intro always
  have sound := always Session.initial (.start rfl)
  obtain ⟨span, member, -⟩ := (sound.slots.partition.tiles.covers userHeapStart).1 (by decide)
  cases member

/-- What `malloc` promises for one size: a pointer to a region of the heap that no live
allocation touches, and NULL for a size beyond the heap. -/
structure Session.MallocRight (session : Session) (size : Nat) (outcome : Outcome) : Prop where
  inHeap : outcome.pointer ≠ 0 → userHeapStart ≤ outcome.pointer ∧ outcome.pointer < userHeapMax
  inside : outcome.pointer ≠ 0 → outcome.pointer + size ≤ userHeapMax
  apart : outcome.pointer ≠ 0 → ∀ other ∈ session.live,
    (⟨outcome.pointer, outcome.pointer + size⟩ : Span Nat).Apart
      ⟨other.pointer, other.pointer + other.size⟩
  fresh : outcome.pointer ≠ 0 → ∀ other ∈ session.live, outcome.pointer ≠ other.pointer
  null : userHeapMax - userHeapStart < size → outcome.pointer = 0

/-- Freeing a live allocation asks the kernel for its pages and no others, and leaves
exactly the other allocations held. -/
def Session.FreesExactly (session : Session) : Prop :=
  ∀ allocation ∈ session.live, ∃ outcome,
    free allocation.pointer session.spaces = .ok outcome ∧
    outcome.systemCall = some (.freeMem allocation.pointer (roundUp allocation.size)) ∧
    ((held outcome.spaces).map Info.span).Perm
      ((session.live.erase allocation).map Allocation.span)

theorem Session.Sound.freesExactly {session : Session} (sound : session.Sound) :
    session.FreesExactly := by
  intro allocation member
  obtain ⟨outcome, result, systemCall, -, next⟩ := sound.free member
  exact ⟨outcome, result, systemCall, next.live⟩

theorem Session.Sound.mallocRight {session : Session} {size : Nat} {outcome : Outcome}
    (sound : session.Sound) (sized : (Request.malloc size).Sized)
    (result : malloc size session.spaces = .ok outcome) : session.MallocRight size outcome := by
  have rounded := (roundUp_bounds sized.2).1
  by_cases found : outcome.pointer = 0
  · exact ⟨fun some => absurd found some, fun some => absurd found some,
      fun some => absurd found some, fun some => absurd found some, fun _ => found⟩
  obtain ⟨next, space, member, -, pointer, bound⟩ := sound.malloc_some sized result found
  have lower := sound.slots.partition.start_ge member
  have upper := sound.slots.partition.end_le member
  have positive := roundUp_pos sized
  have apart := next.live_apart
  simp only [List.map_cons, List.pairwise_cons] at apart
  have nodup := next.live_nodup
  simp only [List.map_cons, List.nodup_cons] at nodup
  refine ⟨fun _ => ⟨?_, ?_⟩, fun _ => ?_, fun _ other otherMember => ?_,
    fun _ other otherMember equal => ?_, fun beyond => ?_⟩
  · rw [pointer]
    exact lower
  · omega
  · omega
  · have fits := apart.1 other.span (List.mem_map_of_mem otherMember)
    have covered := sound.covered other otherMember
    simp only [Span.Apart, Allocation.span] at fits ⊢
    omega
  · exact nodup.1 (equal ▸ List.mem_map_of_mem otherMember)
  · simp only [userHeapMax, userHeapStart] at *
    omega

/-- In a run whose requests are sized, every further sized request is answered right and
every live allocation can be freed exactly. -/
theorem Session.requests_right {session : Session}
    (reached : sessions.Reaches (fun _ request => request.Sized) session) :
    (∀ size outcome, (Request.malloc size).Sized →
      malloc size session.spaces = .ok outcome → session.MallocRight size outcome) ∧
      session.FreesExactly := by
  have sound := Session.prepared_sound_of_reaches reached
  constructor
  · intro size outcome sized result
    rw [← malloc_initializeSpaces] at result
    obtain ⟨inHeap, inside, apart, fresh, null⟩ := sound.mallocRight sized result
    exact ⟨inHeap, inside, apart, fresh, null⟩
  · cases Session.initial_or_sound reached with
    | inl isInitial =>
        subst isInitial
        intro allocation member
        cases member
    | inr sound => exact sound.freesExactly

theorem Session.requests_right_onePage :
    (∀ size outcome, (Request.malloc size).Sized →
      malloc size Session.onePage.spaces = .ok outcome →
        Session.onePage.MallocRight size outcome) ∧
      Session.onePage.FreesExactly :=
  Session.requests_right (.step (.malloc 1) (.start rfl) (by decide) (by decide))

/-- The last page of sizes wraps to 0 pages, for which there is always room. -/
theorem Session.not_mallocRight_wrapped :
    ¬ ∀ session, sessions.Reaches (fun _ request => ∀ size, request = .malloc size →
        size < wordSize) session →
      ∀ size outcome, size < wordSize → malloc size session.spaces = .ok outcome →
        session.MallocRight size outcome := by
  intro always
  have right := always Session.initial (.start rfl) 0xFFFFFFFF
    ⟨[⟨0x80000000, 0x80000000, 0, false⟩, ⟨0x80000000, 0xA0000000, 131072, true⟩],
      0x80000000, some (.allocateMem 0x80000000 0)⟩ (by decide) (by decide)
  exact absurd (right.null (by decide)) (by decide)

end Fos.UserHeap
