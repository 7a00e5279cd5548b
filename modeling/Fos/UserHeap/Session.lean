import Fos.UserHeap.MallocProperties
import Mathlib.Data.List.Nodup

/-! The invariant of a program's heap: its spaces partition the heap, and the spaces in
use by allocations are the live allocations. -/

set_option autoImplicit false

namespace Fos.UserHeap

open Foundation

/-- The spaces that are not free. -/
def held (spaces : List Info) : List Info := (inUse spaces).filter fun space => !space.isFree

/-- The region of an allocation, up to the next page border. -/
def Allocation.span (allocation : Allocation) : Span Nat :=
  ⟨allocation.pointer, allocation.pointer + roundUp allocation.size⟩

/-- The spaces tile the heap, and those that are not free are the live allocations with
their page-rounded sizes. -/
structure Session.Sound (session : Session) : Prop where
  slots : Slots session.spaces
  live : ((held session.spaces).map Info.span).Perm (session.live.map Allocation.span)
  covered : ∀ allocation ∈ session.live, allocation.size ≤ roundUp allocation.size

theorem reqPagesOf_mul (size : Nat) : reqPagesOf size * pageSize = roundUp size :=
  Nat.div_mul_cancel (Nat.dvd_of_mod_eq_zero (roundUp_mod size))

theorem roundUp_pos {size : Nat} (sized : (Request.malloc size).Sized) : 0 < roundUp size :=
  sized.1.trans_le (roundUp_bounds sized.2).1

theorem reqPagesOf_pos {size : Nat} (sized : (Request.malloc size).Sized) :
    0 < reqPagesOf size := by
  refine Nat.pos_of_ne_zero fun zero => ?_
  have rounded := reqPagesOf_mul size
  rw [zero, Nat.zero_mul] at rounded
  exact absurd rounded (roundUp_pos sized).ne

private theorem held_perm {spaces : List Info} {blocks : List Info}
    (same : (inUse spaces).Perm blocks) :
    (held spaces).Perm (blocks.filter fun space => !space.isFree) :=
  same.filter _

theorem mem_held {spaces : List Info} {space : Info} :
    space ∈ held spaces ↔ space ∈ inUse spaces ∧ space.isFree = false := by
  simp [held]

/-! ### malloc -/

/-- Before the first request the heap is one free space. -/
theorem Session.Sound.initial : (⟨initializeSpaces [], []⟩ : Session).Sound where
  slots := Slots.initializeSpaces (.inl rfl)
  live := .refl _
  covered := by simp

namespace Session.Sound

variable {session : Session}

theorem initializeSpaces_eq (sound : session.Sound) :
    initializeSpaces session.spaces = session.spaces := by
  have nonempty : session.spaces.length ≠ 0 := by
    intro empty
    obtain ⟨span, member, -⟩ :=
      (sound.slots.partition.tiles.covers userHeapStart).1 (by decide)
    simp [inUse, List.length_eq_zero_iff.1 empty] at member
  simp only [UserHeap.initializeSpaces, if_neg nonempty]

/-- The whole of a successful request: the pointer starts a span of the rounded size
within a space that was free, which is held from then on. -/
theorem malloc_some {size : Nat} {outcome : Outcome} (sound : session.Sound)
    (sized : (Request.malloc size).Sized)
    (result : malloc size session.spaces = .ok outcome) (found : outcome.pointer ≠ 0) :
    (⟨outcome.spaces, ⟨outcome.pointer, size⟩ :: session.live⟩ : Session).Sound ∧
      ∃ space ∈ inUse session.spaces, space.isFree = true ∧
        outcome.pointer = space.strAddress ∧
        outcome.pointer + roundUp size ≤ space.endAddress := by
  have initialized := sound.initializeSpaces_eq
  rcases malloc_cases (by rw [initialized]; exact sound.slots) result with
    ⟨rfl, -⟩ | ⟨space, rest, before, isFree, pointer, removed, cases⟩
  · exact absurd rfl found
  rw [initialized] at before
  have partition := sound.slots.partition.perm before
  have size_eq := partition.pages_eq (List.mem_cons_self ..)
  have ordered := partition.nonempty (List.mem_cons_self ..)
  have heldBefore := held_perm before
  have rounded := reqPagesOf_mul size
  rw [List.filter_cons_of_neg (by simp [isFree])] at heldBefore
  have live := (heldBefore.map Info.span).symm.trans sound.live
  have covered : ∀ allocation ∈ (⟨outcome.pointer, size⟩ : Allocation) :: session.live,
      allocation.size ≤ roundUp allocation.size :=
    List.forall_mem_cons.2 ⟨(roundUp_bounds sized.2).1, sound.covered⟩
  rcases cases with ⟨whole, after⟩ | ⟨partly, after⟩
  · have heldAfter := held_perm after
    rw [List.filter_cons_of_pos (by simp)] at heldAfter
    have ends : space.endAddress = space.strAddress + roundUp size := by
      simp only [whole, pageSize] at size_eq rounded
      omega
    refine ⟨⟨⟨(partition.set_isFree false).perm after.symm, removed⟩, ?_, covered⟩,
      space, before.mem_iff.2 (by simp), isFree, pointer, by rw [ends, pointer]⟩
    have first : Info.span { space with isFree := false } =
        (⟨outcome.pointer, size⟩ : Allocation).span := by
      simp [Info.span, Allocation.span, pointer, ends]
    refine (heldAfter.map Info.span).trans ?_
    simpa only [List.map_cons, first] using live.cons _
  · have heldAfter := held_perm after
    rw [List.filter_cons_of_pos (by simp), List.filter_cons_of_neg (by simp)] at heldAfter
    have split := partition.split (reqPagesOf size) (reqPagesOf_pos sized) partly false true
    refine ⟨⟨⟨split.perm after.symm, removed⟩, ?_, covered⟩,
      space, before.mem_iff.2 (by simp), isFree, pointer, ?_⟩
    · have first : Info.span ⟨space.strAddress, space.strAddress + reqPagesOf size * pageSize,
          reqPagesOf size, false⟩ = (⟨outcome.pointer, size⟩ : Allocation).span := by
        simp only [Info.span, Allocation.span, pointer, rounded]
      refine (heldAfter.map Info.span).trans ?_
      simpa only [List.map_cons, first] using live.cons _
    · simp only [pageSize] at size_eq rounded
      omega

/-- A request that finds no space leaves the spaces as they are. -/
theorem malloc_none {size : Nat} {outcome : Outcome} (sound : session.Sound)
    (result : malloc size session.spaces = .ok outcome) (absent : outcome.pointer = 0) :
    outcome.spaces = session.spaces ∧
      ∀ space ∈ inUse session.spaces, space.isFree = true → space.pages < reqPagesOf size := by
  have initialized := sound.initializeSpaces_eq
  rcases malloc_cases (by rw [initialized]; exact sound.slots) result with
    ⟨rfl, small⟩ | ⟨space, rest, before, isFree, pointer, -⟩
  · rw [initialized] at small
    exact ⟨initialized, small⟩
  · have member : space ∈ inUse session.spaces := by
      rw [← initialized]
      exact before.mem_iff.2 (by simp)
    have lower := sound.slots.partition.start_ge member
    rw [← pointer, absent] at lower
    exact absurd lower (by decide)

/-! ### Live allocations -/

/-- A live allocation is a space that is not free. -/
theorem exists_space {allocation : Allocation} (sound : session.Sound)
    (member : allocation ∈ session.live) :
    ∃ space ∈ held session.spaces, space.strAddress = allocation.pointer ∧
      space.endAddress = allocation.pointer + roundUp allocation.size := by
  obtain ⟨space, inHeld, same⟩ := List.mem_map.1
    (sound.live.mem_iff.2 (List.mem_map_of_mem (f := Allocation.span) member))
  simp only [Info.span, Allocation.span, Span.mk.injEq] at same
  exact ⟨space, inHeld, same⟩

theorem pages_eq_reqPagesOf {space : Info} {size : Nat} (sound : session.Sound)
    (member : space ∈ inUse session.spaces)
    (ends : space.endAddress = space.strAddress + roundUp size) :
    space.pages = reqPagesOf size := by
  have pages := sound.slots.partition.pages_eq member
  have rounded := reqPagesOf_mul size
  simp only [pageSize] at pages rounded
  omega

/-- Live allocations do not overlap. -/
theorem live_apart (sound : session.Sound) :
    (session.live.map Allocation.span).Pairwise Span.Apart := by
  have apart : ((held session.spaces).map Info.span).Pairwise Span.Apart :=
    sound.slots.partition.tiles.apart.sublist (List.filter_sublist.map _)
  exact (sound.live.pairwise_iff fun apart => Span.Apart.symm apart).1 apart

theorem live_nonempty {allocation : Allocation} (sound : session.Sound)
    (member : allocation ∈ session.live) : 0 < roundUp allocation.size := by
  obtain ⟨space, inHeld, start, finish⟩ := sound.exists_space member
  have := sound.slots.partition.nonempty (mem_held.1 inHeld).1
  omega

/-- Two live allocations with one pointer are the same one. -/
theorem live_nodup (sound : session.Sound) :
    (session.live.map Allocation.pointer).Nodup := by
  have apart := sound.live_apart
  rw [List.pairwise_map] at apart
  rw [List.Nodup, List.pairwise_map]
  refine apart.imp_of_mem fun {left right} leftMember rightMember apart same => ?_
  have leftNonempty := sound.live_nonempty leftMember
  have rightNonempty := sound.live_nonempty rightMember
  simp only [Span.Apart, Allocation.span] at apart
  omega

/-! ### free -/

private theorem eraseP_pointer {allocations : List Allocation} {allocation : Allocation}
    (distinct : (allocations.map Allocation.pointer).Nodup) (member : allocation ∈ allocations) :
    (allocations.eraseP fun other => other.pointer == allocation.pointer) =
      allocations.erase allocation := by
  induction allocations with
  | nil => cases member
  | cons head tail ih =>
      simp only [List.map_cons, List.nodup_cons] at distinct
      by_cases same : head = allocation
      · subst same
        simp
      · have inTail : allocation ∈ tail := (List.mem_cons.1 member).resolve_left (Ne.symm same)
        have apart : head.pointer ≠ allocation.pointer := fun equal =>
          distinct.1 (equal ▸ List.mem_map_of_mem inTail)
        rw [List.eraseP_cons_of_neg (by simpa using apart), List.erase_cons_tail (by simpa using same),
          ih distinct.2 inTail]

/-- Freeing a live pointer returns, releases the rounded size from it on, and keeps the
other allocations. -/
theorem free {allocation : Allocation} (sound : session.Sound)
    (member : allocation ∈ session.live) :
    ∃ outcome, UserHeap.free allocation.pointer session.spaces = .ok outcome ∧
      outcome.systemCall =
        some (.freeMem allocation.pointer (roundUp allocation.size)) ∧
      (session.live.eraseP fun other => other.pointer == allocation.pointer) =
        session.live.erase allocation ∧
      (⟨outcome.spaces, session.live.erase allocation⟩ : Session).Sound := by
  obtain ⟨space, inHeld, start, finish⟩ := sound.exists_space member
  obtain ⟨present, notFree⟩ := mem_held.1 inHeld
  obtain ⟨outcome, rest, result, before, systemCall, removed, cases⟩ :=
    free_cases sound.slots present notFree
  have partition := sound.slots.partition.perm before
  have pages := sound.pages_eq_reqPagesOf present (by rw [finish, start])
  refine ⟨outcome, by rw [← start]; exact result, ?_,
    eraseP_pointer sound.live_nodup member, ?_⟩
  · have bound := sound.slots.partition.pages_le present
    have rounded := reqPagesOf_mul allocation.size
    rw [systemCall, start, pages]
    simp only [numPages, userHeapMax, userHeapStart, pageSize] at bound rounded
    simp only [toUInt32, wordSize, pageSize, Option.some.injEq, SystemCall.freeMem.injEq,
      true_and]
    omega
  have covered : ∀ other ∈ session.live.erase allocation, other.size ≤ roundUp other.size :=
    fun other otherMember => sound.covered other (List.mem_of_mem_erase otherMember)
  have live : ((rest.filter fun other => !other.isFree).map Info.span).Perm
      ((session.live.erase allocation).map Allocation.span) := by
    have heldBefore := held_perm before
    rw [List.filter_cons_of_pos (by simp [notFree])] at heldBefore
    have first : space.span = allocation.span := by
      simp [Info.span, Allocation.span, start, finish]
    have whole := ((heldBefore.map Info.span).symm.trans sound.live).trans
      ((List.perm_cons_erase member).map Allocation.span)
    simp only [List.map_cons, first] at whole
    exact whole.cons_inv
  rcases cases with ⟨left, others, split, leftFree, meet, after⟩ |
    ⟨-, ⟨right, others, split, rightFree, meet, after⟩ | ⟨-, after⟩⟩
  · have swapped : (inUse session.spaces).Perm (left :: space :: others) :=
      before.trans ((split.cons _).trans (.swap _ _ _))
    have joined := (sound.slots.partition.perm swapped).join meet true
    refine ⟨⟨joined.perm after.symm, removed⟩, ?_, covered⟩
    have heldAfter := held_perm after
    have heldRest := split.filter fun other => !other.isFree
    rw [List.filter_cons_of_neg (by simp)] at heldAfter
    rw [List.filter_cons_of_neg (by simp [leftFree])] at heldRest
    exact (heldAfter.map _).trans ((heldRest.map _).symm.trans live)
  · have joined := (partition.perm (split.cons _)).join meet true
    refine ⟨⟨joined.perm after.symm, removed⟩, ?_, covered⟩
    have heldAfter := held_perm after
    have heldRest := split.filter fun other => !other.isFree
    rw [List.filter_cons_of_neg (by simp)] at heldAfter
    rw [List.filter_cons_of_neg (by simp [rightFree])] at heldRest
    exact (heldAfter.map _).trans ((heldRest.map _).symm.trans live)
  · refine ⟨⟨(partition.set_isFree true).perm after.symm, removed⟩, ?_, covered⟩
    have heldAfter := held_perm after
    rw [List.filter_cons_of_neg (by simp)] at heldAfter
    exact (heldAfter.map _).trans live

end Session.Sound

/-! ### Runs -/

theorem Session.exec_malloc {session next : Session} {size : Nat}
    (executes : session.exec (.malloc size) = some next) :
    ∃ outcome, UserHeap.malloc size session.spaces = .ok outcome ∧ next = {
      spaces := outcome.spaces
      live := if outcome.pointer = 0 then session.live
        else ⟨outcome.pointer, size⟩ :: session.live } := by
  simp only [Session.exec] at executes
  split at executes
  · cases executes
  · next outcome result => exact ⟨outcome, result, (Option.some.inj executes).symm⟩

theorem Session.exec_free {session next : Session} {pointer : Nat}
    (executes : session.exec (.free pointer) = some next) :
    ∃ allocation ∈ session.live, allocation.pointer = pointer ∧ ∃ outcome,
      UserHeap.free pointer session.spaces = .ok outcome ∧ next = {
        spaces := outcome.spaces
        live := session.live.eraseP fun other => other.pointer == pointer } := by
  simp only [Session.exec] at executes
  split at executes
  · next isLive =>
      obtain ⟨allocation, member, same⟩ := List.mem_map.1 isLive
      split at executes
      · cases executes
      · next outcome result =>
          exact ⟨allocation, member, same, outcome, result, (Option.some.inj executes).symm⟩
  · cases executes

/-- Lazily initialized: the first call of `malloc` sees the whole heap. -/
theorem malloc_initializeSpaces (size : Nat) (spaces : List Info) :
    UserHeap.malloc size (initializeSpaces spaces) = UserHeap.malloc size spaces := by
  have twice : initializeSpaces (initializeSpaces spaces) = initializeSpaces spaces := by
    simp only [initializeSpaces]
    split
    · rfl
    · rfl
  simp only [UserHeap.malloc, twice]

/-- The session as its next request sees it. -/
def Session.prepared (session : Session) : Session :=
  { session with spaces := initializeSpaces session.spaces }

theorem Session.Sound.prepared {session : Session} (sound : session.Sound) :
    session.prepared.Sound := by
  simpa only [Session.prepared, sound.initializeSpaces_eq] using sound

/-- One request keeps the heap sound. -/
theorem Session.Sound.exec {session next : Session} {request : Request}
    (sound : session.prepared.Sound) (sized : request.Sized)
    (executes : session.exec request = some next) : next.Sound := by
  cases request with
  | malloc size =>
      obtain ⟨outcome, result, rfl⟩ := Session.exec_malloc executes
      rw [← malloc_initializeSpaces] at result
      by_cases found : outcome.pointer = 0
      · obtain ⟨same, -⟩ := sound.malloc_none result found
        simp only [if_pos found, same]
        exact sound
      · simp only [if_neg found]
        exact (sound.malloc_some sized result found).1
  | free pointer =>
      obtain ⟨allocation, member, rfl, outcome, result, rfl⟩ := Session.exec_free executes
      by_cases empty : session.spaces.length = 0
      · simp only [UserHeap.free, List.length_eq_zero_iff.1 empty, List.findIdx?_nil] at result
        cases result
      · have same : session.prepared = session := by
          simp only [Session.prepared, initializeSpaces, if_neg empty]
        rw [same] at sound
        obtain ⟨outcome', result', -, erased, next⟩ := sound.free member
        rw [result] at result'
        obtain rfl := Except.ok.inj result'
        rw [erased]
        exact next

theorem Session.prepared_sound_of_reaches {session : Session}
    (reached : sessions.Reaches (fun _ request => request.Sized) session) :
    session.prepared.Sound := by
  refine reached.invariant (fun session => session.prepared.Sound) ?_ ?_
  · rintro session rfl
    exact Session.Sound.initial
  · intro session request next sound sized executes
    exact (sound.exec sized executes).prepared

/-- Every request leaves a sound heap behind. -/
theorem Session.initial_or_sound {session : Session}
    (reached : sessions.Reaches (fun _ request => request.Sized) session) :
    session = Session.initial ∨ session.Sound := by
  cases reached with
  | start isInitial => exact .inl isInitial
  | step request before sized executes =>
      exact .inr ((Session.prepared_sound_of_reaches before).exec sized executes)

/-! ### A heap in use -/

/-- Five blocks are allocated, and three of them are freed: the third and the fourth, which merge, and the first. -/
def mixing : List Request :=
  [.malloc 0x4000, .malloc 100, .malloc 0x2000, .malloc 4096, .malloc 4096,
    .free 0x80005000, .free 0x80007000, .free 0x80000000]

def Session.mixed : Session where
  spaces := [⟨0x80000000, 0x80004000, 4, true⟩, ⟨0x80004000, 0x80005000, 1, false⟩,
    ⟨0x80005000, 0x80008000, 3, true⟩, Info.removed, ⟨0x80008000, 0x80009000, 1, false⟩,
    ⟨0x80009000, 0xA0000000, 131063, true⟩]
  live := [⟨0x80008000, 4096⟩, ⟨0x80004000, 100⟩]

theorem mixing_mixed : sessions.run Session.initial mixing = some Session.mixed := by decide

theorem Session.mixed_reached : sessions.Reaches (fun _ request => request.Sized) Session.mixed :=
  (Foundation.System.Reaches.start rfl).run (fun _ => by decide) mixing_mixed

theorem Session.mixed_sound : Session.mixed.Sound :=
  (Session.initial_or_sound Session.mixed_reached).resolve_left (by decide)

end Fos.UserHeap
