import Fos.UserHeap.BestFit
import Fos.UserHeap.Requests

/-! How many slots of `spaces` a program uses up. -/

set_option autoImplicit false

namespace Fos.UserHeap

/-! ### The bound -/

/-- All slots a request reads or writes are slots of `spaces`: the loops run over the slots below
`arraySize`, and a split writes the one after them. -/
def Session.InBounds (session : Session) (request : Request) : Prop :=
  session.spaces.length ≤ numPages ∧ match request with
    | .malloc size => malloc size session.spaces ≠ .error .slotBeyondSpaces
    | .free pointer => free pointer session.spaces ≠ .error .slotBeyondSpaces

/-- A slot is left, or the request needs none: no free space is large enough, or one has
exactly the pages that are asked for. -/
def Session.HasSlot (session : Session) : Request → Prop
  | .malloc size => session.spaces.length < numPages ∨
      (∀ space ∈ session.spaces, ¬ Fits (reqPagesOf size) space) ∨
      ∃ space ∈ session.spaces, space.isFree = true ∧ space.pages = reqPagesOf size
  | .free _ => True

theorem free_ne_slotBeyondSpaces (pointer : Nat) (spaces : List Info) :
    free pointer spaces ≠ .error .slotBeyondSpaces := by
  unfold free
  split
  · intro beyond
    cases beyond
  · intro beyond
    cases beyond

theorem length_mergeInto {meets : Info → Info → Bool} {joined : Info → Info → Info} {index : Nat}
    {spaces merged : List Info} (result : mergeInto meets joined index spaces = some merged) :
    merged.length = spaces.length := by
  unfold mergeInto at result
  split at result
  · cases result
  · cases result
    simp only [List.length_set]

theorem length_free {pointer : Nat} {spaces : List Info} {outcome : Outcome}
    (result : free pointer spaces = .ok outcome) : outcome.spaces.length = spaces.length := by
  unfold free at result
  split at result
  · cases result
  · next index found =>
      cases result
      dsimp only
      cases left : mergeLeft index spaces with
      | some merged =>
          have sameLeft := length_mergeInto left
          dsimp only
          cases right : mergeRight index merged with
          | some twice => exact (length_mergeInto right).trans sameLeft
          | none => exact sameLeft
      | none =>
          dsimp only
          cases right : mergeRight index spaces with
          | some merged => exact length_mergeInto right
          | none => simp only [Option.getD_none, List.length_set]

theorem length_initializeSpaces {spaces : List Info} (bound : spaces.length ≤ numPages) :
    (initializeSpaces spaces).length ≤ numPages := by
  unfold initializeSpaces
  split
  · decide
  · exact bound

theorem length_malloc {size : Nat} {spaces : List Info} {outcome : Outcome}
    (bound : spaces.length ≤ numPages) (result : malloc size spaces = .ok outcome) :
    outcome.spaces.length ≤ numPages := by
  have initialized := length_initializeSpaces bound
  unfold malloc at result
  dsimp only at result
  split at result
  · cases result
    exact initialized
  · split at result
    · cases result
      simpa only [List.length_set] using initialized
    · split at result
      · cases result
      · next room =>
          cases result
          simp only [List.length_append, List.length_set, List.length_singleton]
          omega

theorem Session.length_exec {session next : Session} {request : Request}
    (bound : session.spaces.length ≤ numPages) (executes : session.exec request = some next) :
    next.spaces.length ≤ numPages := by
  cases request with
  | malloc size =>
      obtain ⟨outcome, result, rfl⟩ := Session.exec_malloc executes
      exact length_malloc bound result
  | free pointer =>
      obtain ⟨-, -, -, outcome, result, rfl⟩ := Session.exec_free executes
      exact (length_free result).trans_le bound

theorem Slots.tiled {spaces : List Info} (slots : Slots spaces) : Tiled spaces where
  partition := slots.partition
  erased space member gone := by
    rw [slots.removed space member gone]
    rfl

/-- A split needs one more slot. -/
theorem malloc_eq_slotBeyondSpaces_iff {spaces : List Info} {size : Nat} (tiled : Tiled spaces)
    (initialized : initializeSpaces spaces = spaces) :
    malloc size spaces = .error .slotBeyondSpaces ↔ spaces.length = numPages ∧
      (∃ space ∈ spaces, Fits (reqPagesOf size) space) ∧
      ∀ space ∈ spaces, space.isFree = true → space.pages ≠ reqPagesOf size := by
  have search := tiled.searchBestFit (reqPagesOf size)
  unfold malloc
  simp only [initialized]
  cases found : searchBestFit (reqPagesOf size) spaces 0 (numPages + 1) none with
  | none =>
      rw [found] at search
      constructor
      · intro beyond
        cases beyond
      · rintro ⟨-, ⟨space, member, fits⟩, -⟩
        exact absurd fits (search space member)
  | some index =>
      rw [found] at search
      have best : BestFit spaces (reqPagesOf size) index := search
      have member : slot spaces index ∈ spaces := by
        rw [slot_eq_getElem best.bound]
        exact List.getElem_mem best.bound
      dsimp only
      by_cases whole : (reqPagesOf size : Int) = (slot spaces index).pages
      · rw [if_pos whole]
        constructor
        · intro beyond
          cases beyond
        · rintro ⟨-, -, inexact⟩
          exact absurd whole.symm (inexact _ member best.fits.1)
      · rw [if_neg whole]
        by_cases full : spaces.length = numPages
        · rw [if_pos full]
          refine ⟨fun _ => ⟨full, ⟨_, member, best.fits⟩, fun space inSpaces isFree exact => ?_⟩, fun _ => rfl⟩
          obtain ⟨other, bound, value⟩ := List.getElem_of_mem inSpaces
          have atOther : slot spaces other = space := by rw [slot_eq_getElem bound, value]
          have fewest := best.fewest other bound (atOther ▸ ⟨isFree, exact.ge⟩)
          have enough := best.fits.2
          rw [atOther] at fewest
          omega
        · rw [if_neg full]
          constructor
          · intro beyond
            cases beyond
          · intro holds
            exact absurd holds.1 full

theorem Session.Sound.inBounds_iff {session : Session} (sound : session.Sound)
    (bound : session.spaces.length ≤ numPages) (request : Request) :
    session.InBounds request ↔ session.HasSlot request := by
  cases request with
  | free pointer => exact ⟨fun _ => trivial, fun _ => ⟨bound, free_ne_slotBeyondSpaces pointer _⟩⟩
  | malloc size =>
      have beyond := @malloc_eq_slotBeyondSpaces_iff session.spaces size sound.slots.tiled sound.initializeSpaces_eq
      unfold InBounds HasSlot
      simp only [ne_eq, beyond, bound, true_and]
      constructor
      · intro inside
        by_cases room : session.spaces.length < numPages
        · exact .inl room
        · by_cases fits : ∃ space ∈ session.spaces, Fits (reqPagesOf size) space
          · by_contra none
            refine inside ⟨by omega, fits, fun space member isFree exact => ?_⟩
            exact none (.inr (.inr ⟨space, member, isFree, exact⟩))
          · exact .inr (.inl fun space member holds => fits ⟨space, member, holds⟩)
      · rintro hasSlot ⟨full, ⟨space, member, fits⟩, inexact⟩
        rcases hasSlot with room | none | ⟨other, otherMember, isFree, exact⟩
        · exact absurd full room.ne
        · exact none space member fits
        · exact inexact other otherMember isFree exact

/-- In every run, a request stays within `spaces` as long as it finds a slot to split off into, or needs none. -/
theorem Session.inBounds_iff_hasSlot {session : Session}
    (reached : sessions.Reaches (fun _ request => request.Sized) session) (request : Request) :
    session.InBounds request ↔ session.HasSlot request := by
  have bound : session.spaces.length ≤ numPages :=
    reached.invariant (fun session => session.spaces.length ≤ numPages)
      (fun session isInitial => by
        cases isInitial
        decide)
      fun session request next bound _ executes => Session.length_exec bound executes
  cases Session.initial_or_sound reached with
  | inr sound => exact sound.inBounds_iff bound request
  | inl isInitial =>
      subst isInitial
      cases request with
      | free pointer => exact ⟨fun _ => trivial, fun _ => ⟨bound, free_ne_slotBeyondSpaces pointer _⟩⟩
      | malloc size =>
          have room : Session.initial.HasSlot (.malloc size) := .inl (by decide)
          refine ⟨fun _ => room, fun _ => ⟨bound, fun beyond => ?_⟩⟩
          rw [← malloc_initializeSpaces] at beyond
          have full := ((malloc_eq_slotBeyondSpaces_iff Session.Sound.initial.slots.tiled rfl).1 beyond).1
          exact absurd full (by decide)

theorem Session.inBounds_iff_hasSlot_onePage :
    Session.onePage.InBounds (.malloc 1) ↔ Session.onePage.HasSlot (.malloc 1) :=
  Session.inBounds_iff_hasSlot (.step (.malloc 1) (.start rfl) (by decide) (by decide)) (.malloc 1)

/-! ### A program that never holds more than a page -/

/-- The heap after one page was allocated and freed so many times. -/
def Session.worn (count : Nat) : Session where
  spaces := List.replicate count Info.removed ++ [⟨userHeapStart, userHeapMax, numPages, true⟩]
  live := []

section Worn

variable {count : Nat} {space other : Info} {rest : List Info}

private theorem searchBestFit_replicate {reqPages : Int} (i : Nat) (minDiff : Int) (index : Option Nat) :
    searchBestFit reqPages (List.replicate count Info.removed ++ rest) i minDiff index =
      searchBestFit reqPages rest (i + count) minDiff index := by
  induction count generalizing i with
  | zero => rfl
  | succ count ih =>
      have skipped : Info.removed.isFree = false := rfl
      rw [List.replicate_succ, List.cons_append, searchBestFit]
      simp only [skipped, Bool.false_eq_true, false_and, if_false]
      rw [ih, Nat.add_assoc, Nat.add_comm 1 count]

private theorem slot_replicate (offset : Nat) :
    slot (List.replicate count Info.removed ++ rest) (count + offset) = slot rest offset := by
  have beyond : ¬ count + offset < count := by omega
  simp [slot, List.getD_eq_getElem?_getD, List.getElem?_append, beyond]

private theorem set_replicate (offset : Nat) :
    (List.replicate count Info.removed ++ rest).set (count + offset) space =
      List.replicate count Info.removed ++ rest.set offset space := by
  simp

private theorem findIdx?_replicate {test : Info → Bool} (skipped : test Info.removed = false) :
    (List.replicate count Info.removed ++ rest).findIdx? test =
      (rest.findIdx? test).map (count + ·) := by
  induction count with
  | zero => simp
  | succ count ih =>
      rw [List.replicate_succ, List.cons_append, List.findIdx?_cons, skipped, ih]
      cases rest.findIdx? test with
      | none => rfl
      | some index =>
          simp only [Option.map_some, Bool.false_eq_true, if_false, Option.some.injEq]
          omega

/-- The first page is split off the whole heap. -/
theorem malloc_worn : malloc 1 (Session.worn count).spaces =
    if count + 1 = numPages then .error .slotBeyondSpaces else .ok
      ⟨List.replicate count Info.removed ++ [⟨userHeapStart, userHeapStart + pageSize, 1, false⟩,
        ⟨userHeapStart + pageSize, userHeapMax, numPages - 1, true⟩], userHeapStart,
        some (.allocateMem userHeapStart pageSize)⟩ := by
  have initialized : initializeSpaces (Session.worn count).spaces = (Session.worn count).spaces := by
    simp [initializeSpaces, Session.worn]
  have onePage : reqPagesOf 1 = 1 := by decide
  have found : searchBestFit ((1 : Nat) : Int) (Session.worn count).spaces 0 (numPages + 1) none = some (count + 0) := by
    rw [Session.worn, searchBestFit_replicate, Nat.zero_add]
    rfl
  have length : (Session.worn count).spaces.length = count + 1 := by simp [Session.worn]
  have whole : slot (Session.worn count).spaces (count + 0) = ⟨userHeapStart, userHeapMax, numPages, true⟩ := by
    rw [Session.worn, slot_replicate]
    rfl
  unfold malloc
  simp only [initialized, onePage, found, whole, length]
  rw [if_neg (show ¬ ((1 : Nat) : Int) = (numPages : Nat) by decide)]
  by_cases full : count + 1 = numPages
  · rw [if_pos full, if_pos full]
  · rw [if_neg full, if_neg full, Session.worn, set_replicate, List.append_assoc]
    rfl

/-- The page goes to the free space behind it, and its slot is given up. -/
theorem free_worn : free userHeapStart (List.replicate count Info.removed ++
      [⟨userHeapStart, userHeapStart + pageSize, 1, false⟩,
        ⟨userHeapStart + pageSize, userHeapMax, numPages - 1, true⟩]) =
    .ok ⟨(Session.worn (count + 1)).spaces, userHeapStart, some (.freeMem userHeapStart pageSize)⟩ := by
  let pair : List Info := [⟨userHeapStart, userHeapStart + pageSize, 1, false⟩,
    ⟨userHeapStart + pageSize, userHeapMax, numPages - 1, true⟩]
  have found : ((List.replicate count Info.removed ++ pair).findIdx? fun space =>
      space.strAddress == userHeapStart) = some (count + 0) := by
    rw [findIdx?_replicate (by decide)]
    rfl
  have page : slot (List.replicate count Info.removed ++ pair) (count + 0) =
      ⟨userHeapStart, userHeapStart + pageSize, 1, false⟩ := slot_replicate 0
  have behind : slot (List.replicate count Info.removed ++ pair) (count + 1) =
      ⟨userHeapStart + pageSize, userHeapMax, numPages - 1, true⟩ := slot_replicate 1
  have left : mergeLeft (count + 0) (List.replicate count Info.removed ++ pair) = none := by
    unfold mergeLeft mergeInto
    rw [page, findIdx?_replicate (by decide)]
    rfl
  have right : mergeRight (count + 0) (List.replicate count Info.removed ++ pair) =
      some (List.replicate count Info.removed ++
        [Info.removed, ⟨userHeapStart, userHeapMax, numPages, true⟩]) := by
    unfold mergeRight mergeInto
    rw [page, findIdx?_replicate (by decide)]
    have second : (pair.findIdx? fun space => space.isFree &&
        userHeapStart + pageSize == space.strAddress) = some 1 := by decide
    simp only [second, Option.map_some, behind, set_replicate]
    rfl
  have grown : (Session.worn (count + 1)).spaces = List.replicate count Info.removed ++
      [Info.removed, ⟨userHeapStart, userHeapMax, numPages, true⟩] := by
    simp only [Session.worn, List.replicate_succ', List.append_assoc, List.singleton_append]
  have onePage : toUInt32 (1 * (pageSize : Nat)) = pageSize := by decide
  unfold free
  simp only [pair] at found left right page
  simp only [found, left, right, page, onePage, grown, Option.getD_some]

end Worn

/-- Each round of a request for one byte and its release uses up a slot. -/
theorem Session.reaches_worn (count : Nat) (room : count + 1 < numPages) :
    sessions.Reaches (fun _ request => request.Sized) (Session.worn (count + 1)) := by
  have freed (before : Nat) (first : sessions.Reaches (fun _ request => request.Sized)
      ⟨List.replicate before Info.removed ++ [⟨userHeapStart, userHeapStart + pageSize, 1, false⟩,
        ⟨userHeapStart + pageSize, userHeapMax, numPages - 1, true⟩], [⟨userHeapStart, 1⟩]⟩) :
      sessions.Reaches (fun _ request => request.Sized) (Session.worn (before + 1)) := by
    have isLive : userHeapStart ∈ ([⟨userHeapStart, 1⟩] : List Allocation).map Allocation.pointer := by decide
    have executes : Session.exec ⟨List.replicate before Info.removed ++
        [⟨userHeapStart, userHeapStart + pageSize, 1, false⟩,
          ⟨userHeapStart + pageSize, userHeapMax, numPages - 1, true⟩], [⟨userHeapStart, 1⟩]⟩
        (.free userHeapStart) = some (Session.worn (before + 1)) := by
      unfold Session.exec
      simp only [isLive, if_true, free_worn]
      rfl
    exact first.step (.free userHeapStart) (show (Request.free userHeapStart).Sized from trivial) executes
  induction count with
  | zero => exact freed 0 (.step (.malloc 1) (.start rfl) (by decide) (by decide))
  | succ count ih =>
      have before := ih (by omega)
      apply freed (count + 1)
      have short : ¬ count + 1 + 1 = numPages := by omega
      refine before.step (.malloc 1) (by decide) ?_
      simp only [sessions, Session.exec, malloc_worn, if_neg short]
      rfl

/-- A program that allocates and frees one byte over and over writes beyond `spaces`. -/
theorem Session.not_inBounds_worn :
    ¬ ∀ session, sessions.Reaches (fun _ request => request.Sized) session →
      ∀ request : Request, request.Sized → session.InBounds request := by
  intro always
  have inside := (always _ (Session.reaches_worn (numPages - 2) (by decide)) (.malloc 1) (by decide)).2
  refine inside (malloc_worn.trans (if_pos ?_))
  decide

end Fos.UserHeap
