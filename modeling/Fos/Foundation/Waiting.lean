import Fos.Foundation.Runs
import Mathlib.Data.List.Rotate

/-! Runs with their events, and waiting with a rank: it falls at some events and never rises, so that the
waiting ends before the events it falls at are more than the rank. Lists that are rotated again and again give
every element its turn. -/

set_option autoImplicit false

namespace Fos.Foundation

namespace System

variable {State Event : Type}

/-- The events of a run, each of them allowed in the state it occurs in. -/
inductive Runs (system : System State Event) (allowed : State → Event → Prop) : State → List Event → State → Prop where
  | nil (state : State) : Runs system allowed state [] state
  | cons {state next last : State} {event : Event} {events : List Event} (permitted : allowed state event)
      (executes : system.exec state event = some next) (rest : Runs system allowed next events last) :
      Runs system allowed state (event :: events) last

variable {system : System State Event} {allowed : State → Event → Prop} {state middle last : State}
  {event : Event} {events : List Event}

/-- A run of the events of which one is the first to be good. -/
structure Ends (system : System State Event) (allowed : State → Event → Prop) (ticks : Event → Bool)
    (good : State → Event → State → Prop) (state : State) (events : List Event) (last : State) (rank : Nat) : Prop where
  found : ∃ before event after middle next, events = before ++ event :: after ∧
    system.Runs allowed state before middle ∧ allowed middle event ∧ system.exec middle event = some next ∧
    system.Runs allowed next after last ∧ before.countP ticks ≤ rank ∧ good middle event next

/-- What waits with a rank that no event raises, and that every tick lowers, is served before there are more
ticks than the rank. -/
theorem Runs.ends {ticks : Event → Bool} {good : State → Event → State → Prop} (waits : State → Nat → Prop)
    (step : ∀ state event next rank, waits state rank → allowed state event → system.exec state event = some next →
      good state event next ∨ ∃ later, waits next later ∧ later + (if ticks event then 1 else 0) ≤ rank)
    {rank : Nat} (waiting : waits state rank) (runs : system.Runs allowed state events last)
    (long : rank < events.countP ticks) : system.Ends allowed ticks good state events last rank := by
  induction runs generalizing rank with
  | nil state => exact absurd long (Nat.not_lt_zero _)
  | @cons state next last event events permitted executes rest ih =>
      cases step state event next rank waiting permitted executes with
      | inl served =>
          exact ⟨[], event, events, state, next, rfl, .nil state, permitted, executes, rest, Nat.zero_le _, served⟩
      | inr still =>
          obtain ⟨later, waiting, falls⟩ := still
          rw [List.countP_cons] at long
          obtain ⟨before, event', after, middle, next', rfl, ran, allowed', executed, rest, few, served⟩ :=
            (ih waiting (by omega)).found
          refine ⟨event :: before, event', after, middle, next', rfl, .cons permitted executes ran, allowed',
            executed, rest, ?_, served⟩
          rw [List.countP_cons]
          omega

end System

/-! ### Turns -/

/-- Lists of which each is the one before with its last element in front. -/
structure Turns {Element : Type} (turns : Nat → List Element) : Prop where
  rotate : ∀ tick, (turns (tick + 1)).rotate 1 = turns tick
  nodup : (turns 0).Nodup

namespace Turns

variable {Element : Type} {turns : Nat → List Element} {element : Element}

theorem rotate_add (taken : Turns turns) (tick later : Nat) : (turns (tick + later)).rotate later = turns tick := by
  induction later with
  | zero => exact List.rotate_zero _
  | succ later ih => rw [Nat.add_comm later 1, ← List.rotate_rotate, Nat.add_comm 1 later, ← Nat.add_assoc, taken.rotate, ih]

theorem perm (taken : Turns turns) (tick : Nat) : (turns tick).Perm (turns 0) := by
  have turned := taken.rotate_add 0 tick
  rw [Nat.zero_add] at turned
  rw [← turned]
  exact (List.rotate_perm _ _).symm

theorem length_eq (taken : Turns turns) (tick : Nat) : (turns tick).length = (turns 0).length :=
  (taken.perm tick).length_eq

/-- Where an element is some ticks later. -/
theorem getElem?_add (taken : Turns turns) (tick later : Nat) {index : Nat} (inside : index < (turns 0).length) :
    (turns tick)[index]? = (turns (tick + later))[(index + later) % (turns 0).length]? := by
  have same := taken.length_eq (tick + later)
  rw [← taken.rotate_add tick later, List.getElem?_rotate (same.symm ▸ inside), same]

/-- An element in front is not in front again before as many ticks as there are elements. -/
theorem eq_of_head? (taken : Turns turns) {tick later : Nat} (short : later < (turns 0).length)
    (first : (turns tick).head? = some element) (second : (turns (tick + later)).head? = some element) : later = 0 := by
  have moved := taken.getElem?_add tick later (Nat.zero_lt_of_lt short)
  rw [Nat.zero_add, Nat.mod_eq_of_lt short, ← List.head?_eq_getElem?, first, ← second, List.head?_eq_getElem?] at moved
  have nodup := (taken.perm (tick + later)).nodup_iff.2 taken.nodup
  exact ((List.getElem?_inj ((taken.length_eq _).symm ▸ Nat.zero_lt_of_lt short) nodup).1 moved).symm

/-- In as many ticks as there are elements each of them is in front exactly once. -/
theorem existsUnique_head? (taken : Turns turns) (member : element ∈ turns 0) (start : Nat) :
    ∃! tick, (start ≤ tick ∧ tick < start + (turns 0).length) ∧ (turns tick).head? = some element := by
  obtain ⟨index, isThere⟩ := List.mem_iff_getElem?.1 ((taken.perm start).mem_iff.2 member)
  have inside : index < (turns 0).length := by
    rw [← taken.length_eq start]
    exact (List.getElem?_eq_some_iff.1 isThere).1
  have found : ∃ later < (turns 0).length, (turns (start + later)).head? = some element := by
    cases index with
    | zero => exact ⟨0, inside, List.head?_eq_getElem?.trans isThere⟩
    | succ index =>
        refine ⟨(turns 0).length - (index + 1), Nat.sub_lt (Nat.zero_lt_of_lt inside) (Nat.succ_pos _), ?_⟩
        rw [taken.getElem?_add start ((turns 0).length - (index + 1)) inside, Nat.add_sub_cancel' inside.le,
          Nat.mod_self] at isThere
        exact List.head?_eq_getElem?.trans isThere
  obtain ⟨later, short, front⟩ := found
  refine ⟨start + later, ⟨⟨Nat.le_add_right _ _, Nat.add_lt_add_left short _⟩, front⟩, ?_⟩
  rintro other ⟨⟨notBefore, notAfter⟩, alsoFront⟩
  cases Nat.le_total other (start + later) with
  | inl before =>
      obtain ⟨gap, same⟩ := Nat.exists_eq_add_of_le before
      rw [same] at front
      have none := taken.eq_of_head? (by omega) alsoFront front
      omega
  | inr behind =>
      obtain ⟨gap, rfl⟩ := Nat.exists_eq_add_of_le behind
      have none := taken.eq_of_head? (by omega) front alsoFront
      rw [none, Nat.add_zero]

end Turns

end Fos.Foundation
