/-! Systems whose events execute partially, the states their runs reach, and the
induction over runs. -/

set_option autoImplicit false

namespace Fos.Foundation

/-- A system: the states it may start in, and what an event does in a state. An event
that cannot occur, or does not come back, has no next state. -/
structure System (State Event : Type) where
  start : State → Prop
  exec : State → Event → Option State

namespace System

variable {State Event : Type} (system : System State Event)

/-- The states of runs in which every event was allowed in the state it occurred in. -/
inductive Reaches (allowed : State → Event → Prop) : State → Prop where
  | start {state : State} (initial : system.start state) : Reaches allowed state
  | step {state next : State} (event : Event) (reached : Reaches allowed state)
      (permitted : allowed state event) (executes : system.exec state event = some next) :
      Reaches allowed next

variable {system} {allowed : State → Event → Prop}

/-- What holds initially and is preserved by every allowed event holds of every
reached state. -/
theorem Reaches.invariant (property : State → Prop)
    (initial : ∀ state, system.start state → property state)
    (preserved : ∀ state event next, property state → allowed state event →
      system.exec state event = some next → property next)
    {state : State} (reached : system.Reaches allowed state) : property state := by
  induction reached with
  | start started => exact initial _ started
  | step event _ permitted executes ih => exact preserved _ event _ ih permitted executes

theorem Reaches.mono {weaker : State → Event → Prop}
    (implied : ∀ state event, allowed state event → weaker state event)
    {state : State} (reached : system.Reaches allowed state) : system.Reaches weaker state := by
  induction reached with
  | start started => exact .start started
  | step event _ permitted executes ih =>
      exact .step event ih (implied _ _ permitted) executes

/-- The events of a list, one after the other. -/
def run (system : System State Event) : State → List Event → Option State
  | state, [] => some state
  | state, event :: events => (system.exec state event).bind (system.run · events)

theorem Reaches.run {events : List Event} {state last : State}
    (reached : system.Reaches allowed state)
    (permitted : ∀ state, ∀ event ∈ events, allowed state event)
    (ran : system.run state events = some last) : system.Reaches allowed last := by
  induction events generalizing state with
  | nil =>
      cases ran
      exact reached
  | cons event events ih =>
      obtain ⟨next, executes, rest⟩ := Option.bind_eq_some_iff.1 ran
      have first := reached.step event (permitted state event (List.mem_cons_self ..)) executes
      exact ih first (fun state event member => permitted state event (List.mem_cons_of_mem _ member))
        rest

/-- A state that running some events shows to be reached. -/
theorem Reaches.exists_of_run {events : List Event} {state : State} {good : State → Prop}
    (initial : system.start state) (permitted : ∀ state, ∀ event ∈ events, allowed state event)
    (ran : ∃ last ∈ system.run state events, good last) :
    ∃ last, system.Reaches allowed last ∧ good last := by
  obtain ⟨last, member, holds⟩ := ran
  exact ⟨last, (Reaches.start initial).run permitted (Option.mem_def.1 member), holds⟩

/-- The events of a list, as long as each is allowed in the state it occurs in. -/
def attempt (system : System State Event) (allowed : State → Event → Prop) [∀ state event, Decidable (allowed state event)] :
    State → List Event → Option State
  | state, [] => some state
  | state, event :: events =>
      if allowed state event then (system.exec state event).bind (system.attempt allowed · events) else none

theorem Reaches.attempt [∀ state event, Decidable (allowed state event)] {events : List Event} {state last : State}
    (reached : system.Reaches allowed state) (ran : last ∈ system.attempt allowed state events) :
    system.Reaches allowed last := by
  induction events generalizing state with
  | nil =>
      cases ran
      exact reached
  | cons event events ih =>
      rw [System.attempt] at ran
      split at ran
      · next permitted =>
          obtain ⟨next, executes, rest⟩ := Option.bind_eq_some_iff.1 ran
          exact ih (reached.step event permitted executes) rest
      · cases ran

end System

end Fos.Foundation
