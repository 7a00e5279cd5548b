/-! Weakest preconditions of programs over a state that may fail: what a program has to
meet when it returns and when it does not. -/

set_option autoImplicit false

namespace Fos.Foundation

variable {Failure State Result Other : Type}

/-- From `state` the program returns into `post` or fails into `fail`. -/
def wp (program : EStateM Failure State Result) (post : Result → State → Prop)
    (fail : Failure → State → Prop) (state : State) : Prop :=
  match program state with
  | .ok result next => post result next
  | .error failure next => fail failure next

section Rules

variable {post : Result → State → Prop} {fail : Failure → State → Prop} {state : State}

theorem wp_mono {program : EStateM Failure State Result} {strong : Result → State → Prop}
    {strongFail : Failure → State → Prop} (holds : wp program strong strongFail state)
    (implied : ∀ result next, strong result next → post result next)
    (impliedFail : ∀ failure next, strongFail failure next → fail failure next) :
    wp program post fail state := by
  unfold wp at holds ⊢
  split at holds
  · exact implied _ _ holds
  · exact impliedFail _ _ holds

/-- For a program that does not fail. -/
theorem wp_mono_returns {program : EStateM Failure State Result} {strong : Result → State → Prop}
    (holds : wp program strong (fun _ _ => False) state)
    (implied : ∀ result next, strong result next → post result next) : wp program post fail state :=
  wp_mono holds implied fun _ _ impossible => impossible.elim

/-- For a program that does not return. -/
theorem wp_mono_fails {program : EStateM Failure State Result} {strongFail : Failure → State → Prop}
    (holds : wp program (fun _ _ => False) strongFail state)
    (implied : ∀ failure next, strongFail failure next → fail failure next) : wp program post fail state :=
  wp_mono holds (fun _ _ impossible => impossible.elim) implied

/-- Two things that hold of a program both hold of it. -/
theorem wp_both {program : EStateM Failure State Result} {other : Result → State → Prop}
    {otherFail : Failure → State → Prop} (first : wp program post fail state) (second : wp program other otherFail state) :
    wp program (fun result next => post result next ∧ other result next)
      (fun failure next => fail failure next ∧ otherFail failure next) state := by
  unfold wp at first second ⊢
  cases outcome : program state with
  | ok result next =>
      rw [outcome] at first second
      exact ⟨first, second⟩
  | error failure next =>
      rw [outcome] at first second
      exact ⟨first, second⟩

/-- What follows however the program ends is true. -/
theorem wp_const {program : EStateM Failure State Result} {conclusion : Prop}
    (holds : wp program (fun _ _ => conclusion) (fun _ _ => conclusion) state) : conclusion := by
  unfold wp at holds
  split at holds
  · exact holds
  · exact holds

theorem wp_and {program : EStateM Failure State Result} {other : Result → State → Prop}
    (first : wp program post fail state) (second : wp program other fail state) :
    wp program (fun result next => post result next ∧ other result next) fail state :=
  wp_mono (wp_both first second) (fun _ _ => id) fun _ _ => And.left

@[simp] theorem wp_pure (result : Result) :
    wp (pure result) post fail state ↔ post result state := Iff.rfl

@[simp] theorem wp_throw (failure : Failure) :
    wp (throw failure : EStateM Failure State Result) post fail state ↔ fail failure state :=
  Iff.rfl

@[simp] theorem wp_get {post : State → State → Prop} :
    wp (get : EStateM Failure State State) post fail state ↔ post state state := Iff.rfl

@[simp] theorem wp_modify {post : Unit → State → Prop} (change : State → State) :
    wp (modify change : EStateM Failure State Unit) post fail state ↔
      post () (change state) := Iff.rfl

@[simp] theorem wp_bind (program : EStateM Failure State Other)
    (continuation : Other → EStateM Failure State Result) :
    wp (program >>= continuation) post fail state ↔
      wp program (fun result next => wp (continuation result) post fail next) fail state := by
  simp only [wp, bind, EStateM.bind]
  cases program state <;> rfl

@[simp] theorem wp_map (function : Other → Result) (program : EStateM Failure State Other) :
    wp (function <$> program) post fail state ↔
      wp program (fun result next => post (function result) next) fail state := by
  simp only [wp, Functor.map, EStateM.map]
  cases program state <;> rfl

theorem wp_ite {condition : Prop} [Decidable condition]
    {yes no : EStateM Failure State Result} :
    wp (if condition then yes else no) post fail state ↔
      (condition → wp yes post fail state) ∧ (¬ condition → wp no post fail state) := by
  split <;> simp [*]

/-- A program whose outcome is known. -/
theorem wp_of_ok {program : EStateM Failure State Result} {result : Result} {next : State}
    (outcome : program state = .ok result next) :
    wp program post fail state ↔ post result next := by
  simp only [wp, outcome]

theorem wp_of_error {program : EStateM Failure State Result} {failure : Failure} {next : State}
    (outcome : program state = .error failure next) :
    wp program post fail state ↔ fail failure next := by
  simp only [wp, outcome]

theorem eq_ok_of_wp {program : EStateM Failure State Result} {value : Result} {next : State}
    (holds : wp program (fun result after => result = value ∧ after = next) (fun _ _ => False) state) :
    program state = .ok value next := by
  unfold wp at holds
  split at holds
  · next outcome =>
      obtain ⟨rfl, rfl⟩ := holds
      exact outcome
  · exact holds.elim

theorem eq_error_of_wp {program : EStateM Failure State Result}
    (holds : wp program (fun _ _ => False) (fun _ _ => True) state) :
    ∃ failure next, program state = .error failure next := by
  unfold wp at holds
  split at holds
  · exact holds.elim
  · next outcome => exact ⟨_, _, outcome⟩

/-- What a program that returns does meets all that is known of it. -/
theorem exists_of_wp {program : EStateM Failure State Result} {other : Result → State → Prop}
    (holds : wp program post fail state) (returns : wp program other (fun _ _ => False) state) :
    ∃ result next, post result next ∧ other result next := by
  unfold wp at holds returns
  cases outcome : program state with
  | ok result next =>
      rw [outcome] at holds returns
      exact ⟨result, next, holds, returns⟩
  | error failure next =>
      rw [outcome] at returns
      exact returns.elim

theorem not_wp_of_fails {program : EStateM Failure State Result} (fails : wp program (fun _ _ => False) fail state) :
    ¬ wp program post (fun _ _ => False) state := by
  intro returns
  unfold wp at fails returns
  cases outcome : program state with
  | ok result next =>
      rw [outcome] at fails
      exact fails
  | error failure next =>
      rw [outcome] at returns
      exact returns

instance {program : EStateM Failure State Result} [∀ result next, Decidable (post result next)]
    [∀ failure next, Decidable (fail failure next)] : Decidable (wp program post fail state) :=
  match outcome : program state with
  | .ok result next => decidable_of_iff (post result next) (wp_of_ok outcome).symm
  | .error failure next => decidable_of_iff (fail failure next) (wp_of_error outcome).symm

/-- What a program does from a state it is proved for. -/
theorem wp_cases {program : EStateM Failure State Result} (holds : wp program post fail state) :
    (∃ result next, program state = .ok result next ∧ post result next) ∨
      ∃ failure next, program state = .error failure next ∧ fail failure next := by
  unfold wp at holds
  split at holds
  · next result next outcome => exact .inl ⟨result, next, outcome, holds⟩
  · next failure next outcome => exact .inr ⟨failure, next, outcome, holds⟩

end Rules

/-- The state a program ends in, whether it returns or fails. -/
def ended : EStateM.Result Failure State Result → State
  | .ok _ state => state
  | .error _ state => state

theorem ended_of_wp {program : EStateM Failure State Result} {state : State} (good : State → Prop)
    (holds : wp program (fun _ next => good next) (fun _ next => good next) state) : good (ended (program state)) := by
  unfold wp at holds
  cases outcome : program state with
  | ok result next =>
      rw [outcome] at holds
      exact holds
  | error failure next =>
      rw [outcome] at holds
      exact holds

/-- The program does not fail. -/
structure Returns (program : EStateM Failure State Result) (state : State) : Prop where
  holds : wp program (fun _ _ => True) (fun _ _ => False) state

instance (program : EStateM Failure State Result) (state : State) : Decidable (Returns program state) :=
  decidable_of_iff (wp program (fun _ _ => True) (fun _ _ => False) state) ⟨.mk, Returns.holds⟩

theorem Returns.get {continuation : State → EStateM Failure State Result} {state : State}
    (returns : Returns (MonadState.get >>= continuation) state) : Returns (continuation state) state :=
  ⟨returns.holds⟩

/-! ### Programs that do not look at a part of the state -/

/-- Changing the state before the program is changing it afterwards. -/
def Commutes (change : State → State) (program : EStateM Failure State Result) : Prop :=
  ∀ state, program (change state) = match program state with
    | .ok result next => .ok result (change next)
    | .error failure next => .error failure (change next)

namespace Commutes

variable {change : State → State} {program : EStateM Failure State Result}

theorem wp {post : Result → State → Prop} {fail : Failure → State → Prop} {state : State}
    (commutes : Commutes change program) :
    wp program post fail (change state) ↔ Foundation.wp program (fun result next => post result (change next))
      (fun failure next => fail failure (change next)) state := by
  unfold Foundation.wp
  rw [commutes state]
  cases program state <;> rfl

theorem pure (result : Result) : Commutes change (pure result : EStateM Failure State Result) := fun _ => rfl

theorem throw (failure : Failure) :
    Commutes change (throw failure : EStateM Failure State Result) := fun _ => rfl

theorem modify {update : State → State} (apart : ∀ state, update (change state) = change (update state)) :
    Commutes change (modify update : EStateM Failure State Unit) := by
  intro state
  have same : (MonadState.modifyGet (fun other => ((), update other)) : EStateM Failure State Unit) (change state) =
      .ok () (update (change state)) := rfl
  exact same.trans (congrArg _ (apart state))

theorem bind {continuation : Result → EStateM Failure State Other} (first : Commutes change program)
    (rest : ∀ result, Commutes change (continuation result)) : Commutes change (program >>= continuation) := by
  intro state
  simp only [Bind.bind, EStateM.bind]
  rw [first state]
  cases program state with
  | ok result next => exact rest result next
  | error failure next => rfl

theorem throw_bind {failure : Failure} {continuation : Other → EStateM Failure State Result} :
    Commutes change ((MonadExcept.throw failure : EStateM Failure State Other) >>= continuation) := fun _ => rfl

theorem ite {condition : Prop} [Decidable condition] {yes no : EStateM Failure State Result}
    (whenYes : Commutes change yes) (whenNo : Commutes change no) :
    Commutes change (if condition then yes else no) := by
  split
  · exact whenYes
  · exact whenNo

/-- What is read from the state is not what is changed. -/
theorem get {continuation : State → EStateM Failure State Other}
    (same : ∀ state, continuation (change state) = continuation state)
    (rest : ∀ state, Commutes change (continuation state)) : Commutes change (MonadState.get >>= continuation) := by
  intro state
  have start (other : State) : (MonadState.get >>= continuation) other = continuation other other := rfl
  rw [start, start, same state]
  exact rest state state

/-- The program returns, and so does what comes after it in another program. -/
theorem of_returns {Shadow : Type} {shadow : Result → EStateM Failure State Shadow} {post : Result → State → Prop}
    {fail : Failure → State → Prop} {state : State} (commutes : Commutes change program)
    (returns : Returns (program >>= shadow) state)
    (continues : ∀ result next, Returns (shadow result) next → post result (change next)) :
    Foundation.wp program post fail (change state) := by
  have ran := returns.holds
  rw [wp_bind] at ran
  rw [commutes.wp]
  exact wp_mono_returns ran (fun result next holds => continues result next ⟨holds⟩)

end Commutes

/-! ### Programs that leave a part of the state as it is -/

/-- The program does not change a part of the state, and fails only in some ways. -/
structure Leaves {Part : Type} (part : State → Part) (ways : Failure → Prop) (program : EStateM Failure State Result) :
    Prop where
  from_state : ∀ state, wp program (fun _ next => part next = part state)
    (fun failure next => part next = part state ∧ ways failure) state

namespace Leaves

variable {Part : Type} {part : State → Part} {ways : Failure → Prop} {program : EStateM Failure State Result}

theorem pure (result : Result) : Leaves part ways (pure result : EStateM Failure State Result) := ⟨fun _ => rfl⟩

theorem throw {failure : Failure} (way : ways failure) :
    Leaves part ways (throw failure : EStateM Failure State Result) := ⟨fun _ => ⟨rfl, way⟩⟩

theorem modify {update : State → State} (same : ∀ state, part (update state) = part state) :
    Leaves part ways (modify update : EStateM Failure State Unit) := ⟨same⟩

theorem bind {continuation : Result → EStateM Failure State Other} (first : Leaves part ways program)
    (rest : ∀ result, Leaves part ways (continuation result)) : Leaves part ways (program >>= continuation) := by
  constructor
  intro state
  rw [wp_bind]
  apply wp_mono (first.from_state state)
  · intro result next same
    apply wp_mono ((rest result).from_state next)
    · exact fun _ _ again => again.trans same
    · exact fun _ _ failed => ⟨failed.1.trans same, failed.2⟩
  · exact fun _ _ failed => failed

/-- Nothing happens after a failure. -/
theorem throw_bind {failure : Failure} {continuation : Other → EStateM Failure State Result} (way : ways failure) :
    Leaves part ways ((MonadExcept.throw failure : EStateM Failure State Other) >>= continuation) :=
  ⟨fun _ => ⟨rfl, way⟩⟩

theorem get {continuation : State → EStateM Failure State Other} (rest : ∀ state, Leaves part ways (continuation state)) :
    Leaves part ways (MonadState.get >>= continuation) := ⟨fun state => (rest state).from_state state⟩

theorem ite {condition : Prop} [Decidable condition] {yes no : EStateM Failure State Result}
    (whenYes : Leaves part ways yes) (whenNo : Leaves part ways no) :
    Leaves part ways (if condition then yes else no) := by
  split
  · exact whenYes
  · exact whenNo

/-- Less of the state, and more ways to fail. -/
theorem weaken {Smaller : Type} (smaller : Part → Smaller) {more : Failure → Prop} (leaves : Leaves part ways program)
    (weaker : ∀ failure, ways failure → more failure) : Leaves (fun state => smaller (part state)) more program := by
  constructor
  intro state
  apply wp_mono (leaves.from_state state)
  · exact fun _ _ same => congrArg smaller same
  · exact fun _ _ failed => ⟨congrArg smaller failed.1, weaker _ failed.2⟩

end Leaves

/-! ### Programs that follow a relation -/

/-- What the program makes of a state when it returns is in a relation to it. -/
structure Follows (relation : State → State → Prop) (program : EStateM Failure State Result) : Prop where
  from_state : ∀ state, wp program (fun _ next => relation state next) (fun _ _ => True) state

namespace Follows

variable {relation : State → State → Prop} {program : EStateM Failure State Result}

theorem pure (refl : ∀ state, relation state state) (result : Result) :
    Follows relation (pure result : EStateM Failure State Result) := ⟨refl⟩

theorem bind {continuation : Result → EStateM Failure State Other}
    (trans : ∀ {before middle after}, relation before middle → relation middle after → relation before after)
    (first : Follows relation program) (rest : ∀ result, Follows relation (continuation result)) :
    Follows relation (program >>= continuation) := by
  constructor
  intro state
  rw [wp_bind]
  apply wp_mono (first.from_state state)
  · intro result next before
    apply wp_mono ((rest result).from_state next)
    · exact fun _ _ after => trans before after
    · exact fun _ _ failed => failed
  · exact fun _ _ failed => failed

theorem get {continuation : State → EStateM Failure State Other} (rest : ∀ state, Follows relation (continuation state)) :
    Follows relation (MonadState.get >>= continuation) := ⟨fun state => (rest state).from_state state⟩

theorem ite {condition : Prop} [Decidable condition] {yes no : EStateM Failure State Result}
    (whenYes : Follows relation yes) (whenNo : Follows relation no) : Follows relation (if condition then yes else no) := by
  split
  · exact whenYes
  · exact whenNo

/-- A relation that only looks at a part of the state the program leaves alone. -/
theorem of_leaves {Part : Type} {part : State → Part} {ways : Failure → Prop} (leaves : Leaves part ways program)
    (same : ∀ {state next}, part next = part state → relation state next) : Follows relation program := by
  constructor
  intro state
  apply wp_mono (leaves.from_state state)
  · exact fun _ _ => same
  · exact fun _ _ _ => trivial

end Follows

end Fos.Foundation
