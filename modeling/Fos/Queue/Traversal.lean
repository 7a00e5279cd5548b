import Fos.Foundation.Weakest
import Fos.Queue.ListsProperties

/-! `LIST_FOREACH`, and lists that are all in use while it runs. -/

set_option autoImplicit false

namespace Fos.Queue

open Foundation

variable {Name Element : Type} [DecidableEq Name] [DecidableEq Element]

namespace Memory

variable (memory : Memory Name Element)

@[simps!] def setPtrNext (list : Name) (value : Option Element) : Memory Name Element :=
  memory.setHead list { memory.heads list with ptrNext := value }

/-- The link fields of an element that is overwritten with zeros. -/
def clearLinks (element : Element) : Memory Name Element :=
  { memory with links := Function.update memory.links element ⟨none, none⟩ }

variable {memory}

omit [DecidableEq Element] in
/-- Of a head, the macros leave what `LIST_FOREACH` saved. -/
private theorem setHead_ptrNext {list other : Name} {head : ListHead Element}
    (same : head.ptrNext = (memory.heads list).ptrNext) :
    ((memory.setHead list head).heads other).ptrNext = (memory.heads other).ptrNext := by
  cases decEq other list with
  | isTrue equal =>
      subst equal
      rw [setHead_heads, Function.update_self, same]
  | isFalse different => rw [setHead_heads, Function.update_of_ne different]

@[simp] theorem listInsertHead_ptrNext (list other : Name) (elm : Element) :
    ((memory.listInsertHead list elm).heads other).ptrNext = (memory.heads other).ptrNext := by
  rw [listInsertHead_eq]
  exact setHead_ptrNext rfl

@[simp] theorem listRemove_ptrNext (list other : Name) (elm : Element) :
    ((memory.listRemove list elm).heads other).ptrNext = (memory.heads other).ptrNext := by
  have last (memory : Memory Name Element) (value : Option Element) :
      ((memory.setLast list value).heads other).ptrNext = (memory.heads other).ptrNext := setHead_ptrNext rfl
  have first (memory : Memory Name Element) (value : Option Element) :
      ((memory.setFirst list value).heads other).ptrNext = (memory.heads other).ptrNext := setHead_ptrNext rfl
  have size (memory : Memory Name Element) :
      ((memory.shrink list).heads other).ptrNext = (memory.heads other).ptrNext := setHead_ptrNext rfl
  simp only [listRemove, size, setNext_heads, setPrev_heads]
  split <;> split <;> simp only [last, first, setNext_heads, setPrev_heads]

end Memory

omit [DecidableEq Element] in
/-- What `LIST_FOREACH` saves in a head is not part of a list. -/
theorem Memory.Holds.setPtrNext {memory : Memory Name Element} {list other : Name} {elements : List Element}
    (holds : memory.Holds other elements) (value : Option Element) : (memory.setPtrNext list value).Holds other elements := by
  have head : ∀ {Field : Type} (field : ListHead Element → Field),
      (∀ head : ListHead Element, field { head with ptrNext := value } = field head) →
      field ((memory.setPtrNext list value).heads other) = field (memory.heads other) := by
    intro Field field unchanged
    cases decEq other list with
    | isTrue same =>
        subst same
        simp [unchanged]
    | isFalse different => simp [different]
  exact {
    nodup := holds.nodup
    first := (head ListHead.lhFirst fun _ => rfl).trans holds.first
    last := (head ListHead.lhLast fun _ => rfl).trans holds.last
    size := (head ListHead.size fun _ => rfl).trans holds.size
    chain := holds.chain }

/-! ### The lists of a memory -/

/-- Every list in memory is the sequence given, and no two share an element. -/
def Memory.Holding (memory : Memory Name Element) (contents : Name → List Element) : Prop :=
  Lists.Sound { memory, contents := fun list => some (contents list) }

namespace Memory.Holding

variable {memory next : Memory Name Element} {contents : Name → List Element} {list other : Name} {element : Element}

omit [DecidableEq Name] [DecidableEq Element] in
theorem holds (holding : memory.Holding contents) (list : Name) : memory.Holds list (contents list) :=
  Lists.Sound.holds holding list _ rfl

omit [DecidableEq Name] [DecidableEq Element] in
theorem nodup (holding : memory.Holding contents) (list : Name) : (contents list).Nodup :=
  (holding.holds list).nodup

omit [DecidableEq Name] [DecidableEq Element] in
theorem apart (holding : memory.Holding contents) (different : list ≠ other) (inList : element ∈ contents list) :
    element ∉ contents other :=
  Lists.Sound.apart holding list other _ _ different rfl rfl element inList

omit [DecidableEq Element] in
theorem of_changes (holding : memory.Holding contents) {result : List Element}
    (changes : Lists.Changes ⟨memory, fun list => some (contents list)⟩ next list result) :
    next.Holding (Function.update contents list result) := by
  have sound := Lists.Sound.changes holding changes
  have same : Function.update (fun list => some (contents list)) list (some result) =
      fun other => some (Function.update contents list result other) :=
    (Function.comp_update some contents list result).symm
  rw [same] at sound
  exact sound

theorem insertHead (holding : memory.Holding contents) (list : Name) (unlinked : ∀ list, element ∉ contents list) :
    (memory.listInsertHead list element).Holding (Function.update contents list (element :: contents list)) := by
  have proper : (Call.insertHead list element).Proper ⟨memory, fun list => some (contents list)⟩ := by
    refine ⟨fun other elements content => ?_, Option.some_ne_none _⟩
    cases content
    exact unlinked other
  exact holding.of_changes (Lists.Sound.run holding proper)

theorem remove (holding : memory.Holding contents) (member : element ∈ contents list) :
    (memory.listRemove list element).Holding
      (Function.update contents list ((contents list).erase element)) := by
  have proper : (Call.remove list element).Proper ⟨memory, fun list => some (contents list)⟩ := ⟨_, rfl, member⟩
  exact holding.of_changes (Lists.Sound.run holding proper)

omit [DecidableEq Element] in
theorem setPtrNext (holding : memory.Holding contents) (value : Option Element) :
    (memory.setPtrNext list value).Holding contents where
  holds other elements content := by
    cases content
    exact (holding.holds other).setPtrNext value
  apart first second firsts seconds := Lists.Sound.apart holding first second firsts seconds

omit [DecidableEq Name] in
theorem clearLinks (holding : memory.Holding contents) (unlinked : ∀ list, element ∉ contents list) :
    (memory.clearLinks element).Holding contents where
  holds list elements content := by
    cases content
    have frame : ∀ other ∈ contents list, (memory.clearLinks element).links other = memory.links other := by
      intro other member
      have different : other ≠ element := fun same => unlinked list (same ▸ member)
      exact Function.update_of_ne different ..
    exact (holding.holds list).frame rfl frame
  apart first second firsts seconds := Lists.Sound.apart holding first second firsts seconds

omit [DecidableEq Name] [DecidableEq Element] in
/-- The element after one in the middle of a list. -/
theorem next_eq (holding : memory.Holding contents) {front back : List Element}
    (content : contents list = front ++ element :: back) : memory.next element = back.head? :=
  (content ▸ holding.holds list).middle.next

end Memory.Holding

/-! ### The loop -/

section Loop

variable {State Failure Local : Type} (view : State → Memory Name Element)
  (change : (Memory Name Element → Memory Name Element) → State → State) (endless : Failure)

/-- `LIST_FOREACH`: from the loop variable and the local variables of the loop, what they are after
it. The body ends with `done` where it breaks. -/
def listForeach (list : Name) (body : Element → Local → EStateM Failure State (ForInStep Local)) :
    Nat → Option Element → Local → EStateM Failure State (Option Element × Local)
  | 0, _, _ => throw endless
  | fuel + 1, var, locals => do
      let next := var.bind (view (← get)).next
      modify (change (·.setPtrNext list next))
      match var with
      | none => return (none, locals)
      | some element =>
          match ← body element locals with
          | .done locals => return (some element, locals)
          | .yield locals =>
              let next := ((view (← get)).heads list).ptrNext
              listForeach list body fuel next locals

variable {view change endless}

omit [DecidableEq Element] in
/-- The loop visits the elements that are still to come as long as the body leaves the saved
successor alone and the links of the elements behind it right. -/
theorem wp_listForeach {list : Name} {body : Element → Local → EStateM Failure State (ForInStep Local)}
    {post : Option Element × Local → State → Prop} {fail : Failure → State → Prop}
    (invariant : List Element → Local → State → Prop)
    (saved : ∀ edit state, view (change edit state) = edit (view state))
    (linked : ∀ element rest locals state, invariant (element :: rest) locals state →
      (view state).next element = rest.head?)
    (saves : ∀ rest locals state value, invariant rest locals state →
      invariant rest locals (change (·.setPtrNext list value) state))
    (visit : ∀ element rest locals state, invariant (element :: rest) locals state →
      ((view state).heads list).ptrNext = rest.head? →
      wp (body element locals) (fun step next => match step with
        | .done locals => post (some element, locals) next
        | .yield locals => invariant rest locals next ∧ ((view next).heads list).ptrNext = rest.head?) fail state)
    (ends : ∀ locals state, invariant [] locals state → post (none, locals) state)
    (rest : List Element) :
    ∀ fuel, rest.length < fuel → ∀ locals state, invariant rest locals state →
      wp (listForeach view change endless list body fuel rest.head? locals) post fail state := by
  induction rest with
  | nil =>
      intro fuel enough locals state holds
      obtain ⟨fuel, rfl⟩ := Nat.exists_eq_add_of_lt enough
      simp only [List.head?_nil, listForeach, wp_bind, wp_get, wp_modify, wp_pure]
      exact ends _ _ (saves _ _ _ _ holds)
  | cons element rest ih =>
      intro fuel enough locals state holds
      obtain ⟨fuel, rfl⟩ := Nat.exists_eq_succ_of_ne_zero (Nat.ne_zero_of_lt enough)
      have following := linked element rest locals state holds
      simp only [List.head?_cons, listForeach, wp_bind, wp_get, wp_modify, Option.bind_some, following]
      have ready : ((view (change (·.setPtrNext list rest.head?) state)).heads list).ptrNext = rest.head? := by
        rw [saved]
        simp
      apply wp_mono (visit element rest locals _ (saves _ _ _ _ holds) ready) _ fun _ _ failed => failed
      intro step next after
      cases step with
      | done locals => exact after
      | yield locals =>
          obtain ⟨kept, successor⟩ := after
          simp only [wp_bind, wp_get, successor]
          exact ih fuel (Nat.lt_of_succ_lt_succ enough) locals next kept

end Loop

/-! ### Bodies that take the current element out of the list -/

section Visits

variable {Data Failure : Type} {endless : Failure}

/-- The list is as before, or without the element, and what the loop saved is still there. -/
structure Memory.RemovesAtMost (memory next : Memory Name Element) (list : Name) (elements : List Element)
    (element : Element) : Prop where
  holds : next.Holds list elements ∨ next.Holds list (elements.erase element)
  saved : (next.heads list).ptrNext = (memory.heads list).ptrNext

/-- `LIST_FOREACH` over a list and all else the body works on, with the elements the body was run for. -/
def listForeachVisited (endless : Failure) (list : Name)
    (body : Element → EStateM Failure (Memory Name Element × Data) Unit) (fuel : Nat) :
    EStateM Failure (Memory Name Element × Data) (Option Element × List Element) := do
  let first := (← get).1.first list
  listForeach Prod.fst (fun edit state => (edit state.1, state.2)) endless list (fun element visited => do
    body element
    return .yield (visited ++ [element])) fuel first []

/-- The body is run once for every element that was in the list, in order, and the loop ends. -/
theorem listForeach_visits {list : Name} {body : Element → EStateM Failure (Memory Name Element × Data) Unit}
    {fail : Failure → Memory Name Element × Data → Prop} (good : Memory Name Element × Data → Prop)
    (saves : ∀ state value, good state → good (state.1.setPtrNext list value, state.2))
    (removes : ∀ element elements state, good state → state.1.Holds list elements → element ∈ elements →
      wp (body element) (fun _ next => good next ∧ state.1.RemovesAtMost next.1 list elements element) fail state)
    {elements : List Element} {state : Memory Name Element × Data} (initial : good state)
    (holds : state.1.Holds list elements) {fuel : Nat} (enough : elements.length < fuel) :
    wp (listForeachVisited endless list body fuel) (fun result next => result = (none, elements) ∧ good next) fail
      state := by
  unfold listForeachVisited
  rw [wp_bind, wp_get, holds.first]
  apply wp_listForeach fun rest visited state =>
    good state ∧ visited ++ rest = elements ∧ ∃ front, state.1.Holds list (front ++ rest)
  · exact fun _ _ => rfl
  · rintro element rest visited state ⟨-, -, front, holds⟩
    exact holds.middle.next
  · rintro rest visited state value ⟨isGood, all, front, holds⟩
    exact ⟨saves state value isGood, all, front, holds.setPtrNext value⟩
  · rintro element rest visited state ⟨isGood, all, front, holds⟩ next
    rw [wp_bind]
    have member : element ∈ front ++ element :: rest := List.mem_append_right _ (List.mem_cons_self ..)
    apply wp_mono (removes element _ state isGood holds member) _ fun _ _ failed => failed
    rintro _ after ⟨stillGood, at_most⟩
    have once : element ∉ front := (List.nodup_middle.1 holds.nodup).notMem ∘ List.mem_append_left _
    rw [wp_pure]
    refine ⟨⟨stillGood, by rw [List.append_assoc]; exact all, ?_⟩, at_most.saved.trans next⟩
    cases at_most.holds with
    | inl kept => exact ⟨front ++ [element], by rw [List.append_assoc]; exact kept⟩
    | inr removed => exact ⟨front, erase_append once ▸ removed⟩
  · rintro visited state ⟨isGood, all, -⟩
    rw [List.append_nil] at all
    exact ⟨by rw [all], isGood⟩
  · exact enough
  · exact ⟨initial, List.nil_append _, [], holds⟩

omit [DecidableEq Name] [DecidableEq Element] in
theorem Memory.Holds.unique {memory : Memory Name Element} {list : Name} {elements others : List Element}
    (holds : memory.Holds list elements) (other : memory.Holds list others) : elements = others := by
  have walks := holds.chain.walks_next
  rw [← holds.first, other.first] at walks
  exact walks.unique other.chain.walks_next

/-- The element goes to another list, with its record overwritten by zeros before that or not. -/
def moveTo (list other : Name) (overwrites : Bool) (element : Element) :
    EStateM Failure (Memory Name Element × Data) Unit :=
  modify fun state =>
    let memory := state.1.listRemove list element
    let memory := if overwrites then memory.clearLinks element else memory
    (memory.listInsertHead other element, state.2)

/-- What `sched_run_all`, `sched_exit_all_ready_envs`, `sched_kill_all` and `env_free` do to the list they go through. -/
theorem moveTo_removes {list other : Name} (different : list ≠ other) (overwrites : Bool) (element : Element)
    (elements : List Element) (state : Memory Name Element × Data) (holding : ∃ contents, state.1.Holding contents)
    (holds : state.1.Holds list elements) (member : element ∈ elements)
    {fail : Failure → Memory Name Element × Data → Prop} :
    wp (moveTo list other overwrites element) (fun _ next => (∃ contents, next.1.Holding contents) ∧
      state.1.RemovesAtMost next.1 list elements element) fail state := by
  obtain ⟨contents, holding⟩ := holding
  have content : contents list = elements := (holding.holds list).unique holds
  have inContent : element ∈ contents list := content ▸ member
  have removed := holding.remove inContent
  have unlinked : ∀ name, element ∉ Function.update contents list ((contents list).erase element) name := by
    intro name
    cases decEq name list with
    | isTrue same =>
        rw [same, Function.update_self]
        exact (holding.nodup list).not_mem_erase
    | isFalse apart =>
        rw [Function.update_of_ne apart]
        exact holding.apart (Ne.symm apart) inContent
  have cleared : (if overwrites then (state.1.listRemove list element).clearLinks element
      else state.1.listRemove list element).Holding (Function.update contents list ((contents list).erase element)) := by
    cases overwrites with
    | false => exact removed
    | true => exact removed.clearLinks unlinked
  have moved := cleared.insertHead other unlinked
  rw [moveTo, wp_modify]
  refine ⟨⟨_, moved⟩, .inr ?_, ?_⟩
  · have last := moved.holds list
    rw [Function.update_of_ne different, Function.update_self, content] at last
    exact last
  · dsimp only
    rw [Memory.listInsertHead_ptrNext]
    cases overwrites with
    | false => exact Memory.listRemove_ptrNext ..
    | true => exact Memory.listRemove_ptrNext ..

/-- The list `true` with two elements, and the empty list `false`. -/
private def twoElements : Memory Bool Nat where
  heads list := if list then ⟨some 1, some 2, none, 2⟩ else ⟨none, none, none, 0⟩
  links element := if element = 1 then ⟨some 2, none⟩ else if element = 2 then ⟨none, some 1⟩ else ⟨none, none⟩

private theorem holding_twoElements : twoElements.Holding fun list => if list then [1, 2] else [] where
  holds list elements content := by
    cases content
    cases list with
    | false => exact ⟨List.nodup_nil, rfl, rfl, rfl, trivial⟩
    | true => exact ⟨by decide, rfl, rfl, rfl, ⟨rfl, rfl, rfl, rfl, trivial⟩⟩
  apart list other elements others different first second element inFirst inSecond := by
    cases first
    cases second
    cases list with
    | false => cases inFirst
    | true => cases other with
      | false => cases inSecond
      | true => exact different rfl

/-- Both elements go to the other list. -/
theorem listForeach_visits_two :
    wp (listForeachVisited "endless" true (moveTo true false true) 3)
      (fun result next => result = (none, [1, 2]) ∧ ∃ contents, next.1.Holding contents) (fun _ _ => False)
      (twoElements, ()) :=
  listForeach_visits (fun state => ∃ contents, state.1.Holding contents)
    (fun _ value holding => holding.imp fun _ holding => holding.setPtrNext value)
    (fun element elements state holding holds member =>
      moveTo_removes Bool.noConfusion true element elements state holding holds member)
    ⟨_, holding_twoElements⟩ (holding_twoElements.holds true) (by decide)

end Visits

end Fos.Queue
