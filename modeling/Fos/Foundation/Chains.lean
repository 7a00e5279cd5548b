import Mathlib.Data.List.Induction
import Mathlib.Data.List.Nodup
import Mathlib.Logic.Function.Basic

/-! Doubly linked chains: elements that name their neighbours, over any type of elements. -/

set_option autoImplicit false

namespace Fos.Foundation

variable {Element : Type}

/-- The neighbours an element names. -/
structure Link (Element : Type) where
  next : Option Element
  prev : Option Element

/-- The elements name each other one after the other, the first one names `before` and the
last one `after`. -/
def Chain (links : Element → Link Element) : Option Element → List Element → Option Element → Prop
  | _, [], _ => True
  | before, element :: rest, after =>
      (links element).prev = before ∧ (links element).next = rest.head?.or after ∧
        Chain links (some element) rest after

/-- Following `step` from a start passes the elements in order and ends. -/
def Walks (step : Element → Option Element) : Option Element → List Element → Prop
  | start, [] => start = none
  | start, element :: rest => start = some element ∧ Walks step (step element) rest

namespace Walks

variable {step : Element → Option Element} {start : Option Element} {elements others : List Element}

/-- From a start there is only one walk. -/
theorem unique (walks : Walks step start elements) (other : Walks step start others) : elements = others := by
  induction elements generalizing start others with
  | nil =>
      cases others with
      | nil => rfl
      | cons element rest => cases walks.symm.trans other.1
  | cons element rest ih =>
      cases others with
      | nil => cases walks.1.symm.trans other
      | cons element' rest' =>
          cases walks.1.symm.trans other.1
          rw [ih walks.2 other.2]

theorem suffix {front back : List Element} {element : Element} (walks : Walks step start (front ++ element :: back)) :
    Walks step (some element) (element :: back) := by
  induction front generalizing start with
  | nil => exact ⟨rfl, walks.2⟩
  | cons head front ih => exact ih walks.2

/-- A walk that ends passes no element twice. -/
theorem nodup (walks : Walks step start elements) : elements.Nodup := by
  induction elements generalizing start with
  | nil => exact List.nodup_nil
  | cons element rest ih =>
      refine List.nodup_cons.2 ⟨fun again => ?_, ih walks.2⟩
      obtain ⟨front, back, rfl⟩ := List.append_of_mem again
      have longer : element :: back = element :: (front ++ element :: back) := walks.2.suffix.unique ⟨rfl, walks.2⟩
      have lengths := congrArg List.length longer
      simp only [List.length_cons, List.length_append] at lengths
      omega

end Walks

namespace Chain

variable {links changed : Element → Link Element} {before after : Option Element} {elements : List Element}

theorem append_iff (first second : List Element) :
    Chain links before (first ++ second) after ↔
      Chain links before first (second.head?.or after) ∧
        Chain links (first.getLast?.or before) second after := by
  induction first generalizing before with
  | nil => simp [Chain]
  | cons element rest ih =>
      have last : (element :: rest).getLast?.or before = rest.getLast?.or (some element) := by
        rw [List.getLast?_cons]
        cases rest.getLast? with
        | none => rfl
        | some last => rfl
      rw [List.cons_append, Chain, Chain, ih, last, List.head?_append, Option.or_assoc]
      simp only [and_assoc]

theorem congr (same : ∀ element ∈ elements, changed element = links element) :
    Chain changed before elements after ↔ Chain links before elements after := by
  induction elements generalizing before with
  | nil => exact Iff.rfl
  | cons element rest ih =>
      obtain ⟨here, others⟩ := List.forall_mem_cons.1 same
      rw [Chain, Chain, here, ih others]

/-- One element, with its neighbours. -/
theorem single {element : Element} (prev : (links element).prev = before) (next : (links element).next = after) :
    Chain links before [element] after :=
  ⟨prev, next, trivial⟩

/-- The neighbours of an element in the middle. -/
theorem middle {front back : List Element} {element : Element}
    (chain : Chain links none (front ++ element :: back) none) :
    (links element).prev = front.getLast? ∧ (links element).next = back.head? := by
  obtain ⟨-, prev, next, -⟩ := (append_iff ..).1 chain
  exact ⟨by rw [prev, Option.or_none], by rw [next, Option.or_none]⟩

theorem walks_next (chain : Chain links before elements none) :
    Walks (fun element => (links element).next) elements.head? elements := by
  induction elements generalizing before with
  | nil => rfl
  | cons element rest ih =>
      obtain ⟨-, next, others⟩ := chain
      refine ⟨rfl, ?_⟩
      dsimp only
      rw [next, Option.or_none]
      exact ih others

theorem walks_prev (chain : Chain links none elements after) :
    Walks (fun element => (links element).prev) elements.getLast? elements.reverse := by
  induction elements using List.reverseRecOn generalizing after with
  | nil => rfl
  | append_singleton front element ih =>
      obtain ⟨others, prev, -⟩ := (append_iff ..).1 chain
      rw [List.getLast?_concat, List.reverse_concat]
      refine ⟨rfl, ?_⟩
      dsimp only
      rw [prev, Option.or_none]
      exact ih others

end Chain

/-! ### Changing links -/

variable [DecidableEq Element]

def linkNext (links : Element → Link Element) (element : Element) (value : Option Element) :
    Element → Link Element :=
  Function.update links element { links element with next := value }

def linkPrev (links : Element → Link Element) (element : Element) (value : Option Element) :
    Element → Link Element :=
  Function.update links element { links element with prev := value }

section Access

variable (links : Element → Link Element) (element : Element) (value : Option Element)

@[simp] theorem linkNext_self : linkNext links element value element = { links element with next := value } :=
  Function.update_self ..

@[simp] theorem linkPrev_self : linkPrev links element value element = { links element with prev := value } :=
  Function.update_self ..

theorem linkNext_of_ne {other : Element} (different : other ≠ element) :
    linkNext links element value other = links other := Function.update_of_ne different ..

theorem linkPrev_of_ne {other : Element} (different : other ≠ element) :
    linkPrev links element value other = links other := Function.update_of_ne different ..

end Access

namespace Chain

variable {links : Element → Link Element} {before after value : Option Element} {elements : List Element}
  {element : Element}

theorem linkNext_iff (elsewhere : element ∉ elements) :
    Chain (linkNext links element value) before elements after ↔ Chain links before elements after :=
  congr fun _ member => linkNext_of_ne _ _ _ fun same => elsewhere (same ▸ member)

theorem linkPrev_iff (elsewhere : element ∉ elements) :
    Chain (linkPrev links element value) before elements after ↔ Chain links before elements after :=
  congr fun _ member => linkPrev_of_ne _ _ _ fun same => elsewhere (same ▸ member)

/-- The first element gets another neighbour before it. -/
theorem linkPrev_head (chain : Chain links before (element :: elements) after) (distinct : element ∉ elements) :
    Chain (linkPrev links element value) value (element :: elements) after := by
  obtain ⟨-, next, rest⟩ := chain
  refine ⟨by rw [linkPrev_self], by rw [linkPrev_self, next], (linkPrev_iff distinct).2 rest⟩

/-- The last element gets another neighbour after it. -/
theorem linkNext_last (chain : Chain links before (elements ++ [element]) after) (distinct : element ∉ elements) :
    Chain (linkNext links element value) before (elements ++ [element]) value := by
  obtain ⟨front, prev, -, -⟩ := (append_iff ..).1 chain
  refine (append_iff ..).2 ⟨(linkNext_iff distinct).2 front, ?_, ?_, trivial⟩
  · rw [linkNext_self, prev]
  · rw [linkNext_self]
    rfl

end Chain

/-! ### Neighbours that may be missing -/

/-- A neighbour, if there is one, gets another element after it. -/
def linkNextOf (links : Element → Link Element) : Option Element → Option Element → Element → Link Element
  | none, _ => links
  | some element, value => linkNext links element value

/-- A neighbour, if there is one, gets another element before it. -/
def linkPrevOf (links : Element → Link Element) : Option Element → Option Element → Element → Link Element
  | none, _ => links
  | some element, value => linkPrev links element value

section Neighbours

variable {links : Element → Link Element} {before after value neighbour : Option Element}
  {elements : List Element} {element : Element}

theorem linkNextOf_of_ne (different : neighbour ≠ some element) :
    linkNextOf links neighbour value element = links element := by
  cases neighbour with
  | none => rfl
  | some other => exact linkNext_of_ne _ _ _ fun same => different (congrArg some same.symm)

theorem linkPrevOf_of_ne (different : neighbour ≠ some element) :
    linkPrevOf links neighbour value element = links element := by
  cases neighbour with
  | none => rfl
  | some other => exact linkPrev_of_ne _ _ _ fun same => different (congrArg some same.symm)

namespace Chain

theorem linkNextOf_iff (elsewhere : ∀ element ∈ neighbour, element ∉ elements) :
    Chain (linkNextOf links neighbour value) before elements after ↔ Chain links before elements after :=
  congr fun element member => linkNextOf_of_ne fun same => elsewhere element same member

theorem linkPrevOf_iff (elsewhere : ∀ element ∈ neighbour, element ∉ elements) :
    Chain (linkPrevOf links neighbour value) before elements after ↔ Chain links before elements after :=
  congr fun element member => linkPrevOf_of_ne fun same => elsewhere element same member

/-- What comes before a chain changes. -/
theorem linkPrevOf_head (chain : Chain links before elements after) (nodup : elements.Nodup) :
    Chain (linkPrevOf links elements.head? value) value elements after := by
  cases elements with
  | nil => trivial
  | cons head rest => exact chain.linkPrev_head (List.nodup_cons.1 nodup).1

/-- What comes after a chain changes. -/
theorem linkNextOf_last (chain : Chain links before elements after) (nodup : elements.Nodup) :
    Chain (linkNextOf links elements.getLast? value) before elements value := by
  cases elements using List.reverseRecOn with
  | nil => trivial
  | append_singleton front last =>
      rw [List.getLast?_concat]
      apply chain.linkNext_last
      rw [List.nodup_append] at nodup
      exact fun member => nodup.2.2 last member last (List.mem_singleton_self last) rfl

end Chain

end Neighbours

end Fos.Foundation
