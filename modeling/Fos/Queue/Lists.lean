import Fos.Foundation.Chains
import Fos.Foundation.Runs
import Fos.Layout

/-! The linked lists of `inc/queue.h`: the macros over the heads of any number of lists and
the link fields of their elements. `NULL` is `none`. -/

set_option autoImplicit false

namespace Fos.Queue

open Foundation

variable {Name Element : Type}

structure ListHead (Element : Type) where
  lhFirst : Option Element
  lhLast : Option Element
  ptrNext : Option Element
  size : Nat

/-- The heads of the lists, and `prev_next_info` of every element. -/
structure Memory (Name Element : Type) where
  heads : Name → ListHead Element
  links : Element → Link Element

namespace Memory

variable [DecidableEq Name] [DecidableEq Element] (memory : Memory Name Element)

def first (list : Name) : Option Element := (memory.heads list).lhFirst
def last (list : Name) : Option Element := (memory.heads list).lhLast
def size (list : Name) : Nat := (memory.heads list).size
def next (element : Element) : Option Element := (memory.links element).next
def prev (element : Element) : Option Element := (memory.links element).prev

@[simps] def setHead (list : Name) (head : ListHead Element) : Memory Name Element :=
  { memory with heads := Function.update memory.heads list head }

@[simps!] def setFirst (list : Name) (value : Option Element) : Memory Name Element :=
  memory.setHead list { memory.heads list with lhFirst := value }

@[simps!] def setLast (list : Name) (value : Option Element) : Memory Name Element :=
  memory.setHead list { memory.heads list with lhLast := value }

@[simps!] def setSize (list : Name) (value : Nat) : Memory Name Element :=
  memory.setHead list { memory.heads list with size := value }

@[simps] def setNext (element : Element) (value : Option Element) : Memory Name Element :=
  { memory with links := linkNext memory.links element value }

@[simps] def setPrev (element : Element) (value : Option Element) : Memory Name Element :=
  { memory with links := linkPrev memory.links element value }

/-! ### The macros -/

def listInit (list : Name) : Memory Name Element :=
  let memory := memory.setFirst list none
  let memory := memory.setLast list none
  memory.setSize list 0

/-- The macros count a list's elements in an unsigned `size`, which wraps. -/
def grow (list : Name) : Memory Name Element :=
  memory.setSize list ((memory.size list + 1) % wordSize)

def shrink (list : Name) : Memory Name Element :=
  memory.setSize list ((memory.size list + (wordSize - 1)) % wordSize)

def listInsertAfter (list : Name) (listelm elm : Element) : Memory Name Element :=
  let memory := memory.setNext elm (memory.next listelm)
  let memory := match memory.next listelm with
    | some following => memory.setPrev following elm
    | none => memory
  let memory := memory.setNext listelm elm
  let memory := memory.setPrev elm listelm
  let memory := match memory.next elm with
    | some _ => memory
    | none => memory.setLast list elm
  memory.grow list

def listInsertBefore (list : Name) (listelm elm : Element) : Memory Name Element :=
  let memory := memory.setPrev elm (memory.prev listelm)
  let memory := memory.setNext elm listelm
  let memory := match memory.prev listelm with
    | some preceding => memory.setNext preceding elm
    | none => memory.setFirst list elm
  let memory := memory.setPrev listelm elm
  memory.grow list

def listInsertHead (list : Name) (elm : Element) : Memory Name Element :=
  let memory := memory.setNext elm (memory.first list)
  let memory := match memory.first list with
    | some first => memory.setPrev first elm
    | none => memory.setLast list elm
  let memory := memory.setFirst list elm
  let memory := memory.setPrev elm none
  memory.grow list

def listInsertTail (list : Name) (elm : Element) : Memory Name Element :=
  let memory := memory.setPrev elm (memory.last list)
  let memory := match memory.last list with
    | some last => memory.setNext last elm
    | none => memory.setFirst list elm
  let memory := memory.setLast list elm
  let memory := memory.setNext elm none
  memory.grow list

def listRemove (list : Name) (elm : Element) : Memory Name Element :=
  let memory := match memory.next elm with
    | some following => memory.setPrev following (memory.prev elm)
    | none => memory.setLast list (memory.prev elm)
  let memory := match memory.prev elm with
    | some preceding => memory.setNext preceding (memory.next elm)
    | none => memory.setFirst list (memory.next elm)
  let memory := memory.setNext elm none
  let memory := memory.setPrev elm none
  memory.shrink list

end Memory

/-! ### The lists as sequences -/

/-- What the macros do to the sequence of elements. -/
def insertAfter [DecidableEq Element] (listelm elm : Element) : List Element → List Element
  | [] => []
  | element :: rest =>
      if element = listelm then element :: elm :: rest else element :: insertAfter listelm elm rest

def insertBefore [DecidableEq Element] (listelm elm : Element) : List Element → List Element
  | [] => []
  | element :: rest =>
      if element = listelm then elm :: element :: rest else element :: insertBefore listelm elm rest

inductive Call (Name Element : Type) where
  | init (list : Name)
  | insertAfter (list : Name) (listelm elm : Element)
  | insertBefore (list : Name) (listelm elm : Element)
  | insertHead (list : Name) (elm : Element)
  | insertTail (list : Name) (elm : Element)
  | remove (list : Name) (elm : Element)

/-- The memory, and beside it the sequences the lists stand for: none before a list is initialised. -/
structure Lists (Name Element : Type) where
  memory : Memory Name Element
  contents : Name → Option (List Element)

/-- The list a call is for. -/
def Call.list : Call Name Element → Name
  | .init list => list
  | .insertAfter list _ _ => list
  | .insertBefore list _ _ => list
  | .insertHead list _ => list
  | .insertTail list _ => list
  | .remove list _ => list

section Exec

variable [DecidableEq Name] [DecidableEq Element]

/-- What a call does to the links. -/
def Call.run (memory : Memory Name Element) : Call Name Element → Memory Name Element
  | .init list => memory.listInit list
  | .insertAfter list listelm elm => memory.listInsertAfter list listelm elm
  | .insertBefore list listelm elm => memory.listInsertBefore list listelm elm
  | .insertHead list elm => memory.listInsertHead list elm
  | .insertTail list elm => memory.listInsertTail list elm
  | .remove list elm => memory.listRemove list elm

/-- What a call does to the sequence. -/
def Call.effect (elements : List Element) : Call Name Element → List Element
  | .init _ => []
  | .insertAfter _ listelm elm => Queue.insertAfter listelm elm elements
  | .insertBefore _ listelm elm => Queue.insertBefore listelm elm elements
  | .insertHead _ elm => elm :: elements
  | .insertTail _ elm => elements ++ [elm]
  | .remove _ elm => elements.erase elm

/-- An element is in no list. -/
def Lists.Unlinked (lists : Lists Name Element) (element : Element) : Prop :=
  ∀ list elements, lists.contents list = some elements → element ∉ elements

/-- What the callers see to: a list is used when it is initialised, an element that is inserted is in
no list, and one that is removed or inserted at is in the list named. -/
def Call.Proper (lists : Lists Name Element) : Call Name Element → Prop
  | .init _ => True
  | .insertAfter list listelm elm => lists.Unlinked elm ∧ ∃ elements, lists.contents list = some elements ∧ listelm ∈ elements
  | .insertBefore list listelm elm => lists.Unlinked elm ∧ ∃ elements, lists.contents list = some elements ∧ listelm ∈ elements
  | .insertHead list elm => lists.Unlinked elm ∧ lists.contents list ≠ none
  | .insertTail list elm => lists.Unlinked elm ∧ lists.contents list ≠ none
  | .remove list elm => ∃ elements, lists.contents list = some elements ∧ elm ∈ elements

/-- The macros on any number of lists: of static memory, which is zero, and of memory with
anything in it, where `LIST_INIT` comes first. -/
def listCalls (Name Element : Type) [DecidableEq Name] [DecidableEq Element] :
    Foundation.System (Lists Name Element) (Call Name Element) where
  start lists := ∀ list elements, lists.contents list = some elements →
    elements = [] ∧ lists.memory.first list = none ∧ lists.memory.last list = none ∧ lists.memory.size list = 0
  exec lists call := some {
    memory := call.run lists.memory
    contents := Function.update lists.contents call.list
      (some (call.effect ((lists.contents call.list).getD []))) }

end Exec

/-- A list in memory is a sequence: the chains of both directions visit its elements, in opposite
orders, and `size` is their number. -/
structure Memory.Represents (memory : Memory Name Element) (list : Name) (elements : List Element) : Prop where
  forward : Walks memory.next (memory.first list) elements
  backward : Walks memory.prev (memory.last list) elements.reverse
  size : memory.size list = elements.length

/-- An address that is not `NULL`. -/
structure Pointer where
  address : Nat
  notNull : address ≠ 0
  inWord : address < wordSize
  deriving DecidableEq

end Fos.Queue
