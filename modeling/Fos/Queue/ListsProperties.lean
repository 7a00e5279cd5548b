import Mathlib.Data.Fintype.Card
import Fos.Queue.Lists

/-! Every list macro is the operation on sequences it is named after. -/

set_option autoImplicit false

namespace Fos.Queue

open Foundation

variable {Name Element : Type} [DecidableEq Name] [DecidableEq Element]

namespace Memory

variable {memory next : Memory Name Element} {list other : Name} {elements others : List Element} {elm : Element}

/-- The head and the links of a list that has these elements. -/
structure Holds (memory : Memory Name Element) (list : Name) (elements : List Element) : Prop where
  nodup : elements.Nodup
  first : memory.first list = elements.head?
  last : memory.last list = elements.getLast?
  size : memory.size list = elements.length % wordSize
  chain : Chain memory.links none elements none

/-- Only the head of one list and the links of some elements change. -/
structure Touches (memory next : Memory Name Element) (list : Name) (elements : List Element) : Prop where
  heads : ∀ other, other ≠ list → next.heads other = memory.heads other
  links : ∀ element, element ∉ elements → next.links element = memory.links element

omit [DecidableEq Name] [DecidableEq Element] in
/-- A list stays as it is when its head and the links of its elements do. -/
theorem Holds.frame (holds : memory.Holds list elements) (head : next.heads list = memory.heads list)
    (links : ∀ element ∈ elements, next.links element = memory.links element) : next.Holds list elements where
  nodup := holds.nodup
  first := (congrArg ListHead.lhFirst head).trans holds.first
  last := (congrArg ListHead.lhLast head).trans holds.last
  size := (congrArg ListHead.size head).trans holds.size
  chain := (Chain.congr links).2 holds.chain

theorem grow_size {size length : Nat} (same : size = length % wordSize) :
    (size + 1) % wordSize = (length + 1) % wordSize := by
  simp only [wordSize] at *
  omega

theorem shrink_size {size length : Nat} (same : size = (length + 1) % wordSize) :
    (size + (wordSize - 1)) % wordSize = length % wordSize := by
  simp only [wordSize] at *
  omega

/-! ### The macros as updates -/

section Updates

set_option linter.unusedSimpArgs false

variable {listelm : Element}

theorem listInsertHead_eq : memory.listInsertHead list elm =
    { heads := Function.update memory.heads list { memory.heads list with
        lhFirst := some elm
        lhLast := if memory.first list = none then some elm else memory.last list
        size := (memory.size list + 1) % wordSize }
      links := linkPrev (linkPrevOf (linkNext memory.links elm (memory.first list))
        (memory.first list) (some elm)) elm none } := by
  cases isFirst : memory.first list <;>
  · simp only [first] at isFirst
    simp [listInsertHead, first, last, size, grow, isFirst, setFirst, setLast, setSize, setHead, setNext, setPrev,
      linkPrevOf]

theorem listInsertTail_eq : memory.listInsertTail list elm =
    { heads := Function.update memory.heads list { memory.heads list with
        lhFirst := if memory.last list = none then some elm else memory.first list
        lhLast := some elm
        size := (memory.size list + 1) % wordSize }
      links := linkNext (linkNextOf (linkPrev memory.links elm (memory.last list))
        (memory.last list) (some elm)) elm none } := by
  cases isLast : memory.last list <;>
  · simp only [last] at isLast
    simp [listInsertTail, first, last, size, grow, isLast, setFirst, setLast, setSize, setHead, setNext, setPrev,
      linkNextOf]

theorem listInsertAfter_eq (different : elm ≠ listelm) (apart : memory.next listelm ≠ some elm) :
    memory.listInsertAfter list listelm elm =
    { heads := Function.update memory.heads list { memory.heads list with
        lhLast := if memory.next listelm = none then some elm else memory.last list
        size := (memory.size list + 1) % wordSize }
      links := linkPrev (linkNext (linkPrevOf (linkNext memory.links elm (memory.next listelm))
        (memory.next listelm) (some elm)) listelm (some elm)) elm (some listelm) } := by
  cases isNext : memory.next listelm with
  | none =>
      simp only [next] at isNext
      simp [listInsertAfter, first, last, size, next, grow, isNext, setLast, setSize, setHead, setNext, setPrev,
        linkPrevOf, linkNext_of_ne, linkPrev_of_ne, different, different.symm]
  | some following =>
      rw [isNext] at apart
      have notFollowing : elm ≠ following := fun same => apart (congrArg some same.symm)
      simp only [next] at isNext
      simp [listInsertAfter, first, last, size, next, grow, isNext, setLast, setSize, setHead, setNext, setPrev,
        linkPrevOf, linkNext_of_ne, linkPrev_of_ne, different, different.symm, notFollowing]

theorem listInsertBefore_eq (different : elm ≠ listelm) :
    memory.listInsertBefore list listelm elm =
    { heads := Function.update memory.heads list { memory.heads list with
        lhFirst := if memory.prev listelm = none then some elm else memory.first list
        size := (memory.size list + 1) % wordSize }
      links := linkPrev (linkNextOf (linkNext (linkPrev memory.links elm (memory.prev listelm)) elm (some listelm))
        (memory.prev listelm) (some elm)) listelm (some elm) } := by
  cases isPrev : memory.prev listelm <;>
  · simp only [prev] at isPrev
    simp [listInsertBefore, first, last, size, prev, grow, isPrev, setFirst, setSize, setHead, setNext, setPrev,
      linkNextOf, linkNext_of_ne, linkPrev_of_ne, different, different.symm]

theorem listRemove_eq (apartNext : memory.next elm ≠ some elm) :
    memory.listRemove list elm =
    { heads := Function.update memory.heads list { memory.heads list with
        lhFirst := if memory.prev elm = none then memory.next elm else memory.first list
        lhLast := if memory.next elm = none then memory.prev elm else memory.last list
        size := (memory.size list + (wordSize - 1)) % wordSize }
      links := linkPrev (linkNext (linkNextOf (linkPrevOf memory.links (memory.next elm) (memory.prev elm))
        (memory.prev elm) (memory.next elm)) elm none) elm none } := by
  have notNext (following : Element) (isNext : memory.next elm = some following) : elm ≠ following :=
    fun same => apartNext (isNext.trans (congrArg some same.symm))
  cases isNext : memory.next elm <;> cases isPrev : memory.prev elm <;>
  · simp only [next, prev] at isNext isPrev notNext
    simp [listRemove, first, last, size, next, prev, shrink, isNext, isPrev, setFirst, setLast, setSize, setHead,
      setNext, setPrev, linkNextOf, linkPrevOf, linkNext_of_ne, linkPrev_of_ne, notNext]

end Updates

/-! ### The macros as operations on sequences -/

/-- The macro keeps the list a sequence, which it changes as stated, and touches nothing but the
element and the list. -/
def ListBecomes (memory next : Memory Name Element) (list : Name) (elements : List Element) (elm : Element)
    (result : List Element) : Prop :=
  next.Holds list result ∧ Touches memory next list (elm :: elements)

theorem listInsertHead_becomes (holds : memory.Holds list elements) (fresh : elm ∉ elements) :
    ListBecomes memory (memory.listInsertHead list elm) list elements elm (elm :: elements) := by
  obtain ⟨nodup, isFirst, isLast, isSize, chain⟩ := holds
  have notFirst : elements.head? ≠ some elm := fun same => fresh (List.mem_of_mem_head? same)
  rw [listInsertHead_eq, isFirst]
  refine ⟨⟨List.nodup_cons.2 ⟨fresh, nodup⟩, ?_, ?_, ?_, ?_, ?_, ?_⟩, fun other different => ?_,
    fun element apart => ?_⟩
  · simp [first]
  · cases elements with
    | nil => simp [last]
    | cons head rest => simpa [last] using isLast
  · simpa [Memory.size] using grow_size isSize
  · simp
  · simp [linkPrevOf_of_ne notFirst]
  · exact (Chain.linkPrev_iff fresh).2 (Chain.linkPrevOf_head ((Chain.linkNext_iff fresh).2 chain) nodup)
  · exact Function.update_of_ne different ..
  · obtain ⟨notElm, notElement⟩ := not_or.1 (mt List.mem_cons.2 apart)
    have notNeighbour : elements.head? ≠ some element := fun same => notElement (List.mem_of_mem_head? same)
    simp only [linkPrev_of_ne _ _ _ notElm, linkPrevOf_of_ne notNeighbour, linkNext_of_ne _ _ _ notElm]

theorem listInsertTail_becomes (holds : memory.Holds list elements) (fresh : elm ∉ elements) :
    ListBecomes memory (memory.listInsertTail list elm) list elements elm (elements ++ [elm]) := by
  obtain ⟨nodup, isFirst, isLast, isSize, chain⟩ := holds
  have notLast : elements.getLast? ≠ some elm := fun same => fresh (List.mem_of_getLast? same)
  rw [listInsertTail_eq, isLast]
  refine ⟨⟨?_, ?_, ?_, ?_, ?_⟩, fun other different => ?_, fun element apart => ?_⟩
  · rw [List.nodup_append]
    refine ⟨nodup, List.nodup_singleton elm, fun element member other isElm same => ?_⟩
    exact fresh (List.mem_singleton.1 isElm ▸ same ▸ member)
  · cases elements with
    | nil => simp [first]
    | cons head rest => simpa [first] using isFirst
  · simp [last]
  · simpa [Memory.size] using grow_size isSize
  · refine (Chain.append_iff ..).2 ⟨?_, .single ?_ ?_⟩
    · exact (Chain.linkNext_iff fresh).2 (Chain.linkNextOf_last ((Chain.linkPrev_iff fresh).2 chain) nodup)
    · simp [linkNextOf_of_ne notLast]
    · simp
  · exact Function.update_of_ne different ..
  · obtain ⟨notElm, notElement⟩ := not_or.1 (mt List.mem_cons.2 apart)
    have notNeighbour : elements.getLast? ≠ some element := fun same => notElement (List.mem_of_getLast? same)
    simp only [linkNext_of_ne _ _ _ notElm, linkNextOf_of_ne notNeighbour, linkPrev_of_ne _ _ _ notElm]

/-- A list with an element in the middle. -/
structure Middle (memory : Memory Name Element) (front back : List Element) (element : Element) : Prop where
  notFront : element ∉ front
  notBack : element ∉ back
  nodupFront : front.Nodup
  nodupBack : back.Nodup
  apart : ∀ other ∈ front, other ∉ back
  prev : memory.prev element = front.getLast?
  next : memory.next element = back.head?
  chainFront : Chain memory.links none front (some element)
  chainBack : Chain memory.links (some element) back none

omit [DecidableEq Name] [DecidableEq Element] in
theorem Holds.middle {front back : List Element} {element : Element}
    (holds : memory.Holds list (front ++ element :: back)) : Middle memory front back element := by
  obtain ⟨nodupFront, nodupRest, apart⟩ := List.nodup_append.1 holds.nodup
  obtain ⟨notBack, nodupBack⟩ := List.nodup_cons.1 nodupRest
  obtain ⟨chainFront, -, -, chainBack⟩ := (Chain.append_iff ..).1 holds.chain
  obtain ⟨prev, next⟩ := holds.chain.middle
  exact ⟨fun member => apart element member element (List.mem_cons_self ..) rfl, notBack, nodupFront, nodupBack,
    fun other member inBack => apart other member other (List.mem_cons_of_mem _ inBack) rfl, prev, next,
    chainFront, chainBack⟩

theorem listInsertAfter_becomes {front back : List Element} {listelm : Element}
    (holds : memory.Holds list (front ++ listelm :: back)) (fresh : elm ∉ front ++ listelm :: back) :
    ListBecomes memory (memory.listInsertAfter list listelm elm) list (front ++ listelm :: back) elm
      (front ++ listelm :: elm :: back) := by
  obtain ⟨notFront, notBack, nodupFront, nodupBack, apart, prev, next, chainFront, chainBack⟩ := holds.middle
  obtain ⟨nodup, isFirst, isLast, isSize, -⟩ := holds
  have nodupResult : (front ++ listelm :: elm :: back).Nodup := by
    rw [List.append_cons, List.nodup_middle, ← List.append_cons]
    exact List.nodup_cons.2 ⟨fresh, nodup⟩
  simp only [List.mem_append, List.mem_cons, not_or] at fresh
  obtain ⟨freshFront, different, freshBack⟩ := fresh
  have notNext : back.head? ≠ some elm := fun same => freshBack (List.mem_of_mem_head? same)
  have otherNext : back.head? ≠ some listelm := fun same => notBack (List.mem_of_mem_head? same)
  rw [listInsertAfter_eq different (next ▸ notNext), next]
  refine ⟨⟨nodupResult, ?_, ?_, ?_, ?_⟩, fun other different => ?_, fun element elsewhere => ?_⟩
  · simp only [first, Function.update_self] at isFirst ⊢
    rw [isFirst]
    cases front with
    | nil => rfl
    | cons head rest => rfl
  · simp only [last, Function.update_self] at isLast ⊢
    rw [isLast]
    cases back with
    | nil => simp
    | cons head rest => simp
  · simpa [Memory.size, Nat.add_assoc] using grow_size isSize
  · dsimp only
    refine (Chain.append_iff ..).2 ⟨?_, ?_, ?_, ?_, ?_, ?_⟩
    · rw [Chain.linkPrev_iff freshFront, Chain.linkNext_iff notFront, Chain.linkPrevOf_iff ?_,
        Chain.linkNext_iff freshFront]
      · exact chainFront
      · exact fun head isHead member => apart head member (List.mem_of_mem_head? isHead)
    · rw [linkPrev_of_ne _ _ _ (Ne.symm different), linkNext_self, linkPrevOf_of_ne otherNext,
        linkNext_of_ne _ _ _ (Ne.symm different)]
      exact prev.trans (Option.or_none ..).symm
    · rw [linkPrev_of_ne _ _ _ (Ne.symm different), linkNext_self]
      rfl
    · rw [linkPrev_self]
    · rw [linkPrev_self, linkNext_of_ne _ _ _ different, linkPrevOf_of_ne notNext, linkNext_self]
      exact (Option.or_none ..).symm
    · rw [Chain.linkPrev_iff freshBack, Chain.linkNext_iff notBack]
      exact Chain.linkPrevOf_head ((Chain.linkNext_iff freshBack).2 chainBack) nodupBack
  · exact Function.update_of_ne different ..
  · simp only [List.mem_cons, List.mem_append, not_or] at elsewhere
    obtain ⟨notElm, -, notListelm, notInBack⟩ := elsewhere
    have notNeighbour : back.head? ≠ some element := fun same => notInBack (List.mem_of_mem_head? same)
    simp only [linkPrev_of_ne _ _ _ notElm, linkNext_of_ne _ _ _ notListelm, linkPrevOf_of_ne notNeighbour,
      linkNext_of_ne _ _ _ notElm]

theorem listInsertBefore_becomes {front back : List Element} {listelm : Element}
    (holds : memory.Holds list (front ++ listelm :: back)) (fresh : elm ∉ front ++ listelm :: back) :
    ListBecomes memory (memory.listInsertBefore list listelm elm) list (front ++ listelm :: back) elm
      (front ++ elm :: listelm :: back) := by
  obtain ⟨notFront, notBack, nodupFront, nodupBack, apart, prev, next, chainFront, chainBack⟩ := holds.middle
  obtain ⟨nodup, isFirst, isLast, isSize, -⟩ := holds
  have nodupResult : (front ++ elm :: listelm :: back).Nodup := by
    rw [List.nodup_middle]
    exact List.nodup_cons.2 ⟨fresh, nodup⟩
  simp only [List.mem_append, List.mem_cons, not_or] at fresh
  obtain ⟨freshFront, different, freshBack⟩ := fresh
  have notPrev : front.getLast? ≠ some elm := fun same => freshFront (List.mem_of_getLast? same)
  have otherPrev : front.getLast? ≠ some listelm := fun same => notFront (List.mem_of_getLast? same)
  rw [listInsertBefore_eq different, prev]
  refine ⟨⟨nodupResult, ?_, ?_, ?_, ?_⟩, fun other different => ?_, fun element elsewhere => ?_⟩
  · simp only [first, Function.update_self] at isFirst ⊢
    rw [isFirst]
    cases front with
    | nil => simp
    | cons head rest => simp
  · simp only [last, Function.update_self] at isLast ⊢
    rw [isLast]
    simp
  · simpa [Memory.size, Nat.add_assoc] using grow_size isSize
  · dsimp only
    refine (Chain.append_iff ..).2 ⟨?_, ?_, ?_, ?_, ?_, ?_⟩
    · have unchanged : Chain (linkNext (linkPrev memory.links elm front.getLast?) elm (some listelm)) none front
          (some listelm) := by
        rwa [Chain.linkNext_iff freshFront, Chain.linkPrev_iff freshFront]
      rw [Chain.linkPrev_iff notFront]
      exact unchanged.linkNextOf_last nodupFront
    · rw [linkPrev_of_ne _ _ _ different, linkNextOf_of_ne notPrev, linkNext_self, linkPrev_self]
      exact (Option.or_none ..).symm
    · rw [linkPrev_of_ne _ _ _ different, linkNextOf_of_ne notPrev, linkNext_self]
      rfl
    · rw [linkPrev_self]
    · rw [linkPrev_self, linkNextOf_of_ne otherPrev, linkNext_of_ne _ _ _ (Ne.symm different),
        linkPrev_of_ne _ _ _ (Ne.symm different)]
      exact next.trans (Option.or_none ..).symm
    · rw [Chain.linkPrev_iff notBack, Chain.linkNextOf_iff ?_, Chain.linkNext_iff freshBack,
        Chain.linkPrev_iff freshBack]
      · exact chainBack
      · exact fun last isLast => apart last (List.mem_of_getLast? isLast)
  · exact Function.update_of_ne different ..
  · simp only [List.mem_cons, List.mem_append, not_or] at elsewhere
    obtain ⟨notElm, notInFront, notListelm, -⟩ := elsewhere
    have notNeighbour : front.getLast? ≠ some element := fun same => notInFront (List.mem_of_getLast? same)
    simp only [linkPrev_of_ne _ _ _ notListelm, linkNextOf_of_ne notNeighbour, linkNext_of_ne _ _ _ notElm,
      linkPrev_of_ne _ _ _ notElm]

theorem listRemove_becomes {front back : List Element}
    (holds : memory.Holds list (front ++ elm :: back)) :
    ListBecomes memory (memory.listRemove list elm) list (front ++ elm :: back) elm (front ++ back) := by
  obtain ⟨notFront, notBack, nodupFront, nodupBack, apart, prev, next, chainFront, chainBack⟩ := holds.middle
  obtain ⟨nodup, isFirst, isLast, isSize, -⟩ := holds
  have notNext : back.head? ≠ some elm := fun same => notBack (List.mem_of_mem_head? same)
  have notPrev : front.getLast? ≠ some elm := fun same => notFront (List.mem_of_getLast? same)
  rw [listRemove_eq (next ▸ notNext), next, prev]
  refine ⟨⟨?_, ?_, ?_, ?_, ?_⟩, fun other different => ?_, fun element elsewhere => ?_⟩
  · exact nodup.sublist (List.Sublist.append_left (List.sublist_cons_self ..) front)
  · simp only [first, Function.update_self] at isFirst ⊢
    rw [isFirst]
    cases front with
    | nil => simp
    | cons head rest => simp
  · simp only [last, Function.update_self] at isLast ⊢
    rw [isLast]
    cases back with
    | nil => simp
    | cons head rest => simp
  · rw [List.length_append, List.length_cons, ← Nat.add_assoc] at isSize
    simpa [Memory.size] using shrink_size isSize
  · dsimp only
    refine (Chain.append_iff ..).2 ⟨?_, ?_⟩
    · have unchanged : Chain (linkPrevOf memory.links back.head? front.getLast?) none front (some elm) := by
        rwa [Chain.linkPrevOf_iff fun head isHead member => apart head member (List.mem_of_mem_head? isHead)]
      rw [Chain.linkPrev_iff notFront, Chain.linkNext_iff notFront, Option.or_none]
      exact unchanged.linkNextOf_last nodupFront
    · rw [Chain.linkPrev_iff notBack, Chain.linkNext_iff notBack, Option.or_none, Chain.linkNextOf_iff ?_]
      · exact Chain.linkPrevOf_head chainBack nodupBack
      · exact fun last isLast => apart last (List.mem_of_getLast? isLast)
  · exact Function.update_of_ne different ..
  · simp only [List.mem_cons, List.mem_append, not_or] at elsewhere
    obtain ⟨notElm, notInFront, -, notInBack⟩ := elsewhere
    have notBefore : front.getLast? ≠ some element := fun same => notInFront (List.mem_of_getLast? same)
    have notAfter : back.head? ≠ some element := fun same => notInBack (List.mem_of_mem_head? same)
    simp only [linkPrev_of_ne _ _ _ notElm, linkNext_of_ne _ _ _ notElm, linkNextOf_of_ne notBefore,
      linkPrevOf_of_ne notAfter]

omit [DecidableEq Element] in
theorem listInit_holds : (memory.listInit list).Holds list [] where
  nodup := List.nodup_nil
  first := by simp [listInit, first]
  last := by simp [listInit, last]
  size := by simp [listInit, Memory.size]
  chain := trivial

omit [DecidableEq Element] in
theorem listInit_touches : Touches memory (memory.listInit list) list [] where
  heads other different := by simp [listInit, different]
  links _ _ := rfl

omit [DecidableEq Name] [DecidableEq Element] in
theorem Holds.represents (holds : memory.Holds list elements) (bounded : elements.length < wordSize) :
    memory.Represents list elements where
  forward := holds.first ▸ holds.chain.walks_next
  backward := holds.last ▸ holds.chain.walks_prev
  size := holds.size.trans (Nat.mod_eq_of_lt bounded)

omit [DecidableEq Name] [DecidableEq Element] in
/-- A list in memory stands for one sequence only. -/
theorem Represents.unique (represents : memory.Represents list elements) (other : memory.Represents list others) :
    elements = others :=
  represents.forward.unique other.forward

end Memory

/-! ### The operations on sequences -/

section Sequences

variable {front back : List Element} {listelm elm : Element}

theorem insertAfter_append (notFront : listelm ∉ front) :
    insertAfter listelm elm (front ++ listelm :: back) = front ++ listelm :: elm :: back := by
  induction front with
  | nil => simp [insertAfter]
  | cons element rest ih =>
      obtain ⟨different, notRest⟩ := not_or.1 (mt List.mem_cons.2 notFront)
      rw [List.cons_append, insertAfter, if_neg (Ne.symm different), ih notRest]
      rfl

theorem insertBefore_append (notFront : listelm ∉ front) :
    insertBefore listelm elm (front ++ listelm :: back) = front ++ elm :: listelm :: back := by
  induction front with
  | nil => simp [insertBefore]
  | cons element rest ih =>
      obtain ⟨different, notRest⟩ := not_or.1 (mt List.mem_cons.2 notFront)
      rw [List.cons_append, insertBefore, if_neg (Ne.symm different), ih notRest]
      rfl

theorem erase_append (notFront : elm ∉ front) : (front ++ elm :: back).erase elm = front ++ back := by
  rw [List.erase_append_right _ notFront, List.erase_cons_head]

end Sequences

/-! ### Runs -/

namespace Lists

variable {lists : Lists Name Element} {list : Name} {elements : List Element} {call : Call Name Element}

/-- Every list in memory is the sequence beside it, and no two lists share an element. -/
structure Sound (lists : Lists Name Element) : Prop where
  holds : ∀ list elements, lists.contents list = some elements → lists.memory.Holds list elements
  apart : ∀ list other elements others, list ≠ other → lists.contents list = some elements →
    lists.contents other = some others → ∀ element ∈ elements, element ∉ others

/-- A call gives one list this content, and changes only the links of elements that no other
list has. -/
structure Changes (lists : Lists Name Element) (next : Memory Name Element) (list : Name)
    (result : List Element) : Prop where
  holds : next.Holds list result
  heads : ∀ other, other ≠ list → next.heads other = lists.memory.heads other
  others : ∀ other others, other ≠ list → lists.contents other = some others →
    ∀ element ∈ others, next.links element = lists.memory.links element ∧ element ∉ result

omit [DecidableEq Element] in
theorem Sound.changes (sound : lists.Sound) {next : Memory Name Element} {result : List Element}
    (changes : lists.Changes next list result) :
    Sound { memory := next, contents := Function.update lists.contents list (some result) } where
  holds other others content := by
    dsimp only at content ⊢
    cases decEq other list with
    | isTrue same =>
        subst same
        rw [Function.update_self] at content
        cases content
        exact changes.holds
    | isFalse different =>
        rw [Function.update_of_ne different] at content
        exact (sound.holds other others content).frame (changes.heads other different)
          fun element member => (changes.others other others different content element member).1
  apart first second firsts seconds different isFirst isSecond element inFirst inSecond := by
    dsimp only at isFirst isSecond
    cases decEq first list with
    | isTrue same =>
        subst same
        rw [Function.update_self] at isFirst
        rw [Function.update_of_ne (Ne.symm different)] at isSecond
        cases isFirst
        exact (changes.others second seconds (Ne.symm different) isSecond element inSecond).2 inFirst
    | isFalse notFirst =>
        rw [Function.update_of_ne notFirst] at isFirst
        cases decEq second list with
        | isTrue same =>
            subst same
            rw [Function.update_self] at isSecond
            cases isSecond
            exact (changes.others first firsts notFirst isFirst element inFirst).2 inSecond
        | isFalse notSecond =>
            rw [Function.update_of_ne notSecond] at isSecond
            exact sound.apart first second firsts seconds different isFirst isSecond element inFirst inSecond

omit [DecidableEq Name] [DecidableEq Element] in
/-- What a macro does to an initialised list, with an element no other list has. -/
theorem Sound.changes_of_becomes (sound : lists.Sound) {next : Memory Name Element} {result : List Element}
    {elm : Element} (content : lists.contents list = some elements)
    (own : ∀ other others, other ≠ list → lists.contents other = some others → elm ∉ others)
    (within : ∀ element ∈ result, element ∈ elm :: elements)
    (becomes : Memory.ListBecomes lists.memory next list elements elm result) : lists.Changes next list result := by
  have elsewhere (other : Name) (others : List Element) (different : other ≠ list)
      (otherContent : lists.contents other = some others) (element : Element) (member : element ∈ others) :
      element ∉ elm :: elements := by
    intro touched
    cases List.mem_cons.1 touched with
    | inl same => exact own other others different otherContent (same ▸ member)
    | inr inList => exact sound.apart other list others elements different otherContent content element member inList
  exact {
    holds := becomes.1
    heads := becomes.2.heads
    others := fun other others different otherContent element member =>
      have apart := elsewhere other others different otherContent element member
      ⟨becomes.2.links element apart, fun inResult => apart (within element inResult)⟩ }

/-- One call. -/
theorem Sound.run (sound : lists.Sound) (proper : call.Proper lists) :
    lists.Changes (call.run lists.memory) call.list (call.effect ((lists.contents call.list).getD [])) := by
  cases call with
  | init list =>
      exact {
        holds := Memory.listInit_holds
        heads := Memory.listInit_touches.heads
        others := fun _ _ _ _ _ _ => ⟨rfl, List.not_mem_nil⟩ }
  | insertAfter list listelm elm =>
      obtain ⟨unlinked, elements, content, member⟩ := proper
      obtain ⟨front, back, rfl⟩ := List.append_of_mem member
      have holds := sound.holds list _ content
      simp only [Call.list, content, Option.getD_some, Call.effect, insertAfter_append holds.middle.notFront]
      apply sound.changes_of_becomes content (fun other others _ => unlinked other others) _
        (Memory.listInsertAfter_becomes holds (unlinked list _ content))
      simp only [List.mem_append, List.mem_cons]
      tauto
  | insertBefore list listelm elm =>
      obtain ⟨unlinked, elements, content, member⟩ := proper
      obtain ⟨front, back, rfl⟩ := List.append_of_mem member
      have holds := sound.holds list _ content
      simp only [Call.list, content, Option.getD_some, Call.effect, insertBefore_append holds.middle.notFront]
      apply sound.changes_of_becomes content (fun other others _ => unlinked other others) _
        (Memory.listInsertBefore_becomes holds (unlinked list _ content))
      simp only [List.mem_append, List.mem_cons]
      tauto
  | insertHead list elm =>
      obtain ⟨unlinked, initialised⟩ := proper
      obtain ⟨elements, content⟩ := Option.ne_none_iff_exists'.1 initialised
      simp only [Call.list, content, Option.getD_some, Call.effect]
      exact sound.changes_of_becomes content (fun other others _ => unlinked other others) (fun _ member => member)
        (Memory.listInsertHead_becomes (sound.holds list _ content) (unlinked list _ content))
  | insertTail list elm =>
      obtain ⟨unlinked, initialised⟩ := proper
      obtain ⟨elements, content⟩ := Option.ne_none_iff_exists'.1 initialised
      simp only [Call.list, content, Option.getD_some, Call.effect]
      apply sound.changes_of_becomes content (fun other others _ => unlinked other others) _
        (Memory.listInsertTail_becomes (sound.holds list _ content) (unlinked list _ content))
      simp only [List.mem_append, List.mem_cons]
      tauto
  | remove list elm =>
      obtain ⟨elements, content, member⟩ := proper
      obtain ⟨front, back, rfl⟩ := List.append_of_mem member
      have holds := sound.holds list _ content
      simp only [Call.list, content, Option.getD_some, Call.effect, erase_append holds.middle.notFront]
      apply sound.changes_of_becomes content _ _ (Memory.listRemove_becomes holds)
      · intro other others different otherContent inOther
        exact sound.apart other list others _ different otherContent content elm inOther member
      · simp only [List.mem_append, List.mem_cons]
        tauto

theorem reached_sound (reached : (listCalls Name Element).Reaches (fun lists call => call.Proper lists) lists) :
    lists.Sound := by
  apply reached.invariant
  · intro lists started
    refine ⟨fun list elements content => ?_, fun list other elements others _ content _ element member => ?_⟩
    · obtain ⟨rfl, isFirst, isLast, isSize⟩ := started list elements content
      exact ⟨List.nodup_nil, isFirst, isLast, isSize, trivial⟩
    · obtain ⟨rfl, -⟩ := started list elements content
      cases member
  · intro lists call next sound proper executes
    cases executes
    exact sound.changes (sound.run proper)

end Lists

/-! ### Lists of addresses -/

def Pointer.toFin (pointer : Pointer) : Fin wordSize := ⟨pointer.address, pointer.inWord⟩

theorem Pointer.toFin_injective : Function.Injective Pointer.toFin := by
  rintro ⟨first, _, _⟩ ⟨second, _, _⟩ same
  cases Fin.val_eq_of_eq same
  rfl

/-- There are fewer non-null addresses than a `uint32` counts. -/
theorem Pointer.length_lt {elements : List Pointer} (nodup : elements.Nodup) : elements.length < wordSize := by
  have zero : (⟨0, by decide⟩ : Fin wordSize) ∉ elements.map Pointer.toFin := by
    rintro member
    obtain ⟨pointer, -, isZero⟩ := List.mem_map.1 member
    exact pointer.notNull (Fin.val_eq_of_eq isZero)
  have all := (List.nodup_cons.2 ⟨zero, nodup.map Pointer.toFin_injective⟩).length_le_card
  rw [List.length_cons, List.length_map, Fintype.card_fin] at all
  exact all

/-- However the macros are called on any number of lists, every list in memory stands for the
sequence that the operations on sequences give. -/
theorem listCalls_represent {lists : Lists Name Pointer}
    (reached : (listCalls Name Pointer).Reaches (fun lists call => call.Proper lists) lists) :
    ∀ list elements, lists.contents list = some elements → lists.memory.Represents list elements := by
  intro list elements content
  have holds := (Lists.reached_sound reached).holds list elements content
  exact holds.represents (Pointer.length_lt holds.nodup)

private def firstPage : Pointer := ⟨0x1000, by decide, by decide⟩

private def secondPage : Pointer := ⟨0x2000, by decide, by decide⟩

private def blank : Lists Bool Pointer where
  memory := { heads := fun _ => ⟨some firstPage, none, none, 7⟩, links := fun _ => ⟨some firstPage, none⟩ }
  contents _ := none

private theorem unlinked_of {lists : Lists Bool Pointer} {elements : List Pointer} {elm : Pointer}
    (own : lists.contents true = some elements) (other : lists.contents false = none) (fresh : elm ∉ elements) :
    lists.Unlinked elm := by
  intro list others content
  cases list with
  | false => cases other.symm.trans content
  | true =>
      cases own.symm.trans content
      exact fresh

/-- A list on memory with anything in it, with a page inserted before another that is then removed. -/
theorem listCalls_represent_page : ∃ lists : Lists Bool Pointer,
    lists.contents true = some [firstPage] ∧ lists.memory.Represents true [firstPage] := by
  have started : (listCalls Bool Pointer).Reaches (fun lists call => call.Proper lists) blank :=
    .start fun _ _ content => nomatch content
  have initialised := started.step (Call.init true) trivial rfl
  have inserted := initialised.step (Call.insertHead true secondPage)
    ⟨unlinked_of rfl rfl List.not_mem_nil, Option.some_ne_none _⟩ rfl
  have before := inserted.step (Call.insertBefore true secondPage firstPage)
    ⟨unlinked_of rfl rfl (by decide : firstPage ∉ [secondPage]), [secondPage], rfl, List.mem_singleton_self _⟩ rfl
  have removed := before.step (Call.remove true secondPage) ⟨[firstPage, secondPage], rfl, by simp⟩ rfl
  exact ⟨_, rfl, listCalls_represent removed true [firstPage] rfl⟩

end Fos.Queue
