import Fos.Foundation.Recency
import Fos.Kernel.Machine

/-! The working-set lists of an environment and what the fault handler and `freeMem` make
of them, apart from memory. -/

set_option autoImplicit false

namespace Fos.Kernel

open Foundation

namespace Env

variable {env : Env} {address : Nat}

def activePages (env : Env) : List Nat := env.addresses env.activeList
def secondPages (env : Env) : List Nat := env.addresses env.secondList

/-- The addresses of `ActiveList` followed by those of `SecondList`. -/
def recency (env : Env) : List Nat := env.addresses (env.activeList ++ env.secondList)

/-- Other elements and other lists, and nothing else. -/
def withLists (env : Env) (elements : Nat → WorkingSetElement)
    (unused active second : List Nat) : Env :=
  { env with
    ptrPageWorkingSet := elements
    pageWorkingSetList := unused
    activeList := active
    secondList := second }

/-- An address a list may hold. -/
def UserPage (address : Nat) : Prop := address % pageSize = 0 ∧ address < userTop

/-- The lists hold distinct elements of `ptr_pageWorkingSet`, also after a panic. -/
structure Listed (env : Env) : Prop where
  nodup : (env.activeList ++ env.secondList).Nodup
  bounded : ∀ element ∈ env.activeList ++ env.secondList, element < pwsMaxSize

theorem Listed.subset (listed : env.Listed) {next : Env}
    (nodup : (next.activeList ++ next.secondList).Nodup)
    (subset : next.activeList ++ next.secondList ⊆ env.activeList ++ env.secondList) :
    next.Listed :=
  ⟨nodup, fun element member => listed.bounded element (subset member)⟩

theorem Listed.apart_tail (listed : env.Listed) {front : List Nat} {last : Nat}
    (tail : env.activeList = front ++ [last]) : last ∉ front ∧ last ∉ env.secondList := by
  have nodup := listed.nodup
  rw [tail, List.append_assoc, List.singleton_append, List.nodup_middle, List.nodup_cons,
    List.mem_append, not_or] at nodup
  exact nodup.1

/-- The representation invariant of the LRU lists. -/
structure LruLists (env : Env) : Prop where
  elements : (env.pageWorkingSetList ++ (env.activeList ++ env.secondList)).Perm
    (List.range env.pageWSMaxSize)
  size : env.pageWSMaxSize ≤ pwsMaxSize
  sizes : env.activeListSize + env.secondListSize = env.pageWSMaxSize
  activePositive : 0 < env.activeListSize
  secondNonneg : 0 ≤ env.secondListSize
  activeBound : (env.activeList.length : Int) ≤ env.activeListSize
  secondBound : (env.secondList.length : Int) ≤ env.secondListSize
  order : env.secondList ≠ [] → (env.activeList.length : Int) = env.activeListSize
  distinct : env.recency.Nodup
  pages : ∀ address ∈ env.recency, UserPage address

namespace LruLists

theorem nodup_elements (lists : env.LruLists) :
    (env.pageWorkingSetList ++ (env.activeList ++ env.secondList)).Nodup :=
  lists.elements.nodup_iff.2 List.nodup_range

theorem listed (lists : env.LruLists) : env.Listed where
  nodup := (List.nodup_append.1 lists.nodup_elements).2.1
  bounded element member := by
    have inRange := lists.elements.mem_iff.1 (List.mem_append_right _ member)
    exact (List.mem_range.1 inRange).trans_le lists.size

theorem length_eq (lists : env.LruLists) :
    env.pageWorkingSetList.length + (env.activeList.length + env.secondList.length) =
      env.pageWSMaxSize := by
  simpa using lists.elements.length_eq

theorem length_recency (lists : env.LruLists) :
    env.recency.length ≤ env.pageWSMaxSize := by
  have length := lists.length_eq
  simp only [recency, addresses, List.length_map, List.length_append]
  omega

/-- An element at the end of `PageWorkingSetList` is in no other place of a list. -/
theorem apart_unused (lists : env.LruLists) {before : List Nat} {element : Nat}
    (free : env.pageWorkingSetList = before ++ [element]) :
    element ∉ before ∧ element ∉ env.activeList ++ env.secondList := by
  have nodup := lists.nodup_elements
  rw [free, List.append_assoc, List.singleton_append, List.nodup_middle, List.nodup_cons,
    List.mem_append, not_or] at nodup
  exact nodup.1

/-- The lists are arranged anew over the same elements. -/
theorem withLists (lists : env.LruLists) {elements : Nat → WorkingSetElement}
    {unused active second : List Nat}
    (perm : (unused ++ (active ++ second)).Perm
      (env.pageWorkingSetList ++ (env.activeList ++ env.secondList)))
    (activeBound : (active.length : Int) ≤ env.activeListSize)
    (secondBound : (second.length : Int) ≤ env.secondListSize)
    (order : second ≠ [] → (active.length : Int) = env.activeListSize)
    (distinct : (env.withLists elements unused active second).recency.Nodup)
    (pages : ∀ address ∈ (env.withLists elements unused active second).recency,
      UserPage address) :
    (env.withLists elements unused active second).LruLists where
  elements := perm.trans lists.elements
  size := lists.size
  sizes := lists.sizes
  activePositive := lists.activePositive
  secondNonneg := lists.secondNonneg
  activeBound := activeBound
  secondBound := secondBound
  order := order
  distinct := distinct
  pages := pages

end LruLists

theorem mem_addresses {elements : List Nat} :
    address ∈ env.addresses elements ↔
      ∃ element ∈ elements, (env.ptrPageWorkingSet element).virtualAddress = address := by
  simp [addresses]

theorem addresses_append (left right : List Nat) :
    env.addresses (left ++ right) = env.addresses left ++ env.addresses right := by
  simp [addresses]

theorem recency_eq (env : Env) : env.recency = env.activePages ++ env.secondPages :=
  addresses_append ..

theorem addresses_cons (head : Nat) (tail : List Nat) :
    env.addresses (head :: tail) =
      (env.ptrPageWorkingSet head).virtualAddress :: env.addresses tail := rfl

/-- Giving an element another page leaves the pages of the others. -/
theorem addresses_setElement {element : Nat} {elements : List Nat} (apart : element ∉ elements)
    (value : WorkingSetElement) :
    (env.setElement element value).addresses elements = env.addresses elements := by
  refine List.map_congr_left fun other member => ?_
  have different : other ≠ element := fun same => apart (same ▸ member)
  simp only [setElement, if_neg different]

theorem addresses_setElement_self (element : Nat) (value : WorkingSetElement) :
    ((env.setElement element value).ptrPageWorkingSet element).virtualAddress =
      value.virtualAddress := by
  simp [setElement]

/-! ### The branches of the fault handler -/

/-- An element takes another page. -/
def setAddress (env : Env) (element address : Nat) : Nat → WorkingSetElement :=
  (env.setElement element { env.ptrPageWorkingSet element with virtualAddress := address }).ptrPageWorkingSet

section Branches

variable {unused front back before after : List Nat} {element last : Nat}

theorem activePages_setAddress {active second : List Nat} (apart : element ∉ active) :
    (env.withLists (env.setAddress element address) unused (element :: active) second).activePages =
      address :: env.addresses active := by
  have rest : (env.withLists (env.setAddress element address) unused (element :: active)
      second).addresses active = env.addresses active := addresses_setElement apart _
  change (env.withLists _ _ _ _).addresses (element :: active) = _
  rw [addresses_cons, rest]
  congr 1
  exact addresses_setElement_self element _

theorem secondPages_setAddress {active second : List Nat} (apart : element ∉ second) :
    (env.withLists (env.setAddress element address) unused active second).secondPages =
      env.addresses second := addresses_setElement apart _

private theorem recency_setAddress {active second : List Nat}
    (apart : element ∉ active ++ second) :
    (env.withLists (env.setAddress element address) unused (element :: active) second).recency =
      address :: env.addresses (active ++ second) := by
  rw [List.mem_append, not_or] at apart
  rw [recency_eq, activePages_setAddress apart.1, secondPages_setAddress apart.2,
    addresses_append, List.cons_append]

/-- `ActiveList` has room: an unused element goes to its head. -/
theorem LruLists.place (lists : env.LruLists) (userPage : UserPage address)
    (unlisted : address ∉ env.recency) (free : env.pageWorkingSetList = before ++ [element])
    (room : (env.activeList.length : Int) ≠ env.activeListSize) :
    let next := env.withLists (env.setAddress element address) before
      (element :: env.activeList) env.secondList
    next.LruLists ∧ next.recency = touch env.pageWSMaxSize address env.recency ∧
      next.recency = address :: env.recency := by
  intro next
  have bound := lists.activeBound
  have length := lists.length_eq
  have noSecond : env.secondList = [] := by
    by_contra some
    exact room (lists.order some)
  have apart := (lists.apart_unused free).2
  have recent : next.recency = address :: env.recency := recency_setAddress apart
  refine ⟨lists.withLists ?_ ?_ lists.secondBound ?_ ?_ ?_, ?_, recent⟩
  · rw [free, List.append_assoc]
    exact List.Perm.refl _
  · rw [List.length_cons]
    omega
  · exact fun some => absurd noSecond some
  · exact recent ▸ List.nodup_cons.2 ⟨unlisted, lists.distinct⟩
  · exact recent ▸ List.forall_mem_cons.2 ⟨userPage, lists.pages⟩
  · rw [recent, touch_of_not_mem unlisted]
    rw [free, List.length_append, List.length_singleton] at length
    simp only [recency, addresses, List.length_map, List.length_append]
    omega

/-- The page is in `SecondList`: it trades places with the tail of `ActiveList`. -/
theorem LruLists.hit (lists : env.LruLists)
    (found : env.secondList = before ++ element :: after)
    (same : (env.ptrPageWorkingSet element).virtualAddress = address)
    (tail : env.activeList = front ++ [last]) :
    let next := env.withLists env.ptrPageWorkingSet env.pageWorkingSetList
      (element :: front) (last :: (before ++ after))
    next.LruLists ∧ next.recency = touch env.pageWSMaxSize address env.recency ∧
      next.recency = address :: env.recency.erase address := by
  intro next
  have full := lists.order (found ▸ List.append_ne_nil_of_right_ne_nil _ (List.cons_ne_nil _ _))
  have secondBound := lists.secondBound
  have distinct := lists.distinct
  have split : env.recency = (env.addresses front ++
      (env.ptrPageWorkingSet last).virtualAddress :: env.addresses before) ++
        address :: env.addresses after := by
    simp only [recency, tail, found, addresses_append, addresses_cons, same, List.append_assoc,
      List.cons_append, List.nil_append]
  have first : address ∉ env.addresses front ++
      (env.ptrPageWorkingSet last).virtualAddress :: env.addresses before := by
    rw [split] at distinct
    exact fun member => (List.nodup_append.1 distinct).2.2 _ member _ (List.mem_cons_self ..) rfl
  have recent : next.recency = address :: env.recency.erase address := by
    rw [split, erase_middle first]
    simp only [next, recency, addresses_append]
    change env.addresses (element :: front) ++ env.addresses (last :: (before ++ after)) = _
    simp only [addresses_cons, addresses_append, same, List.append_assoc, List.cons_append]
  have used : address ∈ env.recency := by
    rw [split]
    exact List.mem_append_right _ (List.mem_cons_self ..)
  have touched : next.recency = touch env.pageWSMaxSize address env.recency := by
    rw [recent, touch_of_mem used lists.length_recency]
  refine ⟨lists.withLists ?_ ?_ ?_ ?_ ?_ ?_, touched, recent⟩
  · rw [tail, found]
    refine List.Perm.append_left _ (List.perm_iff_count.2 fun item => ?_)
    simp only [List.count_append, List.count_cons, List.count_nil]
    omega
  · rw [tail, List.length_append, List.length_singleton] at full
    rw [List.length_cons]
    omega
  · rw [found, List.length_append, List.length_cons] at secondBound
    rw [List.length_cons, List.length_append]
    omega
  · intro _
    rw [tail, List.length_append, List.length_singleton] at full
    rw [List.length_cons]
    omega
  · exact touched ▸ nodup_touch lists.distinct
  · rw [recent]
    exact List.forall_mem_cons.2 ⟨lists.pages _ used,
      fun other member => lists.pages other (List.mem_of_mem_erase member)⟩

/-- `ActiveList` is full: its tail moves to `SecondList`, and an unused element takes its
place. -/
theorem LruLists.demote (lists : env.LruLists) (userPage : UserPage address)
    (unlisted : address ∉ env.recency) (free : env.pageWorkingSetList = before ++ [element])
    (full : (env.activeList.length : Int) = env.activeListSize)
    (tail : env.activeList = front ++ [last]) :
    let next := env.withLists (env.setAddress element address) before
      (element :: front) (last :: env.secondList)
    next.LruLists ∧ next.recency = touch env.pageWSMaxSize address env.recency ∧
      next.recency = address :: env.recency := by
  intro next
  have sizes := lists.sizes
  have length := lists.length_eq
  have apart := (lists.apart_unused free).2
  have same : front ++ last :: env.secondList = env.activeList ++ env.secondList := by
    rw [tail, List.append_assoc, List.singleton_append]
  have recent : next.recency = address :: env.recency :=
    (recency_setAddress (same ▸ apart)).trans
      (congrArg (fun elements => address :: env.addresses elements) same)
  rw [free, List.length_append, List.length_singleton] at length
  have frontLength : front.length + 1 = env.activeList.length := by rw [tail]; simp
  refine ⟨lists.withLists ?_ ?_ ?_ ?_ ?_ ?_, ?_, recent⟩
  · rw [free, List.append_assoc, List.cons_append, same]
    exact List.Perm.refl _
  · rw [List.length_cons]
    omega
  · rw [List.length_cons]
    omega
  · intro _
    rw [List.length_cons]
    omega
  · exact recent ▸ List.nodup_cons.2 ⟨unlisted, lists.distinct⟩
  · exact recent ▸ List.forall_mem_cons.2 ⟨userPage, lists.pages⟩
  · rw [recent, touch_of_not_mem unlisted]
    simp only [recency, addresses, List.length_map, List.length_append]
    omega

/-- No element is unused and there is no second list: the tail of `ActiveList` takes the
page. -/
theorem LruLists.replaceActive (lists : env.LruLists) (userPage : UserPage address)
    (unlisted : address ∉ env.recency) (used : env.pageWorkingSetList = [])
    (noSecond : env.secondListSize = 0) (tail : env.activeList = front ++ [last]) :
    let next := env.withLists (env.setAddress last address) env.pageWorkingSetList
      (last :: front) env.secondList
    next.LruLists ∧ next.recency = touch env.pageWSMaxSize address env.recency ∧
      next.recency = address :: env.addresses front := by
  intro next
  have secondBound := lists.secondBound
  have length := lists.length_eq
  have empty : env.secondList = [] := by
    rw [noSecond] at secondBound
    exact List.eq_nil_of_length_eq_zero (by omega)
  have apart := (lists.listed.apart_tail tail).1
  have split : env.recency = env.addresses front ++ [(env.ptrPageWorkingSet last).virtualAddress] := by
    simp [recency, tail, empty, addresses]
  have recent : next.recency = address :: env.addresses front := by
    have whole : front ++ env.secondList = front := by rw [empty, List.append_nil]
    exact (recency_setAddress (whole.symm ▸ apart)).trans (by rw [whole])
  have fullLength : (env.addresses front ++ [(env.ptrPageWorkingSet last).virtualAddress]).length =
      env.pageWSMaxSize := by
    rw [used, tail, empty] at length
    simpa [addresses] using length
  have touched : next.recency = touch env.pageWSMaxSize address env.recency := by
    rw [recent, split, touch_of_full (split ▸ unlisted) fullLength]
  refine ⟨lists.withLists ?_ ?_ lists.secondBound ?_ ?_ ?_, touched, recent⟩
  · rw [tail]
    refine List.Perm.append_left _ (List.perm_iff_count.2 fun item => ?_)
    simp only [List.count_append, List.count_cons, List.count_nil]
    omega
  · have activeBound := lists.activeBound
    rw [tail, List.length_append, List.length_singleton] at activeBound
    rw [List.length_cons]
    omega
  · exact fun some => absurd empty some
  · exact touched ▸ nodup_touch lists.distinct
  · rw [recent]
    refine List.forall_mem_cons.2 ⟨userPage, fun other member => lists.pages other ?_⟩
    rw [split]
    exact List.mem_append_left _ member

/-- No element is unused: the tail of `SecondList` takes the page, and the tail of
`ActiveList` moves to `SecondList`. -/
theorem LruLists.replaceSecond (lists : env.LruLists) (userPage : UserPage address)
    (unlisted : address ∉ env.recency) (used : env.pageWorkingSetList = [])
    (secondTail : env.secondList = back ++ [element]) (tail : env.activeList = front ++ [last]) :
    let next := env.withLists (env.setAddress element address) env.pageWorkingSetList
      (element :: front) (last :: back)
    next.LruLists ∧ next.recency = touch env.pageWSMaxSize address env.recency ∧
      next.recency = address :: env.addresses (front ++ last :: back) := by
  intro next
  have length := lists.length_eq
  have full := lists.order (by rw [secondTail]; simp)
  have secondBound := lists.secondBound
  have nodup := lists.listed.nodup
  have whole : env.activeList ++ env.secondList = (front ++ last :: back) ++ [element] := by
    simp [tail, secondTail]
  rw [whole] at nodup
  rw [List.nodup_middle, List.nodup_cons, List.append_nil] at nodup
  have apart := nodup.1
  have split : env.recency = env.addresses (front ++ last :: back) ++
      [(env.ptrPageWorkingSet element).virtualAddress] := by
    rw [recency, whole, addresses_append]
    rfl
  have recent : next.recency = address :: env.addresses (front ++ last :: back) :=
    recency_setAddress apart
  have fullLength : (env.addresses (front ++ last :: back) ++
      [(env.ptrPageWorkingSet element).virtualAddress]).length = env.pageWSMaxSize := by
    rw [← split, ← length, used]
    simp [recency, addresses]
  have touched : next.recency = touch env.pageWSMaxSize address env.recency := by
    rw [recent, split, touch_of_full (split ▸ unlisted) fullLength]
  refine ⟨lists.withLists ?_ ?_ ?_ ?_ ?_ ?_, touched, recent⟩
  · rw [whole]
    refine List.Perm.append_left _ (List.perm_iff_count.2 fun item => ?_)
    simp only [List.count_append, List.count_cons, List.count_nil]
    omega
  · rw [tail, List.length_append, List.length_singleton] at full
    rw [List.length_cons]
    omega
  · rw [secondTail, List.length_append, List.length_singleton] at secondBound
    rw [List.length_cons]
    omega
  · intro _
    rw [tail, List.length_append, List.length_singleton] at full
    rw [List.length_cons]
    omega
  · exact touched ▸ nodup_touch lists.distinct
  · rw [recent]
    refine List.forall_mem_cons.2 ⟨userPage, fun other member => lists.pages other ?_⟩
    rw [split]
    exact List.mem_append_left _ member

end Branches

/-! ### The second part of `freeMem` -/

/-- An element that is unused again. -/
def setEmpty (env : Env) (element : Nat) : Nat → WorkingSetElement :=
  (env.setElement element { env.ptrPageWorkingSet element with empty := true }).ptrPageWorkingSet

theorem setEmpty_address (element other : Nat) :
    (env.setEmpty element other).virtualAddress =
      (env.ptrPageWorkingSet other).virtualAddress := by
  simp only [setEmpty, setElement]
  split <;> simp [*]

theorem addresses_setEmpty {unused active second : List Nat} (element : Nat) (elements : List Nat) :
    (env.withLists (env.setEmpty element) unused active second).addresses elements =
      env.addresses elements :=
  List.map_congr_left fun other _ => setEmpty_address element other

/-- An element leaves the lists; the others stay in the same order. -/
theorem LruLists.release {active second before after : List Nat} {element : Nat}
    (lists : env.LruLists) (same : (env.ptrPageWorkingSet element).virtualAddress = address)
    (found : env.activeList ++ env.secondList = before ++ element :: after)
    (rest : active ++ second = before ++ after)
    (activeBound : (active.length : Int) ≤ env.activeListSize)
    (secondBound : (second.length : Int) ≤ env.secondListSize)
    (order : second ≠ [] → (active.length : Int) = env.activeListSize) :
    let next := env.withLists (env.setEmpty element) (element :: env.pageWorkingSetList) active second
    next.LruLists ∧ next.recency = env.recency.erase address := by
  intro next
  have distinct := lists.distinct
  have split : env.recency = env.addresses before ++ address :: env.addresses after := by
    rw [recency, found, addresses_append, addresses_cons, same]
  have first : address ∉ env.addresses before := by
    rw [split] at distinct
    exact fun member => (List.nodup_append.1 distinct).2.2 _ member _ (List.mem_cons_self ..) rfl
  have recent : next.recency = env.recency.erase address := by
    rw [split, erase_middle first, ← addresses_append, ← rest]
    exact addresses_setEmpty element (active ++ second)
  refine ⟨lists.withLists ?_ activeBound secondBound order ?_ ?_, recent⟩
  · rw [rest, found]
    refine List.perm_iff_count.2 fun item => ?_
    simp only [List.count_append, List.count_cons]
    omega
  · exact recent ▸ lists.distinct.erase address
  · exact recent ▸ fun other member => lists.pages other (List.mem_of_mem_erase member)

section Releases

variable {before after rest : List Nat} {element head : Nat}

/-- From `ActiveList`, with no second list to refill it. -/
theorem LruLists.releaseActive (lists : env.LruLists)
    (same : (env.ptrPageWorkingSet element).virtualAddress = address)
    (found : env.activeList = before ++ element :: after) (noSecond : env.secondList = []) :
    let next := env.withLists (env.setEmpty element) (element :: env.pageWorkingSetList)
      (before ++ after) env.secondList
    next.LruLists ∧ next.recency = env.recency.erase address := by
  have activeBound := lists.activeBound
  rw [found, List.length_append, List.length_cons] at activeBound
  refine lists.release same (by rw [found, noSecond, List.append_nil]) (by rw [noSecond,
    List.append_nil]) ?_ lists.secondBound fun some => absurd noSecond some
  rw [List.length_append]
  omega

/-- From `ActiveList`, which the head of `SecondList` fills up again. -/
theorem LruLists.releaseRefill (lists : env.LruLists)
    (same : (env.ptrPageWorkingSet element).virtualAddress = address)
    (found : env.activeList = before ++ element :: after)
    (second : env.secondList = head :: rest) :
    let next := env.withLists (env.setEmpty element) (element :: env.pageWorkingSetList)
      (before ++ after ++ [head]) rest
    next.LruLists ∧ next.recency = env.recency.erase address := by
  have full := lists.order (by rw [second]; exact List.cons_ne_nil _ _)
  have secondBound := lists.secondBound
  rw [found, List.length_append, List.length_cons] at full
  rw [second, List.length_cons] at secondBound
  have length : ((before ++ after ++ [head]).length : Int) = env.activeListSize := by
    simp only [List.length_append, List.length_singleton]
    omega
  refine lists.release same (show _ = before ++ element :: (after ++ head :: rest) by
    rw [found, second]; simp) (by simp) (Int.le_of_eq length) ?_ fun _ => length
  omega

theorem LruLists.releaseSecond (lists : env.LruLists)
    (same : (env.ptrPageWorkingSet element).virtualAddress = address)
    (found : env.secondList = before ++ element :: after) :
    let next := env.withLists (env.setEmpty element) (element :: env.pageWorkingSetList)
      env.activeList (before ++ after)
    next.LruLists ∧ next.recency = env.recency.erase address := by
  have full := lists.order (by rw [found]; simp)
  have secondBound := lists.secondBound
  rw [found, List.length_append, List.length_cons] at secondBound
  refine lists.release same (show _ = (env.activeList ++ before) ++ element :: after by
    rw [found]; simp) (by simp) (Int.le_of_eq full) ?_ fun _ => full
  rw [List.length_append]
  omega

end Releases

end Env

end Fos.Kernel
