import Fos.Kernel.WorkingSet
import Fos.Kernel.Words

/-! What the working-set lists and the page table say about each other, and how each
change of the lists goes with a change of the entries. -/

set_option autoImplicit false

namespace Fos.Kernel

open Foundation

/-! ### Entries of user pages -/

/-- The entry of a page its environment may write when it is present. -/
def Owned (entry : Nat) : Prop := entry.testBit 1 = true ∧ entry.testBit 2 = true

def Accessible (entry : Nat) : Prop := entry.testBit 0 = true ∧ Owned entry

theorem Owned.ne_zero {entry : Nat} (owned : Owned entry) : entry ≠ 0 := by
  rintro rfl
  exact absurd owned.1 (by decide)

/-- The low bits of an entry whose flags were changed. -/
theorem testBit_changePerm_low {entry set clear bit : Nat} (low : bit < 12)
    (clearLow : clear < pageSize) :
    (changePerm entry set clear).testBit bit =
      ((entry.testBit bit || set.testBit bit) && !clear.testBit bit) := by
  rw [testBit_changePerm _ _ _ _ (clearLow.trans (by decide))]
  simp [show bit < 32 by omega]

theorem owned_changePerm {entry set clear : Nat} (owned : Owned entry)
    (clearLow : clear < pageSize) (writeable : clear.testBit 1 = false)
    (user : clear.testBit 2 = false) : Owned (changePerm entry set clear) := by
  constructor
  · rw [testBit_changePerm_low (by decide) clearLow, owned.1, writeable]
    rfl
  · rw [testBit_changePerm_low (by decide) clearLow, owned.2, user]
    rfl

theorem owned_hide {entry : Nat} (owned : Owned entry) :
    Owned (changePerm entry 0 permPresent) :=
  owned_changePerm owned (by decide) (by decide) (by decide)

theorem hidden_hide (entry : Nat) : (changePerm entry 0 permPresent).testBit 0 = false := by
  rw [testBit_changePerm_low (by decide) (by decide)]
  simp

theorem accessible_show {entry set : Nat} (owned : Owned entry)
    (present : set.testBit 0 = true) : Accessible (changePerm entry set 0) := by
  refine ⟨?_, owned_changePerm owned (by decide) (by decide) (by decide)⟩
  rw [testBit_changePerm_low (by decide) (by decide), present]
  simp

/-! ### Lists and entries -/

theorem pageOf_inj {address other : Nat} (page : Env.UserPage address)
    (otherPage : Env.UserPage other) (same : pageOf address = pageOf other) : address = other := by
  rw [eq_mul_of_aligned page.1, eq_mul_of_aligned otherPage.1, same]

theorem pageOf_mul_pageSize {address : Nat} (page : Env.UserPage address) :
    pageOf address * pageSize = address := (eq_mul_of_aligned page.1).symm

/-- The pages of `ActiveList` are accessible, and those of `SecondList` would be if they
were present. With `strict`, none of these is present; with `tidy`, no other page has an
entry. -/
structure Resident (strict tidy : Prop) (entry : Nat → Nat) (active second : List Nat) :
    Prop where
  nodup : (active ++ second).Nodup
  pages : ∀ address ∈ active ++ second, Env.UserPage address
  accessible : ∀ address ∈ active, Accessible (entry (pageOf address))
  retained : ∀ address ∈ second, Owned (entry (pageOf address))
  hidden : strict → ∀ address ∈ second, (entry (pageOf address)).testBit 0 = false
  listed : tidy → ∀ page, entry page ≠ 0 → page * pageSize ∈ active ++ second

namespace Resident

variable {strict tidy : Prop} {entry : Nat → Nat} {active second front back : List Nat}
  {address value : Nat}

theorem owned (resident : Resident strict tidy entry active second)
    (member : address ∈ active ++ second) : Owned (entry (pageOf address)) := by
  rcases List.mem_append.1 member with inActive | inSecond
  · exact (resident.accessible address inActive).2
  · exact resident.retained address inSecond

/-- A page that is in no list has another number than those that are. -/
private theorem pageOf_ne (resident : Resident strict tidy entry active second)
    (page : Env.UserPage address) (unlisted : address ∉ active ++ second) {other : Nat}
    (member : other ∈ active ++ second) : pageOf other ≠ pageOf address := fun same =>
  unlisted (pageOf_inj (resident.pages other member) page same ▸ member)

/-- A page that is in no list is brought in. -/
theorem load (resident : Resident strict tidy entry active second) (page : Env.UserPage address)
    (unlisted : address ∉ active ++ second) (granted : Accessible value) :
    Resident strict tidy (Function.update entry (pageOf address) value) (address :: active)
      second where
  nodup := List.nodup_cons.2 ⟨unlisted, resident.nodup⟩
  pages := List.forall_mem_cons.2 ⟨page, resident.pages⟩
  accessible other member := by
    rcases List.mem_cons.1 member with rfl | member
    · rwa [Function.update_self]
    · rw [Function.update_of_ne (resident.pageOf_ne page unlisted (List.mem_append_left _ member))]
      exact resident.accessible other member
  retained other member := by
    rw [Function.update_of_ne (resident.pageOf_ne page unlisted (List.mem_append_right _ member))]
    exact resident.retained other member
  hidden isStrict other member := by
    rw [Function.update_of_ne (resident.pageOf_ne page unlisted (List.mem_append_right _ member))]
    exact resident.hidden isStrict other member
  listed isTidy number some := by
    by_cases same : number = pageOf address
    · rw [same, pageOf_mul_pageSize page]
      exact List.mem_cons_self ..
    · rw [Function.update_of_ne same] at some
      exact List.mem_cons_of_mem _ (resident.listed isTidy number some)

/-- The last active page moves to the second list. -/
theorem demote (resident : Resident strict tidy entry (front ++ [address]) second) :
    Resident strict tidy (Function.update entry (pageOf address)
      (changePerm (entry (pageOf address)) 0 permPresent)) front (address :: second) := by
  have same : (front ++ [address]) ++ second = front ++ address :: second := by simp
  have nodup := resident.nodup
  have pages := resident.pages
  rw [same] at nodup pages
  have here : address ∈ front ++ address :: second :=
    List.mem_append_right _ (List.mem_cons_self ..)
  obtain ⟨-, tailNodup, apart⟩ := List.nodup_append.1 nodup
  have ne_of_mem {other : Nat} (member : other ∈ front ++ address :: second)
      (different : other ≠ address) : pageOf other ≠ pageOf address := fun equal =>
    different (pageOf_inj (pages other member) (pages _ here) equal)
  have ne_front {other : Nat} (member : other ∈ front) : pageOf other ≠ pageOf address :=
    ne_of_mem (List.mem_append_left _ member) (apart other member _ (List.mem_cons_self ..))
  have ne_second {other : Nat} (member : other ∈ second) : pageOf other ≠ pageOf address :=
    ne_of_mem (List.mem_append_right _ (List.mem_cons_of_mem _ member))
      fun equal => (List.nodup_cons.1 tailNodup).1 (equal ▸ member)
  refine ⟨nodup, pages, fun other member => ?_, fun other member => ?_,
    fun isStrict other member => ?_, fun isTidy number some => ?_⟩
  · rw [Function.update_of_ne (ne_front member)]
    exact resident.accessible other (List.mem_append_left _ member)
  · rcases List.mem_cons.1 member with rfl | member
    · rw [Function.update_self]
      exact owned_hide (resident.accessible other (by simp)).2
    · rw [Function.update_of_ne (ne_second member)]
      exact resident.retained other member
  · rcases List.mem_cons.1 member with rfl | member
    · rw [Function.update_self]
      exact hidden_hide _
    · rw [Function.update_of_ne (ne_second member)]
      exact resident.hidden isStrict other member
  · by_cases equal : number = pageOf address
    · rw [equal, pageOf_mul_pageSize (pages _ here)]
      exact here
    · rw [Function.update_of_ne equal] at some
      exact same ▸ resident.listed isTidy number some

/-- A page leaves memory and the lists. -/
theorem remove (resident : Resident strict tidy entry active second)
    (member : address ∈ active ++ second) :
    Resident strict tidy (Function.update entry (pageOf address) 0) (active.erase address)
      (second.erase address) := by
  have sub : List.Sublist (active.erase address ++ second.erase address) (active ++ second) :=
    List.erase_sublist.append List.erase_sublist
  have page := resident.pages address member
  have notActive : address ∉ active.erase address :=
    (List.nodup_append.1 resident.nodup).1.not_mem_erase
  have notSecond : address ∉ second.erase address :=
    (List.nodup_append.1 resident.nodup).2.1.not_mem_erase
  have unlisted : address ∉ active.erase address ++ second.erase address := by
    simp [notActive, notSecond]
  have ne_of_mem {other : Nat} (left : other ∈ active.erase address ++ second.erase address) :
      pageOf other ≠ pageOf address := fun equal =>
    unlisted (pageOf_inj (resident.pages other (sub.subset left)) page equal ▸ left)
  refine ⟨resident.nodup.sublist sub, fun other left => resident.pages other (sub.subset left),
    fun other left => ?_, fun other left => ?_, fun isStrict other left => ?_,
    fun isTidy number some => ?_⟩
  · rw [Function.update_of_ne (ne_of_mem (List.mem_append_left _ left))]
    exact resident.accessible other (List.mem_of_mem_erase left)
  · rw [Function.update_of_ne (ne_of_mem (List.mem_append_right _ left))]
    exact resident.retained other (List.mem_of_mem_erase left)
  · rw [Function.update_of_ne (ne_of_mem (List.mem_append_right _ left))]
    exact resident.hidden isStrict other (List.mem_of_mem_erase left)
  · by_cases equal : number = pageOf address
    · rw [equal, Function.update_self] at some
      exact absurd rfl some
    · rw [Function.update_of_ne equal] at some
      have different : number * pageSize ≠ address := fun same => equal (by rw [← same, pageOf_mul])
      rcases List.mem_append.1 (resident.listed isTidy number some) with inActive | inSecond
      · exact List.mem_append_left _ ((List.mem_erase_of_ne different).2 inActive)
      · exact List.mem_append_right _ ((List.mem_erase_of_ne different).2 inSecond)

/-- A page of the second list becomes active. -/
theorem promote (resident : Resident strict tidy entry active (front ++ address :: back))
    {set : Nat} (present : set.testBit 0 = true) {active' : List Nat}
    (perm : active'.Perm (address :: active)) :
    Resident strict tidy (Function.update entry (pageOf address)
      (changePerm (entry (pageOf address)) set 0)) active' (front ++ back) := by
  have same : (active' ++ (front ++ back)).Perm (active ++ (front ++ address :: back)) :=
    (perm.append_right _).trans (List.perm_iff_count.2 fun item => by
      simp only [List.count_append, List.count_cons]
      omega)
  have nodup : (active' ++ (front ++ back)).Nodup := same.nodup_iff.2 resident.nodup
  have pages := fun other member => resident.pages other (same.mem_iff.1 member)
  have inActive : address ∈ active' := perm.mem_iff.2 (List.mem_cons_self ..)
  have page := pages address (List.mem_append_left _ inActive)
  have inSecond : address ∈ front ++ address :: back := by simp
  have ne_second {other : Nat} (member : other ∈ front ++ back) :
      pageOf other ≠ pageOf address := by
    intro equal
    have equal := pageOf_inj (pages other (List.mem_append_right _ member)) page equal
    exact (List.nodup_append.1 nodup).2.2 _ inActive _ member equal.symm
  refine ⟨nodup, pages, fun other member => ?_, fun other member => ?_,
    fun isStrict other member => ?_, fun isTidy number some => ?_⟩
  · by_cases equal : pageOf other = pageOf address
    · rw [equal, Function.update_self]
      exact accessible_show (resident.retained address inSecond) present
    · rw [Function.update_of_ne equal]
      rcases List.mem_cons.1 (perm.mem_iff.1 member) with rfl | member
      · exact absurd rfl equal
      · exact resident.accessible other member
  · rw [Function.update_of_ne (ne_second member)]
    exact resident.retained other (by
      rcases List.mem_append.1 member with member | member <;> simp [member])
  · rw [Function.update_of_ne (ne_second member)]
    exact resident.hidden isStrict other (by
      rcases List.mem_append.1 member with member | member <;> simp [member])
  · by_cases equal : number = pageOf address
    · rw [equal, pageOf_mul_pageSize page]
      exact List.mem_append_left _ inActive
    · rw [Function.update_of_ne equal] at some
      exact same.mem_iff.2 (resident.listed isTidy number some)

/-- Pages that are in no list are not looked at, unless these are to list all pages. -/
theorem elsewhere (resident : Resident strict tidy entry active second)
    (page : Env.UserPage address) (unlisted : address ∉ active ++ second) :
    Resident strict False (Function.update entry (pageOf address) value) active second where
  nodup := resident.nodup
  pages := resident.pages
  accessible other member := by
    rw [Function.update_of_ne (resident.pageOf_ne page unlisted (List.mem_append_left _ member))]
    exact resident.accessible other member
  retained other member := by
    rw [Function.update_of_ne (resident.pageOf_ne page unlisted (List.mem_append_right _ member))]
    exact resident.retained other member
  hidden isStrict other member := by
    rw [Function.update_of_ne (resident.pageOf_ne page unlisted (List.mem_append_right _ member))]
    exact resident.hidden isStrict other member
  listed := False.elim

theorem weaken {strict' tidy' : Prop} (resident : Resident strict tidy entry active second)
    (fromStrict : strict' → strict) (fromTidy : tidy' → tidy) :
    Resident strict' tidy' entry active second :=
  { resident with
    hidden := fun isStrict => resident.hidden (fromStrict isStrict)
    listed := fun isTidy => resident.listed (fromTidy isTidy) }

end Resident

end Fos.Kernel
