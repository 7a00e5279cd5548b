import Fos.Layout

/-! `stab_binsearch` of `kern/kdebug.c`. -/

set_option autoImplicit false

namespace Fos.Debug

/-- `struct Stab`, as far as the search reads it. -/
structure Stab where
  nType : BitVec 8
  nValue : BitVec 32

/-- The local variables of the search, and what its two pointers point to. -/
structure Search where
  l : Int
  r : Int
  regionLeft : Int
  regionRight : Int
  anyMatches : Bool
  addr : BitVec 32

section Code

variable (stabs : Int → Stab) (type : Int)

/-- Whether `stabs[m].n_type` is the type looked for. -/
def matchesType (m : Int) : Bool := ((stabs m).nType.toNat : Int) = type

/-- `while (m >= l && stabs[m].n_type != type) m--`, for as many rounds as there are entries. -/
def scanDown (l : Int) : Nat → Int → Int
  | 0, m => m
  | rounds + 1, m => if m ≥ l ∧ ¬ matchesType stabs type m then scanDown l rounds (m - 1) else m

/-- The earlier entry of the type, or `l - 1`. -/
def earliest (l m : Int) : Int := scanDown stabs type l (m - l + 1).toNat m

/-- One round of the search. The increment of the pointer `addr` is one of four bytes, and behind
the last address there is none. -/
def searchStep (search : Search) : Option Search :=
  let trueM := (search.l + search.r) / 2
  let m := earliest stabs type search.l trueM
  if m < search.l then some { search with l := trueM + 1 }
  else if (stabs m).nValue < search.addr then
    some { search with anyMatches := true, regionLeft := m, l := trueM + 1 }
  else if (stabs m).nValue > search.addr then
    some { search with anyMatches := true, regionRight := m - 1, r := m - 1 }
  else if search.addr.toNat + 4 < wordSize then
    some { search with anyMatches := true, regionLeft := m, l := m, addr := search.addr + 4 }
  else none

def searchLoop : Nat → Search → Option Search
  | 0, _ => none
  | fuel + 1, search =>
      if search.l ≤ search.r then (searchStep stabs type search).bind (searchLoop fuel) else some search

/-- `*region_left` and `*region_right` after the loop that looks for the rightmost region. -/
def finish (search : Search) : Int × Int :=
  if search.anyMatches then
    (scanDown stabs type (search.regionLeft + 1) (search.regionRight - search.regionLeft).toNat search.regionRight,
      search.regionRight)
  else (search.regionLeft, search.regionLeft - 1)

/-- Where the search window ends when the search first comes to the entry at some index. -/
def windowEnd (index : Int) : Nat → Int → Int → Int
  | 0, _, r => r
  | rounds + 1, l, r =>
      let trueM := (l + r) / 2
      let m := earliest stabs type l trueM
      if m < index then windowEnd index rounds (trueM + 1) r
      else if m > index then windowEnd index rounds l (m - 1)
      else r

def stabBinsearch (fuel : Nat) (regionLeft regionRight : Int) (addr : BitVec 32) : Option (Int × Int) :=
  (searchLoop stabs type fuel ⟨regionLeft, regionRight, regionLeft, regionRight, false, addr⟩).map (finish stabs type)

end Code

/-! ### What the search is for -/

section EnclosingEntry

variable (stabs : Int → Stab) (type : Int) (left right : Int) (addr : BitVec 32)

/-- An entry of the type in the search range. -/
structure Entry (m : Int) : Prop where
  lower : left ≤ m
  upper : m ≤ right
  ofType : matchesType stabs type m

/-- The entries of the type are in strictly increasing order. -/
def Increasing : Prop :=
  ∀ m n, Entry stabs type left right m → Entry stabs type left right n → m < n → (stabs m).nValue < (stabs n).nValue

/-- The last entry of the type that is not behind the address. -/
structure IsEnclosing (m : Int) : Prop where
  entry : Entry stabs type left right m
  notBehind : (stabs m).nValue ≤ addr
  last : ∀ n, Entry stabs type left right n → (stabs n).nValue ≤ addr → n ≤ m

/-- Just before the next entry of the type, or the end of the range. -/
structure IsEnd (m last : Int) : Prop where
  behind : m ≤ last
  between : ∀ n, Entry stabs type left right n → m < n → last < n
  next : last = right ∨ Entry stabs type left right (last + 1)

/-- The search ends, and finds the entry that encloses the address if there is one. -/
def FindsEnclosing : Prop :=
  ∃ fuel regionLeft regionRight, stabBinsearch stabs type fuel left right addr = some (regionLeft, regionRight) ∧
    ((∃ m, IsEnclosing stabs type left right addr m ∧ regionLeft = m ∧ IsEnd stabs type left right m regionRight) ∨
      (∀ m, ¬ IsEnclosing stabs type left right addr m) ∧ regionLeft > regionRight)

/-- What is needed for it: there is no entry at all, or there is an enclosing entry and, if it is hit
exactly, none of the following four bytes has an entry that is still in the window then. -/
def CanFind : Prop :=
  (∀ m, ¬ Entry stabs type left right m) ∨ ∃ m, IsEnclosing stabs type left right addr m ∧
    ((stabs m).nValue = addr → addr.toNat + 4 < wordSize ∧ ∀ n, Entry stabs type left right n → m < n →
      n ≤ windowEnd stabs type m (right - left + 1).toNat left right → addr.toNat + 4 < (stabs n).nValue.toNat)

end EnclosingEntry

end Fos.Debug
