import Mathlib.Data.Nat.Bitwise

/-! Words, pages and the virtual memory layout: `inc/types.h` and
`inc/memlayout.h`. -/

set_option autoImplicit false

namespace Fos

abbrev wordSize : Nat := 0x100000000
abbrev pageSize : Nat := 4096
abbrev kernelBase : Nat := 0xF0000000
abbrev vpt : Nat := 0xEFC00000
abbrev kernelStackTop : Nat := vpt
abbrev kernelStackSize : Nat := 8 * pageSize
abbrev userLimit : Nat := 0xEF800000
abbrev uvpt : Nat := 0xEF400000
abbrev uenvs : Nat := 0xEEC00000
abbrev userTop : Nat := uenvs
abbrev ustackTop : Nat := userTop - 2 * pageSize
abbrev userHeapStart : Nat := 0x80000000
abbrev userHeapMax : Nat := 0xA0000000

/-- `USER_PAGES_WS_MAX`: the product `sizeof(struct WorkingSetElement) * USER_TOP`
is taken in 32 bits before it is divided. -/
abbrev userPagesWSMax : Nat := userHeapMax + 16 * userTop % wordSize / pageSize
abbrev ustackBottom : Nat := userPagesWSMax

abbrev physIOMem : Nat := 0x0A0000
abbrev physExtendedMem : Nat := 0x100000

/-- `__PWS_MAX_SIZE`, the length of `ptr_pageWorkingSet`. -/
abbrev pwsMaxSize : Nat := 5000
abbrev twsMaxSize : Nat := 50

/-- `ROUNDDOWN` to a multiple of the page size. -/
def roundDown (address : Nat) : Nat := address - address % pageSize

/-- `ROUNDUP(a, PAGE_SIZE)` on a `uint32`: the sum wraps. -/
def roundUp (address : Nat) : Nat := roundDown ((address + (pageSize - 1)) % wordSize)

/-- `n` as the `int` an unsigned value is stored in. -/
def toInt32 (value : Nat) : Int := if value < 0x80000000 then value else (value : Int) - wordSize

/-- `i` as the `uint32` a signed value is converted to. -/
def toUInt32 (value : Int) : Nat := (value % wordSize).toNat

theorem roundDown_mod (address : Nat) : roundDown address % pageSize = 0 := by
  simp only [roundDown, pageSize]
  omega

theorem roundUp_mod (address : Nat) : roundUp address % pageSize = 0 :=
  roundDown_mod _

/-- Where the sum does not wrap, rounding up stays within one page. -/
theorem roundUp_bounds {address : Nat} (bound : address ≤ wordSize - pageSize) :
    address ≤ roundUp address ∧ roundUp address < address + pageSize := by
  simp only [roundUp, roundDown, wordSize, pageSize] at bound ⊢
  omega

end Fos
