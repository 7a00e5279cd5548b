import Fos.Kernel.Words

/-! The mappings the kernel makes for itself at boot: `boot_allocate_space`, `boot_get_page_table`,
`boot_map_range` and the walk of `check_va2pa`. -/

set_option autoImplicit false

namespace Fos.Kernel

/-- Memory while there is no list of free frames. -/
structure BootState where
  mem : Nat → Page
  numberOfFrames : Nat
  ptrFreeMem : Nat

abbrev BootM := EStateM Stop BootState

@[simps] def BootState.writeWord (state : BootState) (frame index word : Nat) : BootState :=
  { state with
    mem := fun other position =>
      if other = frame ∧ position = index then word else state.mem other position }

@[simps] def BootState.setPtrFreeMem (state : BootState) (address : Nat) : BootState :=
  { state with ptrFreeMem := address }

/-- `ptr_free_mem`, which is the end of the kernel image before anything is allocated. -/
def BootState.freeMem (state : BootState) (endOfKernel : Nat) : Nat :=
  if state.ptrFreeMem = 0 then endOfKernel else state.ptrFreeMem

namespace Boot

/-- `STATIC_KERNEL_VIRTUAL_ADDRESS`: the frame behind the kernel address. -/
def kernelVirtualAddress (physical : Nat) : BootM Nat := do
  if (← get).numberOfFrames ≤ frameOf physical then
    throw (.panic "K_VIRTUAL_ADDRESS called with invalid pa")
  else
    return frameOf physical

def kernelPhysicalAddress (address : Nat) : BootM Nat := do
  if address < kernelBase then
    throw (.panic "K_PHYSICAL_ADDRESS called with invalid kva")
  else
    return address - kernelBase

/-- The memory keeps what was in it. -/
def bootAllocateSpace (endOfKernel size align : Nat) : BootM Nat := do
  let raised := ((← get).freeMem endOfKernel + (align - 1)) % wordSize
  let allocated := raised - raised % align
  modify (·.setPtrFreeMem ((allocated + size) % wordSize))
  return allocated

def bootGetPageTable (endOfKernel directory address : Nat) (create : Bool) : BootM (Option Nat) := do
  let entry := (← get).mem directory (pdx address)
  let physical := extractAddress entry
  let table ← kernelVirtualAddress physical
  if physical = 0 then
    if create then
      let allocated ← bootAllocateSpace endOfKernel pageSize pageSize
      let physical ← kernelPhysicalAddress allocated
      modify (·.writeWord directory (pdx address) (constructEntry physical (permPresent ||| permWriteable)))
      return some (frameOf physical)
    else
      return none
  else
    return some table

/-- The body of the loop of `boot_map_range`. -/
def bootMapPage (endOfKernel directory virtualAddress physicalAddress perm : Nat) : BootM Unit := do
  match ← bootGetPageTable endOfKernel directory virtualAddress true with
  | none => throw (.undefined "ptr_page_table[index_page_table]")
  | some table =>
      modify (·.writeWord table (ptx virtualAddress) (constructEntry physicalAddress (perm ||| permPresent)))

/-- The loop, with the number of steps that remain. -/
def bootMapFrom (endOfKernel directory perm : Nat) : Nat → Nat → Nat → BootM Unit
  | 0, _, _ => return ()
  | steps + 1, virtualAddress, physicalAddress => do
      bootMapPage endOfKernel directory virtualAddress physicalAddress perm
      bootMapFrom endOfKernel directory perm steps ((virtualAddress + pageSize) % wordSize)
        ((physicalAddress + pageSize) % wordSize)

/-- `i` counts the bytes in steps of a page; it is compared as a `uint32` and, as the size is not in the
last page of sizes, does not wrap. -/
def bootMapRange (endOfKernel directory virtualAddress size physicalAddress perm : Nat) : BootM Unit :=
  bootMapFrom endOfKernel directory perm ((size + (pageSize - 1)) / pageSize) virtualAddress physicalAddress

/-- `~0` without a mapping. -/
def checkVa2pa (directory address : Nat) : BootM Nat := do
  let dirEntry := (← get).mem directory (pdx address)
  if ¬ hasPerm dirEntry permPresent then
    return wordSize - 1
  else
    let table ← kernelVirtualAddress (extractAddress dirEntry)
    let entry := (← get).mem table (ptx address)
    if ¬ hasPerm entry permPresent then
      return wordSize - 1
    else
      return extractAddress entry

end Boot

/-! ### Requests -/

/-- The arguments of a call of `boot_map_range`: page-aligned words, and permission bits. -/
structure BootRange where
  virtualAddress : Nat
  size : Nat
  physicalAddress : Nat
  perm : Nat
  words : virtualAddress < wordSize ∧ size < wordSize ∧ physicalAddress < wordSize
  aligned : virtualAddress % pageSize = 0 ∧ size % pageSize = 0 ∧ physicalAddress % pageSize = 0
  bits : perm < pageSize

namespace BootRange

variable (range : BootRange)

/-- How far an address lies behind the start of the range; the range may wrap around. -/
def offset (address : Nat) : Nat := (address + wordSize - range.virtualAddress) % wordSize

def Contains (address : Nat) : Prop := range.offset address < range.size

instance (address : Nat) : Decidable (range.Contains address) := inferInstanceAs (Decidable (_ < _))

/-- The physical address of the page of an address. -/
def image (address : Nat) : Nat := (range.physicalAddress + roundDown (range.offset address)) % wordSize

/-- The page of a step of the loop, and the entry it gets. -/
def step (index : Nat) : Nat × Nat :=
  (pageOf ((range.virtualAddress + index * pageSize) % wordSize),
    constructEntry ((range.physicalAddress + index * pageSize) % wordSize) (range.perm ||| permPresent))

def steps : List (Nat × Nat) := (List.range (range.size / pageSize)).map range.step

end BootRange

/-- The last of the ranges that contains an address. -/
def lastRange (ranges : List BootRange) (address : Nat) : Option BootRange :=
  ranges.reverse.find? fun range => range.Contains address

/-- The physical address of the page in the last of the ranges that contains the address, `~0` without one. -/
def requestedAddress (ranges : List BootRange) (address : Nat) : Nat :=
  match lastRange ranges address with
  | some range => range.image address
  | none => wordSize - 1

/-- The calls, one after the other. -/
def bootMapRanges (endOfKernel directory : Nat) (ranges : List BootRange) : BootM Unit :=
  ranges.forM fun range =>
    Boot.bootMapRange endOfKernel directory range.virtualAddress range.size range.physicalAddress range.perm

/-! ### What was requested -/

/-- The regions of 4 MB of which a page was mapped, in the order of their first pages, and the entries of
the pages. -/
structure Requested where
  regions : List Nat
  entries : Nat → Option Nat

namespace Requested

def none : Requested := ⟨[], fun _ => .none⟩

/-- The region of a page has a page table. -/
def note (requested : Requested) (region : Nat) : Requested :=
  { requested with
    regions := if region ∈ requested.regions then requested.regions else requested.regions ++ [region] }

def map (requested : Requested) (page entry : Nat) : Requested :=
  { requested.note (page / 1024) with
    entries := Function.update requested.entries page entry }

def mapAll (requested : Requested) (steps : List (Nat × Nat)) : Requested :=
  steps.foldl (fun requested step => requested.map step.1 step.2) requested

end Requested

/-- What a sequence of calls asks for. -/
def requestedBy (ranges : List BootRange) : Requested :=
  Requested.none.mapAll (ranges.flatMap BootRange.steps)

end Fos.Kernel
