import Fos.Kernel.Faults

/-! The state `FOS_initialize` leaves: the kernel page tables of `initialize_kernel_VM`,
the free lists of `initialize_paging`, and the environments of `env_init`. -/

set_option autoImplicit false

namespace Fos.Kernel

/-- Where `boot_allocate_space` put the boot-time arrays, as frame numbers. -/
structure BootLayout where
  numberOfFrames : Nat
  pageDirectory : Nat
  stackTable : Nat
  windowTable : Nat → Nat
  envsTable : Nat
  stackBottom : Nat
  envsFrame : Nat
  envsPages : Nat
  rangeEnd : Nat

/-- The number of page tables that map the memory at `KERNEL_BASE`. -/
abbrev windowTables : Nat := 64

/-- All boot-time arrays lie between the extended memory and `ptr_free_mem`. -/
structure BootLayout.Valid (layout : BootLayout) : Prop where
  frames : layout.rangeEnd ≤ layout.numberOfFrames ∧ layout.numberOfFrames ≤ 65536
  directory : 256 ≤ layout.pageDirectory ∧ layout.pageDirectory < layout.rangeEnd
  stack : 256 ≤ layout.stackTable ∧ layout.stackTable < layout.rangeEnd
  window : ∀ i < windowTables, 256 ≤ layout.windowTable i ∧ layout.windowTable i < layout.rangeEnd
  envs : 256 ≤ layout.envsTable ∧ layout.envsTable < layout.rangeEnd
  windowDistinct : ∀ i < windowTables, ∀ j < windowTables,
    layout.windowTable i = layout.windowTable j → i = j
  distinct : layout.pageDirectory ≠ layout.stackTable ∧
    layout.pageDirectory ≠ layout.envsTable ∧ layout.stackTable ≠ layout.envsTable ∧
    ∀ i < windowTables, layout.windowTable i ≠ layout.pageDirectory ∧
      layout.windowTable i ≠ layout.stackTable ∧ layout.windowTable i ≠ layout.envsTable
  envsPages : layout.envsPages ≤ 1024

/-- The frames that `initialize_paging` puts on the free list. -/
def BootLayout.Managed (layout : BootLayout) (frame : Nat) : Prop :=
  3 ≤ frame ∧ frame < physIOMem / pageSize ∨
    layout.rangeEnd ≤ frame ∧ frame < layout.numberOfFrames

instance (layout : BootLayout) (frame : Nat) : Decidable (layout.Managed frame) :=
  inferInstanceAs (Decidable (_ ∨ _))

/-- `count` frames from `first` on, each inserted at the head. -/
def insertedAtHead (first : Nat) : Nat → List Nat
  | 0 => []
  | count + 1 => (first + count) :: insertedAtHead first count

/-- The entries `initialize_kernel_VM` makes in the boot-time page directory. -/
def BootLayout.directoryWord (layout : BootLayout) (index : Nat) : Nat :=
  if index = pdx vpt then
    constructEntry (toPhysicalAddress layout.pageDirectory) (permPresent ||| permWriteable)
  else if index = pdx uvpt then
    constructEntry (toPhysicalAddress layout.pageDirectory) (permUser ||| permPresent)
  else if index = pdx (kernelStackTop - kernelStackSize) then
    constructEntry (toPhysicalAddress layout.stackTable) (permPresent ||| permWriteable)
  else if index = pdx uenvs then
    constructEntry (toPhysicalAddress layout.envsTable)
      (permPresent ||| permWriteable ||| permUser)
  else if pdx kernelBase ≤ index ∧ index < 1024 then
    constructEntry (toPhysicalAddress (layout.windowTable (index - pdx kernelBase)))
      (permPresent ||| permWriteable)
  else 0

/-- What the boot code writes to a word of a frame, if anything. -/
def BootLayout.bootWord (layout : BootLayout) (frame index : Nat) : Option Nat :=
  if frame = layout.pageDirectory then
    some (layout.directoryWord index)
  else if frame = layout.stackTable ∧ ptx (kernelStackTop - kernelStackSize) ≤ index ∧
      index < 1024 then
    some (constructEntry (toPhysicalAddress
      (layout.stackBottom + (index - ptx (kernelStackTop - kernelStackSize))))
      (permWriteable ||| permPresent))
  else if frame = layout.envsTable ∧ index < layout.envsPages then
    some (constructEntry (toPhysicalAddress (layout.envsFrame + index))
      (permUser ||| permPresent))
  else match (List.range windowTables).find? fun i => layout.windowTable i = frame with
    | some i => some (constructEntry (toPhysicalAddress (i * 1024 + index))
        (permWriteable ||| permPresent))
    -- `ptr_zero_page` and `ptr_temp_page` are byte pointers: 1024 bytes are cleared
    | none => if (frame = 1 ∨ frame = 2) ∧ index < 256 then some 0 else none

/-- Physical memory after booting, over what was in it before. -/
def BootLayout.bootMem (layout : BootLayout) (ram : Nat → Page) : Nat → Page :=
  fun frame index => (layout.bootWord frame index).getD (ram frame index)

/-- The kernel state when the first command prompt runs, over what was in memory and on
the disk before. -/
def BootLayout.boot (layout : BootLayout) (ram disk : Nat → Page) : KernelState where
  mem := layout.bootMem ram
  numberOfFrames := layout.numberOfFrames
  ptrPageDirectory := layout.pageDirectory
  references := fun frame =>
    if frame < layout.numberOfFrames ∧ ¬ layout.Managed frame then 1 else 0
  freeFrameList := insertedAtHead layout.rangeEnd (layout.numberOfFrames - layout.rangeEnd) ++
    insertedAtHead 3 (physIOMem / pageSize - 3)
  disk := disk
  diskFreeFrameList := insertedAtHead 1 (pagesPerFile - 1)
  envs := fun _ => Env.zero
  envFreeList := List.range nenv
  envNewQueue := []
  envReadyQueue := []
  envExitQueue := []
  curenv := none
  cr3 := toPhysicalAddress layout.pageDirectory

/-- A machine with 4 MB of memory. -/
def BootLayout.small : BootLayout where
  numberOfFrames := 1024
  pageDirectory := 300
  stackTable := 301
  windowTable := fun i => 302 + i
  envsTable := 900
  stackBottom := 260
  envsFrame := 760
  envsPages := 130
  rangeEnd := 1000

theorem BootLayout.small_valid : BootLayout.small.Valid where
  frames := by decide
  directory := by decide
  stack := by decide
  window i inWindow := by
    simp only [small, windowTables] at *
    omega
  envs := by decide
  windowDistinct i _ j _ same := by
    simp only [small] at same
    omega
  distinct := by
    refine ⟨by decide, by decide, by decide, fun i inWindow => ?_⟩
    simp only [small, windowTables] at *
    omega
  envsPages := by decide

end Fos.Kernel
