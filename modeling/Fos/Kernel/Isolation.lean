import Fos.Kernel.SystemProperties

/-! The kernel's part of every address space is out of reach, and no frame is in two hands. -/

set_option autoImplicit false

namespace Fos.Kernel

open Foundation

variable {layout : BootLayout} {ram disk : Nat → Page} {slot address : Nat} {strict tidy : Prop}
  {state next : KernelState}

/-! ### The kernel's part of memory -/

/-- The directory entry and the table entry the processor reads for an address. -/
def KernelState.walk (state : KernelState) (directory address : Nat) : Nat × Nat :=
  let word := state.mem directory (pdx address)
  (word, state.mem (frameOf word) (ptx address))

/-- The addresses from `USER_TOP` on, but for the two windows in which a directory shows itself. -/
structure KernelAddress (address : Nat) : Prop where
  above : userTop ≤ address
  word : address < wordSize
  notVpt : pdx address ≠ pdx vpt
  notUvpt : pdx address ≠ pdx uvpt

/-- Every page directory translates the kernel's addresses as boot set them up, and no frame that
was marked as in use is free. -/
structure KernelIntact (booted state : KernelState) : Prop where
  kernel : ∀ address, KernelAddress address →
    state.walk state.ptrPageDirectory address = booted.walk booted.ptrPageDirectory address
  environments : ∀ slot, state.root .user slot ≠ 0 → ∀ address, KernelAddress address →
    state.walk (state.root .user slot) address = booted.walk booted.ptrPageDirectory address
  unmarked : ∀ frame, booted.references frame ≠ 0 → frame ∉ state.freeFrameList

/-- The tables the boot-time directory names are the kernel's own. -/
theorem BootLayout.directoryWord_unmanaged (valid : layout.Valid) {index : Nat} (inDirectory : index < 1024) :
    ¬ layout.Managed (frameOf (layout.directoryWord index)) := by
  have directory := BootLayout.not_managed valid.directory.1 valid.directory.2
  have base : pdx kernelBase = 960 := by decide
  unfold BootLayout.directoryWord
  split
  · rwa [frameOf_constructEntry _ (by decide)]
  · split
    · rwa [frameOf_constructEntry _ (by decide)]
    · split
      · rw [frameOf_constructEntry _ (by decide)]
        exact BootLayout.not_managed valid.stack.1 valid.stack.2
      · split
        · rw [frameOf_constructEntry _ (by decide)]
          exact BootLayout.not_managed valid.envs.1 valid.envs.2
        · split
          · rw [frameOf_constructEntry _ (by decide), base]
            have window := valid.window (index - 960) (by simp only [windowTables]; omega)
            exact BootLayout.not_managed window.1 window.2
          · rintro managed
            have positive := (managed.pos valid).1
            exact absurd positive (by decide)

theorem Inv.walk_eq (valid : layout.Valid) (inv : Inv layout ram state) {directory : Nat}
    (inDirectory : pdx address < 1024)
    (word : state.mem directory (pdx address) = layout.directoryWord (pdx address)) :
    state.walk directory address =
      (layout.boot ram disk).walk (layout.boot ram disk).ptrPageDirectory address := by
  have booted := boot_inv valid ram disk
  have bootWord := mem_pageDirectory valid booted (pdx address)
  have unmanaged := BootLayout.directoryWord_unmanaged valid inDirectory
  simp only [KernelState.walk, word, bootWord, Prod.mk.injEq, true_and]
  rw [inv.kernel _ unmanaged, booted.kernel _ unmanaged]

theorem pdx_lt (address : Nat) : pdx address < 1024 := by
  rw [pdx_eq]
  exact Nat.mod_lt _ (by decide)

theorem Inv.kernelIntact (valid : layout.Valid) (inv : Inv layout ram state) (disk : Nat → Page) :
    KernelIntact (layout.boot ram disk) state where
  kernel address _ := inv.walk_eq valid (pdx_lt address) (mem_pageDirectory valid inv _)
  environments slot live address kernelAddress := by
    apply inv.walk_eq valid (pdx_lt address)
    have above : userTables ≤ pdx address := by
      rw [pdx_of_lt kernelAddress.word, userTables_eq]
      have high := kernelAddress.above
      simp only [pageOf, pageSize, userTop, uenvs] at high ⊢
      omega
    rw [inv.upper .user slot _ live above (pdx_lt address)]
    simp only [BootLayout.upperWord, if_neg kernelAddress.notVpt, if_neg kernelAddress.notUvpt]
  unmarked frame marked free := by
    have managed := inv.managedFree frame free
    simp only [BootLayout.boot, managed, not_true_eq_false, and_false, if_false] at marked
    exact marked rfl

/-- In every run of contained events the kernel's part of memory stays out of reach. -/
theorem kernelIntact_of_reaches (valid : layout.Valid)
    (reached : (bootedKernel layout ram disk).Reaches Contained state) :
    KernelIntact (layout.boot ram disk) state :=
  (population_of_booted valid reached).inv.kernelIntact valid disk

private theorem exists_clean {allowed : KernelState → Event → Prop} {events : List Event} {good : KernelState → Prop}
    (permitted : ∀ state, ∀ event ∈ events, allowed state event)
    (ran : ∃ last ∈ (bootedKernel .small (fun _ => Page.zero) fun _ => Page.zero).run cleanMachine events, good last) :
    ∃ last, (bootedKernel .small (fun _ => Page.zero) fun _ => Page.zero).Reaches allowed last ∧ good last :=
  System.Reaches.exists_of_run rfl permitted ran

/-- After two pages of the heap were allocated. -/
theorem kernelIntact_of_reaches_heap : ∃ state, state.curenv = some 0 ∧ state.leaf .user 0 0x80001 ≠ 0 ∧
    KernelIntact cleanMachine state := by
  obtain ⟨state, reached, curenv, mapped⟩ := exists_clean contained_allocated
    (by decide +kernel : ∃ last ∈ (bootedKernel .small (fun _ => Page.zero) fun _ => Page.zero).run cleanMachine
      (opening ++ [.allocateMem 0x80000000 8192]), last.curenv = some 0 ∧ last.leaf .user 0 0x80001 ≠ 0)
  exact ⟨state, curenv, mapped, kernelIntact_of_reaches BootLayout.small_valid reached⟩

/-- `allocateMem` at `UENVS` replaces the first page of `envs` there and frees its frame. -/
theorem not_kernelIntact : ∃ state,
    (bootedKernel .small (fun _ => Page.zero) fun _ => Page.zero).Reaches (fun _ _ => True) state ∧
    state.curenv = some 0 ∧ KernelAddress uenvs ∧ cleanMachine.references 760 = 1 ∧ 760 ∈ state.freeFrameList ∧
    state.walk (state.root .user 0) uenvs ≠ cleanMachine.walk cleanMachine.ptrPageDirectory uenvs ∧
    ¬ KernelIntact cleanMachine state := by
  obtain ⟨state, reached, curenv, free, moved⟩ := exists_clean (fun _ _ _ => trivial)
    (by decide +kernel : ∃ last ∈ (bootedKernel .small (fun _ => Page.zero) fun _ => Page.zero).run cleanMachine
      (opening ++ [.allocateMem uenvs 4096]), last.curenv = some 0 ∧ 760 ∈ last.freeFrameList ∧
        last.walk (last.root .user 0) uenvs ≠ cleanMachine.walk cleanMachine.ptrPageDirectory uenvs)
  have marked : cleanMachine.references 760 = 1 := by decide +kernel
  refine ⟨state, reached, curenv, ⟨by decide, by decide, by decide, by decide⟩, marked, free, moved, fun intact => ?_⟩
  exact intact.unmarked 760 (marked ▸ Nat.one_ne_zero) free

/-! ### Frames -/

/-- Every frame is free once, or named by one place, or neither: by a page directory or a disk page directory,
by an entry of these, or by an entry of a page table. `env_cr3` is the page directory. -/
structure FramesApart (state : KernelState) : Prop extends Exclusive state.freeFrameList state.names where
  cr3 : ∀ slot, (state.envs slot).envCr3 = toPhysicalAddress (state.root .user slot)

/-- In every run of contained events no frame is in two hands. -/
theorem framesApart_of_reaches (valid : layout.Valid)
    (reached : (kernel layout).Reaches Contained state) : FramesApart state := by
  obtain ⟨ram, population⟩ := population_of_contained valid reached
  exact ⟨population.inv.exclusive, population.inv.physical⟩

/-- After two pages of the heap were allocated. -/
theorem framesApart_of_reaches_heap : ∃ state, state.curenv = some 0 ∧ state.leaf .user 0 0x80001 ≠ 0 ∧
    FramesApart state := by
  obtain ⟨state, reached, curenv, mapped⟩ := System.Reaches.exists_of_run
    (⟨_, _, rfl⟩ : (kernel .small).start cleanMachine) contained_allocated
    (by decide +kernel : ∃ last ∈ (kernel .small).run cleanMachine (opening ++ [.allocateMem 0x80000000 8192]),
      last.curenv = some 0 ∧ last.leaf .user 0 0x80001 ≠ 0)
  exact ⟨state, curenv, mapped, framesApart_of_reaches BootLayout.small_valid reached⟩

/-- The entry of the stack page is cleared while an element of it is left, in two environments: with a segment on
that page, and with sizes that leave no room in `ActiveList`. -/
def sharingRuns : List (List Event) :=
  [[.create stackProgram 3 1, .create stackProgram 3 1, .start 0, .start 1, .schedule] ++ stackFaults ++
      [.schedule] ++ stackFaults,
    [.create codeProgram 3 3, .create codeProgram 3 3, .start 0, .start 1, .schedule] ++ crampedFaults ++
      [.schedule] ++ crampedFaults]

/-- Setting a flag of the zero entry maps frame 0 in both environments. -/
theorem not_framesApart : sharingRuns.Forall fun events => ∃ state ∈ (kernel .small).run cleanMachine events,
    state.names (.page 0 stackPage) = some 0 ∧ state.names (.page 1 stackPage) = some 0 ∧ ¬ FramesApart state := by
  refine List.forall_iff_forall_mem.mpr fun events member => ?_
  have shares : ∀ events ∈ sharingRuns, ∃ state ∈ (kernel .small).run cleanMachine events,
      state.names (.page 0 stackPage) = some 0 ∧ state.names (.page 1 stackPage) = some 0 := by decide +kernel
  obtain ⟨state, ran, first, second⟩ := shares events member
  refine ⟨state, ran, first, second, fun apart => ?_⟩
  have same := apart.injective _ _ 0 first second
  cases same

end Fos.Kernel
