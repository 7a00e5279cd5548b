import Fos.Kernel.Moves

/-! The booted kernel: every frame is free, and no environment names one. -/

set_option autoImplicit false

namespace Fos.Kernel

open Foundation

variable {layout : BootLayout} {ram disk : Nat → Page}

theorem mem_insertedAtHead {first count item : Nat} :
    item ∈ insertedAtHead first count ↔ first ≤ item ∧ item < first + count := by
  induction count with
  | zero =>
      simp only [insertedAtHead, List.not_mem_nil, false_iff]
      omega
  | succ count ih =>
      rw [insertedAtHead, List.mem_cons, ih]
      omega

theorem nodup_insertedAtHead (first count : Nat) : (insertedAtHead first count).Nodup := by
  induction count with
  | zero => exact List.nodup_nil
  | succ count ih =>
      refine List.nodup_cons.2 ⟨fun member => ?_, ih⟩
      have := (mem_insertedAtHead.1 member).2
      omega

theorem length_insertedAtHead (first count : Nat) : (insertedAtHead first count).length = count := by
  induction count with
  | zero => rfl
  | succ count ih => rw [insertedAtHead, List.length_cons, ih]

/-! ### No environment has anything -/

theorem root_boot (side : Side) (slot : Nat) : (layout.boot ram disk).root side slot = 0 := by
  cases side <;> rfl

theorem dirWord_boot (side : Side) (slot index : Nat) :
    (layout.boot ram disk).dirWord side slot index = 0 :=
  if_pos (.inl (root_boot side slot))

theorem leaf_boot (side : Side) (slot page : Nat) : (layout.boot ram disk).leaf side slot page = 0 :=
  KernelState.leaf_of_dirWord_eq_zero (dirWord_boot side slot _)

theorem names_boot (place : Place) : (layout.boot ram disk).names place = none := by
  cases place with
  | root side slot => simp [KernelState.names, root_boot]
  | table side slot index => simp [KernelState.names, dirWord_boot]
  | page slot number => simp [KernelState.names, leaf_boot]

theorem diskNames_boot (place : Nat × Nat) : (layout.boot ram disk).diskNames place = none := by
  simp [KernelState.diskNames, leaf_boot]

/-! ### The free lists -/

theorem mem_freeFrameList_boot (valid : layout.Valid) {frame : Nat} :
    frame ∈ (layout.boot ram disk).freeFrameList ↔ layout.Managed frame := by
  have frames := valid.frames
  simp only [BootLayout.boot, List.mem_append, mem_insertedAtHead, BootLayout.Managed, physIOMem,
    pageSize]
  omega

theorem nodup_freeFrameList_boot (valid : layout.Valid) :
    (layout.boot ram disk).freeFrameList.Nodup := by
  have directory := valid.directory
  refine List.nodup_append.2 ⟨nodup_insertedAtHead .., nodup_insertedAtHead .., ?_⟩
  intro high inHigh low inLow same
  have above := (mem_insertedAtHead.1 inHigh).1
  have below := (mem_insertedAtHead.1 inLow).2
  simp only [physIOMem, pageSize] at below
  omega

theorem boot_inv (valid : layout.Valid) (ram disk : Nat → Page) :
    Inv layout ram (layout.boot ram disk) where
  size := rfl
  directory := rfl
  kernel _ _ := rfl
  words side slot index present := absurd (dirWord_boot side slot index) present
  upper side slot _ live := absurd (root_boot side slot) live
  physical _ := rfl
  physicalDisk _ _ placed := by cases placed
  exclusive :=
    { nodup := nodup_freeFrameList_boot valid
      injective := fun place _ item named => by simp [names_boot] at named
      apart := fun place item named => by simp [names_boot] at named }
  managedFree _ member := (mem_freeFrameList_boot valid).1 member
  managed place frame named := by simp [names_boot] at named
  references place frame named := by simp [names_boot] at named
  diskExclusive :=
    { nodup := nodup_insertedAtHead ..
      injective := fun place _ item named => by simp [diskNames_boot] at named
      apart := fun place item named => by simp [diskNames_boot] at named }
  diskPositive _ member := by
    have := (mem_insertedAtHead.1 member).1
    omega

end Fos.Kernel
