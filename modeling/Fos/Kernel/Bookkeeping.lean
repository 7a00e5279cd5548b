import Fos.Foundation.Weakest
import Fos.Kernel.MemoryCalls
import Fos.Kernel.Faults

/-! What the kernel keeps about the elements of a working set, and the code that leaves it alone. -/

set_option autoImplicit false

namespace Fos.Kernel

open Foundation

variable {slot : Nat}

/-! ### Ways to stop -/

/-- The panic of `page_fault_handler` for a page that is neither in the page file nor a stack page. -/
def illegalAccess : Stop :=
  .panic "Illegal memory access to page that's not exist in Page File and not STACK\n"

/-- An index beyond `ptr_pageWorkingSet`, the removal of an element that is not in its list, and a
remainder by 0. -/
def listErrors : List Stop :=
  [.undefined "ptr_pageWorkingSet beyond __PWS_MAX_SIZE",
    .undefined "LIST_REMOVE of an element that is not in PageWorkingSetList", .panic "unhandled trap in kernel"]

/-- Not a refused access, and no fault of the list code. -/
def Ordinary (stop : Stop) : Prop := stop ∉ illegalAccess :: listErrors

instance : DecidablePred Ordinary := fun stop => inferInstanceAs (Decidable (stop ∉ illegalAccess :: listErrors))

/-! ### Records -/

/-- All of the record but its disk page directory. -/
def Env.withoutDirectory (env : Env) : Env := { env with
  diskEnvPgdir := none
  diskEnvPgdirPA := 0 }

/-- The program leaves the record alone, its disk page directory apart. -/
abbrev KeepsEnv {Result : Type} (slot : Nat) (program : KernelM Result) : Prop :=
  Leaves (fun state => (state.envs slot).withoutDirectory) Ordinary program

/-- The lists of an environment and the flags of its elements. -/
structure Bookkeeping where
  size : Nat
  unused : List Nat
  active : List Nat
  second : List Nat
  empty : Nat → Bool

def Env.bookkeeping (env : Env) : Bookkeeping where
  size := env.pageWSMaxSize
  unused := env.pageWorkingSetList
  active := env.activeList
  second := env.secondList
  empty element := (env.ptrPageWorkingSet element).empty

def KernelState.bookkeeping (slot : Nat) (state : KernelState) : Bookkeeping := (state.envs slot).bookkeeping

/-- The program leaves lists and flags alone. -/
abbrev KeepsBookkeeping {Result : Type} (slot : Nat) (program : KernelM Result) : Prop :=
  Leaves (KernelState.bookkeeping slot) Ordinary program

theorem KeepsEnv.bookkeeping {Result : Type} {program : KernelM Result} (keeps : KeepsEnv slot program) :
    KeepsBookkeeping slot program :=
  keeps.weaken Env.bookkeeping fun _ => id

namespace KeepsEnv

/-! ### Frames and page tables -/

theorem staticKernelVirtualAddress (physical : Nat) : KeepsEnv slot (staticKernelVirtualAddress physical) :=
  .get fun _ => .ite (.throw (by simp [Ordinary, illegalAccess, listErrors])) (.pure _)

theorem toFrameInfo (physical : Nat) : KeepsEnv slot (toFrameInfo physical) :=
  .get fun _ => .ite (.throw (by simp [Ordinary, illegalAccess, listErrors])) (.pure _)

theorem allocateFrame : KeepsEnv slot allocateFrame := by
  unfold Kernel.allocateFrame
  apply Leaves.get
  intro state
  split
  · exact .throw (by simp [Ordinary, illegalAccess, listErrors])
  · exact .bind (.modify fun _ => rfl) fun _ => .bind (.modify fun _ => rfl) fun _ => .pure _

theorem freeFrame (frame : Nat) : KeepsEnv slot (freeFrame frame) :=
  .bind (.modify fun _ => rfl) fun _ => .modify fun _ => rfl

theorem decrementReferences (frame : Nat) : KeepsEnv slot (decrementReferences frame) :=
  .get fun _ => .bind (.modify fun _ => rfl) fun _ => .ite (freeFrame frame) (.pure _)

theorem getPageTable (directory address : Nat) : KeepsEnv slot (getPageTable directory address) :=
  .get fun _ => .bind (staticKernelVirtualAddress _) fun _ =>
    .ite (.pure _) (.ite (.throw (by simp [Ordinary, illegalAccess, listErrors])) (.pure _))

theorem createTable (directory address permissions : Nat) :
    KeepsEnv slot (createTable directory address permissions) :=
  .bind allocateFrame fun _ => .bind (staticKernelVirtualAddress _) fun _ => .bind (.modify fun _ => rfl) fun _ =>
    .bind (.modify fun _ => rfl) fun _ => .bind (.modify fun _ => rfl) fun _ => .pure _

theorem staticCpt (directory address : Nat) : KeepsEnv slot (staticCpt directory address) :=
  createTable directory address _

theorem getFrameInfo (directory address : Nat) : KeepsEnv slot (getFrameInfo directory address) := by
  apply Leaves.bind (getPageTable directory address)
  intro table
  cases table with
  | none => exact .pure _
  | some table => exact .get fun _ => .ite (.bind (toFrameInfo _) fun _ => .pure _) (.pure _)

theorem unmapFrame (directory address : Nat) : KeepsEnv slot (unmapFrame directory address) := by
  apply Leaves.bind (getFrameInfo directory address)
  rintro ⟨frame, table⟩
  cases frame with
  | none => exact .pure _
  | some frame => cases table with
    | none => exact .pure _
    | some table =>
        dsimp only
        exact .bind (decrementReferences frame) fun _ => .modify fun _ => rfl

theorem bindFrame (table frame address permissions : Nat) :
    KeepsEnv slot (bindFrame table frame address permissions) :=
  .bind (.modify fun _ => rfl) fun _ => .modify fun _ => rfl

theorem mapInTable (directory table frame address permissions : Nat) :
    KeepsEnv slot (mapInTable directory table frame address permissions) :=
  .get fun _ => .ite (.pure _) (.ite (.bind (unmapFrame _ _) fun _ => bindFrame _ _ _ _) (bindFrame _ _ _ _))

theorem mapFrame (directory frame address permissions : Nat) :
    KeepsEnv slot (mapFrame directory frame address permissions) := by
  apply Leaves.bind (getPageTable directory address)
  intro table
  cases table with
  | none => exact .bind (staticCpt _ _) fun _ => mapInTable _ _ _ _ _
  | some table => exact mapInTable _ _ _ _ _

theorem pageTableForFlags (directory address : Nat) {onDisk missing : String}
    (notOnDisk : Ordinary (.panic onDisk)) (notMissing : Ordinary (.panic missing)) :
    KeepsEnv slot (pageTableForFlags directory address onDisk missing) :=
  .get fun _ => .ite (staticKernelVirtualAddress _) (.ite (.throw notOnDisk) (.throw notMissing))

theorem ptSetPagePermissions (owner address set clear : Nat) :
    KeepsEnv slot (ptSetPagePermissions owner address set clear) :=
  .get fun _ => .bind (pageTableForFlags _ _ (by simp [Ordinary, illegalAccess, listErrors])
    (by simp [Ordinary, illegalAccess, listErrors])) fun _ => .modify fun _ => rfl

theorem ptGetPagePermissions (owner address : Nat) : KeepsEnv slot (ptGetPagePermissions owner address) :=
  .get fun _ => .get fun _ => .ite (.bind (staticKernelVirtualAddress _) fun _ => .get fun _ => .pure _)
    (.ite (.throw (by simp [Ordinary, illegalAccess, listErrors])) (.pure _))

theorem modifyMappedPage (address : Nat) (change : Page → Page) : KeepsEnv slot (modifyMappedPage address change) := by
  apply Leaves.get
  intro state
  apply Leaves.get
  intro state'
  dsimp only
  split
  · exact .throw (by simp [Ordinary, illegalAccess, listErrors])
  · exact .bind (.modify fun _ => rfl) fun _ => .modify fun _ => rfl

/-! ### The page file -/

theorem allocateDiskFrame : KeepsEnv slot allocateDiskFrame := by
  unfold Kernel.allocateDiskFrame
  apply Leaves.get
  intro state
  split
  · exact .pure _
  · exact .bind (.modify fun _ => rfl) fun _ => .pure _

theorem getDiskPageTable (directory address : Nat) (create : Bool) :
    KeepsEnv slot (getDiskPageTable directory address create) :=
  .get fun _ => .bind (staticKernelVirtualAddress _) fun _ =>
    .ite (.ite (.bind (createTable _ _ _) fun _ => .pure _) (.pure _)) (.pure _)

/-- Only the disk page directory of a record changes. -/
theorem withoutDirectory_setEnv {state : KernelState} {owner : Nat} {env : Env}
    (same : env.withoutDirectory = (state.envs owner).withoutDirectory) :
    ((state.setEnv owner env).envs slot).withoutDirectory = (state.envs slot).withoutDirectory := by
  by_cases own : slot = owner
  · subst own
    simp [same]
  · simp [own]

theorem getDiskPageDirectory (owner : Nat) : KeepsEnv slot (getDiskPageDirectory owner) := by
  unfold Kernel.getDiskPageDirectory
  apply Leaves.get
  intro state
  split
  · exact .pure _
  · apply Leaves.bind allocateFrame
    intro frame
    exact .bind (.modify fun _ => rfl) fun _ => .bind (staticKernelVirtualAddress _) fun _ =>
      .bind (.modify fun _ => withoutDirectory_setEnv rfl) fun _ => .bind (.modify fun _ => rfl) fun _ => .pure _

theorem addDiskFrame (owner address : Nat) : KeepsEnv slot (addDiskFrame owner address) := by
  unfold Kernel.addDiskFrame
  apply Leaves.ite (.throw_bind (by simp [Ordinary, illegalAccess, listErrors]))
  apply Leaves.bind (getDiskPageDirectory owner)
  intro directory
  apply Leaves.bind (getDiskPageTable directory address true)
  rintro (_ | table)
  · exact .pure _
  · apply Leaves.get
    intro state
    apply Leaves.ite _ (.pure _)
    apply Leaves.bind allocateDiskFrame
    rintro (_ | diskFrame)
    · exact .pure _
    · exact .bind (.modify fun _ => rfl) fun _ => .pure _

theorem pfAddEnvPage (owner address : Nat) (dataSrc : Page) : KeepsEnv slot (pfAddEnvPage owner address dataSrc) := by
  unfold Kernel.pfAddEnvPage
  apply Leaves.bind (addDiskFrame owner address)
  rintro (_ | diskFrame)
  · exact .pure _
  · exact .bind (.modify fun _ => rfl) fun _ => .pure _

theorem pfAddEmptyEnvPage (owner address : Nat) (initializeByZero : Bool) :
    KeepsEnv slot (pfAddEmptyEnvPage owner address initializeByZero) := by
  unfold Kernel.pfAddEmptyEnvPage
  apply Leaves.ite
  · exact .get fun _ => pfAddEnvPage _ _ _
  · apply Leaves.bind (addDiskFrame owner address)
    rintro (_ | diskFrame)
    · exact .pure _
    · exact .pure _

theorem pfUpdateEnvPage (owner address : Nat) (frame : Option Nat) :
    KeepsEnv slot (pfUpdateEnvPage owner address frame) := by
  unfold Kernel.pfUpdateEnvPage
  apply Leaves.ite (.throw_bind (by simp [Ordinary, illegalAccess, listErrors]))
  apply Leaves.bind (getDiskPageDirectory owner)
  intro directory
  apply Leaves.bind (getDiskPageTable directory address false)
  rintro (_ | table)
  · exact .pure _
  · apply Leaves.get
    intro state
    apply Leaves.ite (.pure _)
    cases frame with
    | none => exact .throw (by simp [Ordinary, illegalAccess, listErrors])
    | some frame =>
        exact .bind (staticKernelVirtualAddress _) fun _ => .bind (.modify fun _ => rfl) fun _ => .pure _

theorem pfReadEnvPage (owner address : Nat) : KeepsEnv slot (pfReadEnvPage owner address) := by
  unfold Kernel.pfReadEnvPage
  apply Leaves.get
  intro state
  split
  · exact .pure _
  · apply Leaves.bind (getDiskPageTable _ _ false)
    rintro (_ | table)
    · exact .pure _
    · apply Leaves.get
      intro read
      apply Leaves.ite (.pure _)
      apply Leaves.get
      intro loaded
      apply Leaves.bind (modifyMappedPage _ _)
      intro _
      apply Leaves.get
      intro current
      split
      · exact .bind (.throw (by simp [Ordinary, illegalAccess, listErrors])) fun _ => .pure _
      · exact .bind (ptSetPagePermissions _ _ _ _) fun _ => .pure _

theorem writeBackIfModified (owner address permissions : Nat) (frame : Option Nat) :
    KeepsEnv slot (writeBackIfModified owner address permissions frame) :=
  .ite (.bind (pfUpdateEnvPage _ _ _) fun _ => .pure _) (.pure _)

/-! ### Memory calls -/

theorem ptClearPageTableEntry (owner address : Nat) : KeepsEnv slot (ptClearPageTableEntry owner address) :=
  .get fun _ => .bind (pageTableForFlags _ _ (by simp [Ordinary, illegalAccess, listErrors])
    (by simp [Ordinary, illegalAccess, listErrors])) fun _ => .modify fun _ => rfl

theorem pdClearPageDirEntry (owner address : Nat) : KeepsEnv slot (pdClearPageDirEntry owner address) :=
  .modify fun _ => rfl

theorem freeDiskFrame (diskFrame : Nat) : KeepsEnv slot (freeDiskFrame diskFrame) :=
  .ite (.pure _) (.modify fun _ => rfl)

theorem pfRemoveEnvPage (owner address : Nat) : KeepsEnv slot (pfRemoveEnvPage owner address) := by
  unfold Kernel.pfRemoveEnvPage
  apply Leaves.get
  intro state
  split
  · exact .pure _
  · apply Leaves.bind (getDiskPageTable _ _ false)
    rintro (_ | table)
    · exact .pure _
    · exact .get fun _ => .bind (.modify fun _ => rfl) fun _ => freeDiskFrame _

theorem removePages (owner address count : Nat) : KeepsEnv slot (removePages owner address count) := by
  induction count generalizing address with
  | zero => exact .pure _
  | succ count ih => exact .bind (pfRemoveEnvPage _ _) fun _ => ih _

theorem freeMemTable (owner address : Nat) : KeepsEnv slot (freeMemTable owner address) := by
  apply Leaves.get
  intro state
  apply Leaves.bind (getPageTable _ _)
  rintro (_ | table)
  · exact .bind (getFrameInfo _ _) fun _ => .pure _
  · apply Leaves.get
    intro counted
    apply Leaves.bind (getFrameInfo _ _)
    rintro ⟨_ | frame, found⟩
    · exact .pure _
    · exact .ite (.bind (freeFrame _) fun _ => pdClearPageDirEntry _ _) (.pure _)

theorem allocateMemPage (owner address : Nat) : KeepsEnv slot (allocateMemPage owner address) :=
  .bind (pfAddEmptyEnvPage _ _ _) fun _ => .ite (.throw (by simp [Ordinary, illegalAccess, listErrors]))
    (.bind allocateFrame fun _ => .get fun _ => mapFrame _ _ _ _)

theorem allocateMem (owner address size : Nat) : KeepsEnv slot (allocateMem owner address size) := by
  unfold Kernel.allocateMem
  generalize size / pageSize = count
  induction count generalizing address with
  | zero => exact .pure _
  | succ count ih => exact .bind (allocateMemPage _ _) fun _ => ih _

theorem sysAllocatePage (owner address perm : Nat) : KeepsEnv slot (sysAllocatePage owner address perm) :=
  .bind allocateFrame fun _ => .ite (.pure _) (.ite (.pure _) (.bind (staticKernelVirtualAddress _) fun _ =>
    .bind (.modify fun _ => rfl) fun _ => .get fun _ => .bind (mapFrame _ _ _ _) fun _ => .pure _))

end KeepsEnv

/-! ### Elements -/

/-- Another entry for one environment. -/
theorem bookkeeping_setEnv {state : KernelState} {owner : Nat} {env : Env}
    (same : env.bookkeeping = (state.envs owner).bookkeeping) :
    (state.setEnv owner env).bookkeeping slot = state.bookkeeping slot := by
  by_cases own : slot = owner
  · subst own
    simp [KernelState.bookkeeping, same]
  · simp [KernelState.bookkeeping, own]

/-- Another page for an element. -/
theorem bookkeeping_setAddress (env : Env) (element address : Nat) :
    (env.setElement element { env.ptrPageWorkingSet element with virtualAddress := address }).bookkeeping =
      env.bookkeeping := by
  simp only [Env.bookkeeping, Env.setElement, Bookkeeping.mk.injEq, true_and]
  funext other
  split
  · next same => rw [same]
  · rfl

theorem KeepsBookkeeping.setVirtualAddress (owner element address : Nat) :
    KeepsBookkeeping slot (setVirtualAddress owner element address) :=
  .modify fun _ => bookkeeping_setEnv (bookkeeping_setAddress _ _ _)

end Fos.Kernel
