import Fos.Kernel.LoadingProperties

/-! A free slot becomes an environment: its page directory, its empty working set and its
id. -/

set_option autoImplicit false

namespace Fos.Kernel

open Foundation

variable {layout : BootLayout} {ram : Nat → Page} {slot frame : Nat} {state next : KernelState}

/-! ### The scheduler's part of the state -/

/-- Memory, the page file and the environments are the same. -/
def SameMachine (state next : KernelState) : Prop :=
  next = { state with
    envFreeList := next.envFreeList
    envNewQueue := next.envNewQueue
    envReadyQueue := next.envReadyQueue
    envExitQueue := next.envExitQueue
    curenv := next.curenv
    cr3 := next.cr3 }

namespace SameMachine

theorem inv (same : SameMachine state next) (inv : Inv layout ram state) : Inv layout ram next := by
  rw [same]
  exact ⟨{ inv.toCore with }, inv.toLedger.congr rfl rfl rfl rfl rfl⟩

theorem envs (same : SameMachine state next) : next.envs = state.envs := by
  rw [same]

theorem space (same : SameMachine state next) (slot : Nat) : next.space slot = state.space slot := by
  rw [same]
  rfl

theorem held (same : SameMachine state next) (slot : Nat) (hand : List Nat) :
    next.Held slot hand = state.Held slot hand := by
  rw [same]
  rfl

theorem heldDisk (same : SameMachine state next) (slot : Nat) :
    next.HeldDisk slot = state.HeldDisk slot := by
  rw [same]
  rfl

end SameMachine

/-! ### The page directory of a new environment -/

/-- Nothing is left in a slot that is free. -/
structure KernelState.Vacant (state : KernelState) (slot : Nat) : Prop where
  directory : (state.envs slot).envPageDirectory = 0
  disk : (state.envs slot).diskEnvPgdir = none
  unused : (state.envs slot).pageWorkingSetList = []
  active : (state.envs slot).activeList = []
  second : (state.envs slot).secondList = []

namespace KernelState.Vacant

theorem root (vacant : state.Vacant slot) (side : Side) : state.root side slot = 0 := by
  cases side with
  | user => exact vacant.directory
  | disk => rw [KernelState.root, vacant.disk, Option.getD_none]

theorem leaf (vacant : state.Vacant slot) (side : Side) (page : Nat) : state.leaf side slot page = 0 :=
  KernelState.leaf_of_dirWord_eq_zero (if_pos (.inl (vacant.root side)))

end KernelState.Vacant

/-- The boot-time page directory maps the kernel. -/
theorem mem_pageDirectory (valid : layout.Valid) (inv : Inv layout ram state) (index : Nat) :
    state.mem state.ptrPageDirectory index = layout.directoryWord index := by
  have unmanaged : ¬ layout.Managed layout.pageDirectory :=
    BootLayout.not_managed valid.directory.1 valid.directory.2
  rw [inv.directory, inv.kernel _ unmanaged, BootLayout.bootMem, BootLayout.bootWord, if_pos rfl,
    Option.getD_some]

/-- The record a new environment starts with. -/
structure Env.Started (before after : Env) (frame : Nat) : Prop where
  same : after = { before with
    envPageDirectory := frame
    envCr3 := toPhysicalAddress frame
    diskEnvPgdir := none
    diskEnvPgdirPA := 0
    envId := after.envId
    envParentId := after.envParentId
    envStatus := .new
    pageWorkingSetList := (List.range before.pageWSMaxSize).reverse ++ before.pageWorkingSetList
    ptrPageWorkingSet := after.ptrPageWorkingSet
    pageLastWSIndex := 0
    tableLastWSIndex := 0 }
  elements : ∀ index < before.pageWSMaxSize, after.ptrPageWorkingSet index = ⟨0, true⟩

/-- The page directory of a new environment. -/
def newDirectory (layout : BootLayout) (frame : Nat) : Page := fun index =>
  if index < userTables then 0 else layout.upperWord .user frame index

/-- A slot gets a frame with a new page directory. -/
theorem attachesRoot_newDirectory {env : Env} (inDirectory : env.envPageDirectory = frame)
    (physical : env.envCr3 = toPhysicalAddress frame) (disk : env.diskEnvPgdir = none)
    (vacant : state.Vacant slot) :
    AttachesRoot layout .user slot frame state
      ((state.writeFrame frame (newDirectory layout frame)).setEnv slot env) where
  quiet := by constructor <;> rfl
  others other different := if_neg different
  roots side other := by
    by_cases same : other = slot
    · subst same
      cases side <;> simp [KernelState.root, KernelState.setEnv, inDirectory, disk, vacant.disk]
    · cases side <;> simp [KernelState.root, KernelState.setEnv, KernelState.writeFrame, same]
  physical := by
    rw [KernelState.setEnv_self, physical, inDirectory]
  physicalDisk directory found := by
    rw [KernelState.setEnv_self, disk] at found
    cases found
  mem other different := if_neg different
  low index low := by simp [KernelState.setEnv, KernelState.writeFrame, newDirectory, low]
  high index high _ := by
    simp [KernelState.setEnv, KernelState.writeFrame, newDirectory, not_lt.2 high]
  free := rfl
  references := rfl
  diskFree := rfl
  disk := rfl

/-- The two entries for the directory itself complete a copy of the kernel's entries. -/
theorem newDirectory_eq (valid : layout.Valid) (inv : Inv layout ram state) :
    (fun index => if index = pdx uvpt then toPhysicalAddress frame ||| permPresent ||| permUser
      else if index = pdx vpt then toPhysicalAddress frame ||| permPresent ||| permWriteable
      else if index < pdx userTop then 0 else state.mem state.ptrPageDirectory index) =
      newDirectory layout frame := by
  funext index
  have apart : pdx uvpt ≠ pdx vpt ∧ userTables ≤ pdx uvpt ∧ userTables ≤ pdx vpt := by decide
  simp only [newDirectory, BootLayout.upperWord, mem_pageDirectory valid inv]
  by_cases atUvpt : index = pdx uvpt
  · rw [if_pos atUvpt, if_neg (by omega), if_neg (by omega), if_pos atUvpt]
  · rw [if_neg atUvpt]
    by_cases atVpt : index = pdx vpt
    · rw [if_pos atVpt, if_neg (by omega), if_pos atVpt]
    · rw [if_neg atVpt, if_neg atVpt, if_neg atUvpt]

theorem completeEnvironmentInitialization_spec {fail : Stop → KernelState → Prop} :
    wp (completeEnvironmentInitialization slot) (fun _ next => ∃ env,
      next = (((state.writeWord (state.envs slot).envPageDirectory (pdx vpt)
        ((state.envs slot).envCr3 ||| permPresent ||| permWriteable)).writeWord
          (state.envs slot).envPageDirectory (pdx uvpt)
            ((state.envs slot).envCr3 ||| permPresent ||| permUser)).setEnv slot env).setEnvFreeList
              (state.envFreeList.erase slot) ∧
        env = { state.envs slot with
          diskEnvPgdir := none
          diskEnvPgdirPA := 0
          envId := env.envId
          envParentId := env.envParentId
          envStatus := .new }) fail state :=
  ⟨_, rfl, rfl⟩

/-- A frame in hand becomes the page directory, and the slot leaves the free list. -/
theorem initializeEnvironment_spec (valid : layout.Valid) (inv : Inv layout ram state)
    (vacant : state.Vacant slot) (fresh : state.Fresh frame) (managed : layout.Managed frame)
    (once : state.references frame = 1) {stopped : KernelState → Prop} :
    wp (initializeEnvironment slot frame) (fun _ next => ∃ ready,
      next = ready.setEnvFreeList (state.envFreeList.erase slot) ∧
        (state.envs slot).pageWSMaxSize ≤ pwsMaxSize ∧
        SpaceBecomes layout ram slot [frame] state [] ready (state.space slot) ∧
        Keeps slot [frame] state [] ready ∧
        (state.envs slot).Started (ready.envs slot) frame ∧
        ready.freeFrameList = state.freeFrameList ∧ ready.diskFreeFrameList = state.diskFreeFrameList)
      (onStop (pwsMaxSize < (state.envs slot).pageWSMaxSize) stopped) state := by
  have positive : frame ≠ 0 := by
    have := managed.pos valid
    omega
  by_cases big : pwsMaxSize < (state.envs slot).pageWSMaxSize
  · unfold initializeEnvironment
    simp only [wp_bind, wp_modifyEnv, wp_modify, wp_get, KernelState.writeFrame_envs, KernelState.setEnv_self,
      if_pos big]
    exact big
  · unfold initializeEnvironment
    simp only [wp_bind, wp_modifyEnv, wp_modify, wp_get, KernelState.writeFrame_envs, KernelState.setEnv_self,
      if_neg big]
    refine wp_mono completeEnvironmentInitialization_spec (fun _ next holds => ?_) fun _ _ => id
    obtain ⟨env, final, completed⟩ := holds
    rw [KernelState.setEnv_self] at completed
    have started : (state.envs slot).Started env frame := by
      refine ⟨?_, fun index low => ?_⟩
      · rw [completed]
      · rw [completed]
        exact if_pos low
    have attaches : AttachesRoot layout .user slot frame state
        ((state.writeFrame frame (newDirectory layout frame)).setEnv slot env) :=
      attachesRoot_newDirectory (by rw [completed]) (by rw [completed]) (by rw [completed]) vacant
    obtain ⟨becomes, keeps, -⟩ := inv.attachRoot [] attaches (vacant.root .user) fresh managed positive once
    refine ⟨_, ?_, not_lt.1 big, becomes, keeps, by rw [KernelState.setEnv_self]; exact started, rfl, rfl⟩
    rw [final, ← newDirectory_eq valid inv]
    simp only [KernelState.setEnvFreeList, KernelState.setEnv, KernelState.writeFrame, KernelState.writeWord,
      KernelState.mk.injEq, true_and, and_true, if_true]
    refine ⟨?_, ?_⟩
    · funext other index
      by_cases same : other = frame
      · simp only [same, true_and, if_true]
      · simp only [same, false_and, if_false]
    · funext other
      by_cases same : other = slot
      · simp only [same, if_true]
      · simp only [same, if_false]

end Fos.Kernel
