import Fos.Kernel.Bookkeeping
import Fos.Kernel.SystemProperties

/-! The sizes `env_create` is called with: for which of them loading stays within the working set. -/

set_option autoImplicit false

namespace Fos.Kernel

open Foundation

variable {slot pageWSSize secondListSize room : Nat} {state next : KernelState}

/-! ### What loading leaves alone -/

namespace KeepsEnv

theorem loadtimeMapFrame (directory frame address permissions : Nat) :
    KeepsEnv slot (loadtimeMapFrame directory frame address permissions) :=
  .get fun _ => .bind (staticKernelVirtualAddress _) fun _ =>
    .ite (.bind (staticCpt _ _) fun _ => bindFrame _ _ _ _) (bindFrame _ _ _ _)

theorem copySegmentPages (program : UserProgram) (segment : ProgramSegment) (address count : Nat) :
    KeepsEnv slot (copySegmentPages program segment address count) := by
  induction count generalizing address with
  | zero => exact .pure _
  | succ count ih => exact .bind (modifyMappedPage _ _) fun _ => ih _

theorem outOfPageFile : KeepsEnv slot outOfPageFile := .throw (by simp [Ordinary, illegalAccess, listErrors])

/-- A page is added, or the page file is full. -/
theorem added {program : KernelM Int} {rest : KernelM Unit} (keeps : KeepsEnv slot program) (keepsRest : KeepsEnv slot rest) :
    KeepsEnv slot (program >>= fun result =>
      if result = eNoPageFileSpace then Kernel.outOfPageFile >>= fun _ => rest else rest) :=
  .bind keeps fun _ => .ite (.bind outOfPageFile fun _ => keepsRest) keepsRest

theorem addSegmentPages (owner : Nat) (program : UserProgram) (address source count : Nat) :
    KeepsEnv slot (addSegmentPages owner program address source count) := by
  induction count generalizing address source with
  | zero => exact .pure _
  | succ count ih => exact added (pfAddEnvPage _ _ _) (ih _ _)

theorem addZeroPages (owner address count : Nat) : KeepsEnv slot (addZeroPages owner address count) := by
  induction count generalizing address with
  | zero => exact .pure _
  | succ count ih => exact added (pfAddEmptyEnvPage _ _ _) (ih _)

theorem addSegmentToPageFile (owner : Nat) (program : UserProgram) (segment : ProgramSegment) :
    KeepsEnv slot (addSegmentToPageFile owner program segment) :=
  added (pfAddEnvPage _ _ _) (.bind (addSegmentPages _ _ _ _ _) fun _ => added (pfAddEnvPage _ _ _) (addZeroPages _ _ _))

theorem loopFrom {body : Nat → KernelM Unit} (keeps : ∀ index, KeepsEnv slot (body index)) (first count : Nat) :
    KeepsEnv slot (loopFrom body first count) := by
  induction count generalizing first with
  | zero => exact .pure _
  | succ count ih => exact .bind (keeps first) fun _ => ih _

theorem clearModifiedBits (owner : Nat) : KeepsEnv slot (clearModifiedBits owner) := by
  apply Leaves.get
  intro state
  apply loopFrom
  intro index
  apply Leaves.get
  intro current
  apply Leaves.ite _ (.pure _)
  apply Leaves.bind (getPageTable _ _)
  rintro (_ | table)
  · exact .throw (by simp [Ordinary, illegalAccess, listErrors])
  · exact .modify fun _ => rfl

theorem clearPresentBits (owner : Nat) (elements : List Nat) : KeepsEnv slot (clearPresentBits owner elements) := by
  induction elements with
  | nil => exact .pure _
  | cons element elements ih => exact .get fun _ => .bind (ptSetPagePermissions _ _ _ _) fun _ => ih

end KeepsEnv

/-! ### The working set while it is filled -/

/-- Pages are loaded, and there is room for more of them and for the stack. -/
structure Env.Filled (pageWSSize secondListSize room : Nat) (env : Env) : Prop where
  pages : ∃ pages : List Nat, env.Recorded pages ∧ pages.length + room < pageWSSize ∧
    env.activeList.length = min pages.length (toUInt32 (env.activeListSize - 1))
  pageWSMaxSize : env.pageWSMaxSize = pageWSSize
  activeListSize : env.activeListSize = toInt32 ((pageWSSize + (wordSize - secondListSize)) % wordSize)
  secondListSize : env.secondListSize = toInt32 secondListSize

theorem Env.Filled.of_same {env other : Env} (filled : env.Filled pageWSSize secondListSize room)
    (same : other.withoutDirectory = env.withoutDirectory) : other.Filled pageWSSize secondListSize room := by
  have keeps {Field : Type} (field : Env → Field) : field other.withoutDirectory = field env.withoutDirectory :=
    congrArg field same
  obtain ⟨⟨pages, recorded, fits, front⟩, maxSize, activeSize, secondSize⟩ := filled
  refine ⟨⟨pages, ?_, fits, ?_⟩, (keeps Env.pageWSMaxSize).trans maxSize, (keeps Env.activeListSize).trans activeSize,
    (keeps Env.secondListSize).trans secondSize⟩
  · exact recorded.congr (keeps Env.pageWSMaxSize) (keeps Env.pageLastWSIndex) (keeps Env.ptrPageWorkingSet)
      (keeps Env.pageWorkingSetList) (keeps Env.activeList) (keeps Env.secondList)
  · have active : other.activeList = env.activeList := keeps Env.activeList
    have size : other.activeListSize = env.activeListSize := keeps Env.activeListSize
    rw [active, size]
    exact front

theorem Env.Filled.weaken {env : Env} {less : Nat} (filled : env.Filled pageWSSize secondListSize room) (small : less ≤ room) :
    env.Filled pageWSSize secondListSize less :=
  { filled with
    pages := by
      obtain ⟨pages, recorded, fits, front⟩ := filled.pages
      exact ⟨pages, recorded, by omega, front⟩ }

/-- The next page takes some of the room. -/
theorem Env.Filled.record {env : Env} (filled : env.Filled pageWSSize secondListSize room) (positive : 0 < room)
    (address : Nat) :
    (env.record address (toUInt32 (env.activeListSize - 1))).Filled pageWSSize secondListSize (room - 1) where
  pages := by
    obtain ⟨pages, recorded, fits, front⟩ := filled.pages
    have size := filled.pageWSMaxSize
    have next := recorded.record (by omega) address (toUInt32 (env.activeListSize - 1))
    refine ⟨pages ++ [address], next, ?_, ?_⟩
    · rw [List.length_append, List.length_singleton]
      omega
    · rw [List.length_append, List.length_singleton]
      simp only [Env.record, Env.setElement]
      split
      · rw [List.length_cons]
        omega
      · omega
  pageWSMaxSize := filled.pageWSMaxSize
  activeListSize := filled.activeListSize
  secondListSize := filled.secondListSize

/-- From a state with room the program leaves some of it, or stops without a fault of the list code. -/
def Fills {Result : Type} (slot pageWSSize secondListSize room : Nat) (left : Result → Nat) (program : KernelM Result) :
    Prop :=
  ∀ state : KernelState, (state.envs slot).Filled pageWSSize secondListSize room →
    wp program (fun result next => (next.envs slot).Filled pageWSSize secondListSize (left result))
      (fun stop _ => stop ∉ listErrors) state

/-- What is true of the record without its directory stays true. -/
theorem KeepsEnv.carries {Result : Type} {program : KernelM Result} {post : Result → KernelState → Prop}
    {good : Env → Prop} (keeps : KeepsEnv slot program) (holds : good (state.envs slot))
    (closed : ∀ {env other : Env}, good env → other.withoutDirectory = env.withoutDirectory → good other)
    (continues : ∀ result next, good (next.envs slot) → post result next) :
    wp program post (fun stop _ => stop ∉ listErrors) state := by
  apply wp_mono (keeps.from_state state)
  · exact fun result next same => continues result next (closed holds same)
  · exact fun _ _ failed isError => failed.2 (List.mem_cons_of_mem _ isError)

theorem KeepsEnv.wp {Result : Type} {program : KernelM Result} {post : Result → KernelState → Prop}
    (keeps : KeepsEnv slot program) (filled : (state.envs slot).Filled pageWSSize secondListSize room)
    (continues : ∀ result next, (next.envs slot).Filled pageWSSize secondListSize room → post result next) :
    wp program post (fun stop _ => stop ∉ listErrors) state :=
  keeps.carries filled Env.Filled.of_same continues

theorem fills_addTableToTableWorkingSet :
    Fills slot pageWSSize secondListSize room (fun _ => room) (addTableToTableWorkingSet slot) := by
  intro state filled
  rw [addTableToTableWorkingSet, wp_bind, wp_modifyEnv, wp_bind, wp_get, wp_ite]
  refine ⟨fun _ => ?_, fun _ => ?_⟩
  · change Stop.panic _ ∉ listErrors
    simp [listErrors]
  rw [wp_pure, KernelState.setEnv_self]
  obtain ⟨pages, recorded, fits, front⟩ := filled.pages
  exact ⟨⟨pages, recorded.congr rfl rfl rfl rfl rfl rfl, fits, front⟩, filled.pageWSMaxSize, filled.activeListSize,
    filled.secondListSize⟩

theorem fills_mapSegmentPages (address count lastTableNumber : Nat) (enough : count ≤ room) :
    Fills slot pageWSSize secondListSize room (fun _ => room - count)
      (mapSegmentPages slot address count lastTableNumber) := by
  induction count generalizing address lastTableNumber room with
  | zero => exact fun state filled => filled
  | succ count ih =>
      intro state filled
      rw [mapSegmentPages, wp_bind]
      refine KeepsEnv.allocateFrame.wp filled fun frame taken filledTaken => ?_
      rw [wp_bind, wp_get, wp_bind]
      refine (KeepsEnv.loadtimeMapFrame _ _ _ _).wp filledTaken fun _ mapped filledMapped => ?_
      obtain ⟨pages, recorded, fits, -⟩ := filledMapped.pages
      have size := filledMapped.pageWSMaxSize
      rw [wp_bind, wp_get, wp_bind, wp_recordLoadedPage recorded (by omega)]
      have next := filledMapped.record (by omega : 0 < room) address
      have rest (state : KernelState) (filled : (state.envs slot).Filled pageWSSize secondListSize (room - 1)) :
          wp (mapSegmentPages slot (address + pageSize) count (pdx address))
            (fun _ next => (next.envs slot).Filled pageWSSize secondListSize (room - (count + 1)))
            (fun stop _ => stop ∉ listErrors) state := by
        have less : room - (count + 1) = room - 1 - count := by omega
        rw [less]
        exact ih (address + pageSize) (pdx address) (by omega) state filled
      rw [wp_ite]
      constructor
      · intro _
        rw [wp_bind]
        refine wp_mono (fills_addTableToTableWorkingSet _ ?_) (fun _ last filled => rest last filled) fun _ _ => id
        rw [KernelState.setEnv_self]
        exact next
      · intro _
        apply rest
        rw [KernelState.setEnv_self]
        exact next

theorem fills_programSegmentAllocMapCopyWorkingset (program : UserProgram) (segment : ProgramSegment)
    (lastTableNumber : Nat) :
    Fills slot pageWSSize secondListSize room (fun result => room - result.1)
      (programSegmentAllocMapCopyWorkingset slot program segment room lastTableNumber) := by
  intro state filled
  have most (condition : Prop) [Decidable condition] : (if condition then min room 6 else room) ≤ room := by
    split
    · exact Nat.min_le_left _ _
    · exact le_refl _
  rw [programSegmentAllocMapCopyWorkingset, wp_bind, wp_get, wp_bind]
  refine wp_mono (fills_mapSegmentPages _ _ _ ((Nat.min_le_right _ _).trans (most _)) state filled)
    (fun _ mapped filledMapped => ?_) fun _ _ => id
  rw [wp_bind]
  exact (KeepsEnv.copySegmentPages _ _ _ _).wp filledMapped fun _ _ filledCopied => filledCopied

theorem fills_loadSegments (program : UserProgram) (segments : List ProgramSegment) (lastTableNumber : Nat) :
    Fills slot pageWSSize secondListSize room (fun _ => 0) (loadSegments slot program segments room lastTableNumber) := by
  induction segments generalizing room lastTableNumber with
  | nil => exact fun state filled => filled.weaken (Nat.zero_le _)
  | cons segment segments ih =>
      intro state filled
      rw [loadSegments, wp_bind]
      refine wp_mono (fills_programSegmentAllocMapCopyWorkingset program segment lastTableNumber state filled)
        (fun result mapped filledMapped => ?_) fun _ _ => id
      rw [wp_bind]
      exact (KeepsEnv.addSegmentToPageFile _ _ _).wp filledMapped fun _ added filledAdded => ih _ added filledAdded

/-! ### From an empty slot to an environment -/

/-- No element is in a list. -/
structure Env.Unlisted (env : Env) : Prop where
  unused : env.pageWorkingSetList = []
  active : env.activeList = []
  second : env.secondList = []

theorem Env.Unlisted.of_same {env other : Env} (unlisted : env.Unlisted)
    (same : other.withoutDirectory = env.withoutDirectory) : other.Unlisted := by
  have keeps {Field : Type} (field : Env → Field) : field other.withoutDirectory = field env.withoutDirectory :=
    congrArg field same
  exact ⟨(keeps Env.pageWorkingSetList).trans unlisted.unused, (keeps Env.activeList).trans unlisted.active,
    (keeps Env.secondList).trans unlisted.second⟩

/-- The working set has its sizes and no elements yet. -/
structure Env.Blank (pageWSSize secondListSize : Nat) (env : Env) : Prop extends env.Unlisted where
  pageWSMaxSize : env.pageWSMaxSize = pageWSSize
  activeListSize : env.activeListSize = toInt32 ((pageWSSize + (wordSize - secondListSize)) % wordSize)
  secondListSize : env.secondListSize = toInt32 secondListSize

theorem Env.Blank.filled {env : Env} (blank : env.Blank pageWSSize secondListSize) (positive : 0 < pageWSSize)
    (small : pageWSSize ≤ pwsMaxSize) (directory : Nat) (elements : Nat → WorkingSetElement)
    (cleared : ∀ index < pageWSSize, elements index = ⟨0, true⟩) :
    ({ env with
      envPageDirectory := directory
      envCr3 := toPhysicalAddress directory
      pageWorkingSetList := (List.range pageWSSize).reverse ++ env.pageWorkingSetList
      ptrPageWorkingSet := elements
      pageLastWSIndex := 0
      tableLastWSIndex := 0 } : Env).Filled pageWSSize secondListSize (pageWSSize - 1) where
  pages := by
    obtain ⟨⟨unused, active, second⟩, rfl, -, -⟩ := blank
    refine ⟨[], ⟨Nat.zero_le _, small, (Nat.zero_mod _).symm, ?_, cleared, ?_⟩, ?_, ?_⟩
    · simp [unused, List.range_eq_range']
    · simp [active, second]
    · simp only [List.length_nil]
      omega
    · simp [active]
  pageWSMaxSize := blank.pageWSMaxSize
  activeListSize := blank.activeListSize
  secondListSize := blank.secondListSize

theorem fills_initializeEnvironment (secondListSize directory : Nat) (positive : 0 < pageWSSize)
    (small : pageWSSize ≤ pwsMaxSize)
    (blank : (state.envs slot).Blank pageWSSize secondListSize) {fail : Stop → KernelState → Prop} :
    wp (initializeEnvironment slot directory)
      (fun _ next => (next.envs slot).Filled pageWSSize secondListSize (pageWSSize - 1)) fail state := by
  have inArray : ¬ pwsMaxSize < (state.envs slot).pageWSMaxSize := by
    rw [blank.pageWSMaxSize]
    exact not_lt.2 small
  unfold initializeEnvironment
  simp only [wp_bind, wp_modifyEnv, wp_modify, wp_get, KernelState.writeFrame_envs, KernelState.setEnv_self,
    if_neg inArray]
  apply wp_mono completeEnvironmentInitialization_spec _ fun _ _ => id
  rintro _ next ⟨env, rfl, completed⟩
  rw [KernelState.setEnv_self] at completed
  rw [KernelState.setEnvFreeList_envs, KernelState.setEnv_self, completed]
  have filled := blank.filled positive small directory
    (fun index => if index < (state.envs slot).pageWSMaxSize then ⟨0, true⟩
      else (state.envs slot).ptrPageWorkingSet index)
    (fun index low => if_pos (blank.pageWSMaxSize.symm ▸ low))
  obtain ⟨⟨pages, recorded, fits, front⟩, maxSize, activeSize, secondSize⟩ := filled
  rw [blank.pageWSMaxSize] at *
  exact ⟨⟨pages, recorded.congr rfl rfl rfl rfl rfl rfl, fits, front⟩, maxSize, activeSize, secondSize⟩

/-! ### The sizes -/

/-- The lists are within their sizes. -/
def ListsFit (env : Env) : Prop :=
  (env.activeList.length : Int) ≤ env.activeListSize ∧ (env.secondList.length : Int) ≤ env.secondListSize

/-- The sizes leave room for the stack, and `SecondList` for what `ActiveList` does not take. -/
def GoodSizes (pageWSSize secondListSize : Nat) : Prop :=
  1 ≤ pageWSSize ∧ pageWSSize ≤ pwsMaxSize ∧ (secondListSize < pageWSSize ∨ pageWSSize = 1 ∧ secondListSize = 1)

/-- The page of the stack goes where there is room. -/
theorem Env.Filled.listsFit {env : Env} (filled : env.Filled pageWSSize secondListSize 0)
    (good : GoodSizes pageWSSize secondListSize) (address : Nat) :
    ListsFit (env.record address (toUInt32 env.activeListSize)) := by
  obtain ⟨pages, recorded, fits, front⟩ := filled.pages
  obtain ⟨positive, small, sizes⟩ := good
  have total : env.activeList.length + env.secondList.length = pages.length := by
    simpa using recorded.lists.length_eq
  have activeSize := filled.activeListSize
  have secondSize := filled.secondListSize
  simp only [ListsFit, Env.record, Env.setElement]
  simp only [pwsMaxSize] at small
  rcases sizes with less | ⟨rfl, rfl⟩
  · have active : env.activeListSize = (pageWSSize : Int) - secondListSize := by
      rw [activeSize]
      simp only [toInt32, wordSize]
      split <;> omega
    have second : env.secondListSize = secondListSize := by
      rw [secondSize]
      exact if_pos (by omega)
    have limit : toUInt32 env.activeListSize = pageWSSize - secondListSize := by
      simp only [active, toUInt32, wordSize]
      omega
    have before : toUInt32 (env.activeListSize - 1) = pageWSSize - secondListSize - 1 := by
      simp only [active, toUInt32, wordSize]
      omega
    rw [limit, active, second]
    rw [before] at front
    split
    · simp only [List.length_cons]
      omega
    · simp only [List.length_cons]
      omega
  · have active : env.activeListSize = 0 := by rw [activeSize]; decide
    have second : env.secondListSize = 1 := by rw [secondSize]; decide
    have limit : toUInt32 0 = 0 := by decide
    rw [active, second, limit, if_neg (Nat.not_lt_zero _), if_neg (Nat.not_lt_zero _), List.length_cons]
    omega

/-- An environment that was created has its lists within their sizes, and the list code did not fail. -/
def CreatesSafely (program : UserProgram) (pageWSSize secondListSize : Nat) (state : KernelState) : Prop :=
  wp (envCreate (some program) pageWSSize secondListSize)
    (fun result next => ∀ slot ∈ result, ListsFit (next.envs slot)) (fun stop _ => stop ∉ listErrors) state

instance (env : Env) : Decidable (ListsFit env) := inferInstanceAs (Decidable (_ ∧ _))

instance (program : UserProgram) (state : KernelState) :
    Decidable (CreatesSafely program pageWSSize secondListSize state) :=
  inferInstanceAs (Decidable (wp _ _ _ _))

theorem ListsFit.of_same {env other : Env} (fit : ListsFit env)
    (same : other.withoutDirectory = env.withoutDirectory) : ListsFit other := by
  change ListsFit other.withoutDirectory
  rw [same]
  exact fit

/-- The stack gets the last of the room. -/
theorem listsFit_allocateStackPage (good : GoodSizes pageWSSize secondListSize)
    (filled : (state.envs slot).Filled pageWSSize secondListSize 0) :
    wp (allocateStackPage slot) (fun _ next => ListsFit (next.envs slot)) (fun stop _ => stop ∉ listErrors) state := by
  unfold allocateStackPage
  rw [wp_bind]
  apply KeepsEnv.allocateFrame.wp filled
  intro frame taken filled
  rw [wp_bind, wp_get, wp_bind]
  apply (KeepsEnv.loadtimeMapFrame _ _ _ _).wp filled
  intro _ mapped filled
  rw [wp_bind]
  apply (KeepsEnv.modifyMappedPage _ _).wp filled
  intro _ cleared filled
  rw [wp_bind, wp_get]
  obtain ⟨pages, recorded, fits, front⟩ := filled.pages
  have room : pages.length < (cleared.envs slot).pageWSMaxSize := by
    rw [filled.pageWSMaxSize]
    omega
  have inArray : ¬ (cleared.envs slot).pageWSMaxSize ≤ (cleared.envs slot).pageLastWSIndex := by
    rw [recorded.index_eq room]
    exact not_le.2 room
  simp only [if_neg inArray]
  rw [wp_bind, wp_recordLoadedPage recorded room, wp_bind]
  apply (KeepsEnv.pfAddEmptyEnvPage _ _ _).carries _ ListsFit.of_same fun _ _ fit => fit
  rw [KernelState.setEnv_self]
  exact filled.listsFit good _

/-- From the page directory on. -/
theorem listsFit_of_filled (good : GoodSizes pageWSSize secondListSize) (program : UserProgram) (physical : Nat)
    (filled : (state.envs slot).Filled pageWSSize secondListSize (pageWSSize - 1)) :
    wp (do
      loadSegments slot program program.segments (pageWSSize - 1) 0xFFFFFFFF
      clearModifiedBits slot
      allocateStackPage slot
      clearPresentBits slot ((← get).envs slot).secondList
      modify fun state => state.setCr3 physical
      return some slot)
      (fun result next => ∀ slot ∈ result, ListsFit (next.envs slot)) (fun stop _ => stop ∉ listErrors) state := by
  rw [wp_bind]
  refine wp_mono (fills_loadSegments _ _ _ _ filled) (fun _ loaded filled => ?_) fun _ _ failed => failed
  rw [wp_bind]
  apply (KeepsEnv.clearModifiedBits _).wp filled
  intro _ cleared filled
  rw [wp_bind]
  refine wp_mono (listsFit_allocateStackPage good filled) (fun _ stacked fit => ?_) fun _ _ failed => failed
  rw [wp_bind, wp_get, wp_bind]
  apply (KeepsEnv.clearPresentBits _ _).carries fit ListsFit.of_same
  intro _ hidden fit
  rw [wp_bind, wp_modify, wp_pure]
  intro found member
  cases member
  exact fit

theorem createsSafely_of_good (good : GoodSizes pageWSSize secondListSize) (program : UserProgram)
    (vacant : ∀ slot ∈ state.envFreeList, state.Vacant slot) :
    CreatesSafely program pageWSSize secondListSize state := by
  unfold CreatesSafely envCreate
  simp only
  rw [wp_bind, wp_get]
  split
  · exact fun slot found => nomatch found
  · next slot rest free =>
      have empty := vacant slot (free ▸ List.mem_cons_self ..)
      obtain ⟨positive, small, -⟩ := id good
      have lists : (state.envs slot).Unlisted := ⟨empty.unused, empty.active, empty.second⟩
      have room : (pageWSSize + (wordSize - 1)) % wordSize = pageWSSize - 1 := by
        simp only [pwsMaxSize] at small
        simp only [wordSize]
        omega
      rw [wp_bind, wp_modifyEnv, wp_bind]
      have marked : ∀ name, ((state.setEnv slot { state.envs slot with
          envStatus := .unknown
          progName := name }).envs slot).Unlisted := by
        intro name
        rw [KernelState.setEnv_self]
        exact ⟨lists.unused, lists.active, lists.second⟩
      apply KeepsEnv.allocateFrame.carries (marked _) Env.Unlisted.of_same
      intro frame taken lists
      have lists : ((taken.setReferences frame 1).envs slot).Unlisted := lists
      rw [wp_bind, wp_modify, wp_bind]
      apply (KeepsEnv.staticKernelVirtualAddress _).carries lists Env.Unlisted.of_same
      intro directory translated lists
      rw [wp_bind, wp_modifyEnv, wp_bind]
      refine wp_mono (fills_initializeEnvironment secondListSize directory positive small ?_)
        (fun _ started filled => ?_) fun _ _ failed => failed
      · rw [KernelState.setEnv_self]
        exact ⟨⟨lists.unused, lists.active, lists.second⟩, rfl, rfl, rfl⟩
      rw [wp_bind, wp_get, wp_bind, wp_modify, room]
      exact listsFit_of_filled good program _ filled

end Fos.Kernel
