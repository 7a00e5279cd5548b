import Fos.Kernel.CreationSizes

/-! Sizes that break the lists of a new environment, and when `env_create` is safe. -/

set_option autoImplicit false

namespace Fos.Kernel

open Foundation

variable {slot pageWSSize secondListSize : Nat} {state next : KernelState} {set : Env}

/-! ### Code that does not look at the working set -/

/-- The record with the working set of another one. -/
def Env.withWorkingSet (env set : Env) : Env := { env with
  pageWSMaxSize := set.pageWSMaxSize
  ptrPageWorkingSet := set.ptrPageWorkingSet
  pageLastWSIndex := set.pageLastWSIndex
  tableLastWSIndex := set.tableLastWSIndex
  pageWorkingSetList := set.pageWorkingSetList
  activeList := set.activeList
  secondList := set.secondList
  activeListSize := set.activeListSize
  secondListSize := set.secondListSize }

def KernelState.withWorkingSet (slot : Nat) (set : Env) (state : KernelState) : KernelState :=
  state.setEnv slot ((state.envs slot).withWorkingSet set)

/-- The code does the same whatever the working set of the environment is. -/
abbrev Blind {Result : Type} (slot : Nat) (set : Env) (program : KernelM Result) : Prop :=
  Commutes (KernelState.withWorkingSet slot set) program

@[simp] theorem withWorkingSet_envs (set : Env) (state : KernelState) :
    (state.withWorkingSet slot set).envs slot = (state.envs slot).withWorkingSet set := if_pos rfl

/-- What is not part of the working set. -/
theorem withWorkingSet_apart {Field : Type} (field : Env → Field)
    (apart : ∀ env : Env, field (env.withWorkingSet set) = field env) (owner : Nat) :
    field ((state.withWorkingSet slot set).envs owner) = field (state.envs owner) := by
  by_cases own : owner = slot
  · rw [own, withWorkingSet_envs, apart]
  · exact congrArg field (if_neg own)

theorem withWorkingSet_self (state : KernelState) (slot : Nat) :
    state.withWorkingSet slot (state.envs slot) = state := by
  simp only [KernelState.withWorkingSet, KernelState.setEnv, Env.withWorkingSet]
  cases state
  simp only [KernelState.mk.injEq, true_and, and_true]
  funext other
  split
  · next same => rw [same]
  · rfl

/-- The working set changes, and nothing else. -/
theorem wp_modifyEnv_withWorkingSet {change : Env → Env} (other : Env)
    (becomes : ∀ env : Env, change (env.withWorkingSet set) = env.withWorkingSet other) {post : Unit → KernelState → Prop}
    {fail : Stop → KernelState → Prop} (holds : post () (state.withWorkingSet slot other)) :
    wp (modifyEnv slot change) post fail (state.withWorkingSet slot set) := by
  rw [wp_modifyEnv, withWorkingSet_envs, becomes, KernelState.withWorkingSet, KernelState.setEnv_setEnv]
  exact holds

/-- A change of the rest of the record. -/
theorem setEnv_apart (change : Env → Env)
    (apart : ∀ env, change (env.withWorkingSet set) = (change env).withWorkingSet set) (state : KernelState) :
    (state.withWorkingSet slot set).setEnv slot (change ((state.withWorkingSet slot set).envs slot)) =
      (state.setEnv slot (change (state.envs slot))).withWorkingSet slot set := by
  rw [withWorkingSet_envs, apart, KernelState.withWorkingSet, KernelState.setEnv_setEnv, KernelState.withWorkingSet,
    KernelState.setEnv_setEnv, KernelState.setEnv_self]

namespace Blind

theorem staticKernelVirtualAddress (physical : Nat) : Blind slot set (staticKernelVirtualAddress physical) := by
  refine .get (fun _ => rfl) fun state => ?_
  split
  · exact .throw _
  · exact .pure _

theorem allocateFrame : Blind slot set allocateFrame := by
  unfold Kernel.allocateFrame
  refine .get (fun _ => rfl) fun state => ?_
  split
  · exact .throw _
  · exact .bind (.modify fun _ => rfl) fun _ => .bind (.modify fun _ => rfl) fun _ => .pure _

theorem createTable (directory address permissions : Nat) :
    Blind slot set (createTable directory address permissions) :=
  .bind allocateFrame fun _ => .bind (staticKernelVirtualAddress _) fun _ => .bind (.modify fun _ => rfl) fun _ =>
    .bind (.modify fun _ => rfl) fun _ => .bind (.modify fun _ => rfl) fun _ => .pure _

theorem bindFrame (table frame address permissions : Nat) :
    Blind slot set (bindFrame table frame address permissions) :=
  .bind (.modify fun _ => rfl) fun _ => .modify fun _ => rfl

theorem loadtimeMapFrame (directory frame address permissions : Nat) :
    Blind slot set (loadtimeMapFrame directory frame address permissions) := by
  refine .get (fun _ => rfl) fun state => ?_
  apply Commutes.bind (staticKernelVirtualAddress _)
  intro existing
  split
  · exact .bind (createTable _ _ _) fun _ => bindFrame _ _ _ _
  · exact bindFrame _ _ _ _

theorem getPageTable (directory address : Nat) : Blind slot set (getPageTable directory address) := by
  refine .get (fun _ => rfl) fun state => ?_
  apply Commutes.bind (staticKernelVirtualAddress _)
  intro table
  split
  · exact .pure _
  · split
    · exact .throw _
    · exact .pure _

theorem modifyMappedPage (address : Nat) (change : Page → Page) : Blind slot set (modifyMappedPage address change) := by
  refine .get (fun _ => rfl) fun state => ?_
  refine .get (fun _ => rfl) fun current => ?_
  dsimp only
  split
  · exact .throw _
  · exact .bind (.modify fun _ => rfl) fun _ => .modify fun _ => rfl

theorem copySegmentPages (program : UserProgram) (segment : ProgramSegment) (address count : Nat) :
    Blind slot set (copySegmentPages program segment address count) := by
  induction count generalizing address with
  | zero => exact .pure _
  | succ count ih => exact .bind (modifyMappedPage _ _) fun _ => ih _

theorem getDiskPageTable (directory address : Nat) (create : Bool) :
    Blind slot set (getDiskPageTable directory address create) := by
  refine .get (fun _ => rfl) fun state => ?_
  apply Commutes.bind (staticKernelVirtualAddress _)
  intro table
  split
  · split
    · exact .bind (createTable _ _ _) fun _ => .pure _
    · exact .pure _
  · exact .pure _

theorem getDiskPageDirectory : Blind slot set (getDiskPageDirectory slot) := by
  unfold Kernel.getDiskPageDirectory
  apply Commutes.get
  · intro state
    rw [withWorkingSet_apart Env.diskEnvPgdir fun _ => rfl]
  · intro state
    split
    · exact .pure _
    · apply Commutes.bind allocateFrame
      intro frame
      refine .bind (.modify fun _ => rfl) fun _ => ?_
      apply Commutes.bind (staticKernelVirtualAddress _)
      intro directory
      have place := @setEnv_apart slot set
        (fun env => { env with
          diskEnvPgdir := some directory
          diskEnvPgdirPA := toPhysicalAddress frame }) fun _ => rfl
      exact .bind (.modify place) fun _ => .bind (.modify fun _ => rfl) fun _ => .pure _

theorem allocateDiskFrame : Blind slot set allocateDiskFrame := by
  unfold Kernel.allocateDiskFrame
  refine .get (fun _ => rfl) fun state => ?_
  split
  · exact .pure _
  · exact .bind (.modify fun _ => rfl) fun _ => .pure _

theorem addDiskFrame (address : Nat) : Blind slot set (addDiskFrame slot address) := by
  unfold Kernel.addDiskFrame
  apply Commutes.ite .throw_bind
  apply Commutes.bind getDiskPageDirectory
  intro directory
  apply Commutes.bind (getDiskPageTable directory address true)
  rintro (_ | table)
  · exact .pure _
  · refine .get (fun _ => rfl) fun state => ?_
    apply Commutes.ite _ (.pure _)
    apply Commutes.bind allocateDiskFrame
    rintro (_ | diskFrame)
    · exact .pure _
    · exact .bind (.modify fun _ => rfl) fun _ => .pure _

theorem pfAddEnvPage (address : Nat) (dataSrc : Page) : Blind slot set (pfAddEnvPage slot address dataSrc) := by
  apply Commutes.bind (addDiskFrame address)
  rintro (_ | diskFrame)
  · exact .pure _
  · exact .bind (.modify fun _ => rfl) fun _ => .pure _

theorem pfAddZeroPage (address : Nat) : Blind slot set (pfAddEmptyEnvPage slot address true) := by
  unfold Kernel.pfAddEmptyEnvPage
  rw [if_pos rfl]
  exact .get (fun _ => rfl) fun _ => pfAddEnvPage _ _

/-- A page is added, or the page file is full. -/
theorem added {program : KernelM Int} {rest : KernelM Unit} (blind : Blind slot set program)
    (blindRest : Blind slot set rest) :
    Blind slot set (program >>= fun result =>
      if result = eNoPageFileSpace then outOfPageFile >>= fun _ => rest else rest) := by
  apply Commutes.bind blind
  intro result
  split
  · exact .bind (.throw _) fun _ => blindRest
  · exact blindRest

theorem addSegmentPages (program : UserProgram) (address source count : Nat) :
    Blind slot set (addSegmentPages slot program address source count) := by
  induction count generalizing address source with
  | zero => exact .pure _
  | succ count ih => exact added (pfAddEnvPage _ _) (ih _ _)

theorem addZeroPages (address count : Nat) : Blind slot set (addZeroPages slot address count) := by
  induction count generalizing address with
  | zero => exact .pure _
  | succ count ih => exact added (pfAddZeroPage _) (ih _)

theorem addSegmentToPageFile (program : UserProgram) (segment : ProgramSegment) :
    Blind slot set (addSegmentToPageFile slot program segment) :=
  added (pfAddEnvPage _ _) (.bind (addSegmentPages _ _ _ _) fun _ => added (pfAddEnvPage _ _) (addZeroPages _ _))

theorem ptSetPagePermissions (address added clear : Nat) :
    Blind slot set (ptSetPagePermissions slot address added clear) := by
  refine .get (fun state => ?_) fun state => ?_
  · rw [withWorkingSet_envs]
    rfl
  · refine .bind (.get (fun _ => rfl) fun state => ?_) fun _ => .modify fun _ => rfl
    dsimp only
    split
    · exact staticKernelVirtualAddress _
    · split
      · exact .throw _
      · exact .throw _

theorem modifyEnv (change : Env → Env) (apart : ∀ env, change (env.withWorkingSet set) = (change env).withWorkingSet set) :
    Blind slot set (modifyEnv slot change) :=
  .modify (setEnv_apart change apart)

theorem completeEnvironmentInitialization : Blind slot set (completeEnvironmentInitialization slot) := by
  unfold Kernel.completeEnvironmentInitialization
  refine .get (fun state => ?_) fun state => ?_
  · rw [withWorkingSet_envs]
    rfl
  · refine .bind (.modify fun _ => rfl) fun _ => .bind (.modify fun _ => rfl) fun _ => ?_
    refine .get (fun state => ?_) fun state => ?_
    · have curenv : (state.withWorkingSet slot set).curenv = state.curenv := rfl
      have envId := @withWorkingSet_apart slot state set Int Env.envId fun _ => rfl
      simp only [curenv, envId]
    · exact .bind (modifyEnv _ fun _ => rfl) fun _ => .modify fun _ => rfl

end Blind

/-! ### Running `env_create` without its working set -/

/-- `env_create` up to `initialize_environment`. -/
def enterFrames {Result : Type} (slot : Nat) (name : String) (rest : Nat → KernelM Result) : KernelM Result := do
  modifyEnv slot fun env => { env with
    envStatus := .unknown
    progName := name }
  let frame ← allocateFrame
  modify fun state => state.setReferences frame 1
  let directory ← staticKernelVirtualAddress (toPhysicalAddress frame)
  rest directory

/-- `initialize_environment`, and the switch to the page directory. -/
def startFrames {Result : Type} (slot : Nat) (rest : KernelM Result) (directory : Nat) : KernelM Result := do
  modifyEnv slot fun env => { env with
    envPageDirectory := directory
    envCr3 := toPhysicalAddress directory }
  modify fun state => state.writeFrame directory fun index =>
    if index < pdx userTop then 0 else state.mem state.ptrPageDirectory index
  completeEnvironmentInitialization slot
  modify fun state => state.setCr3 (state.envs slot).envCr3
  rest

/-- A frame is mapped at a page. -/
def mapFrames {Result : Type} (slot address : Nat) (rest : KernelM Result) : KernelM Result := do
  let frame ← allocateFrame
  loadtimeMapFrame ((← get).envs slot).envPageDirectory frame address (permUser ||| permWriteable)
  rest

/-- One step of the loop that clears the modified bits. -/
def clearModifiedBit (slot index : Nat) : KernelM Unit := do
  let env := (← get).envs slot
  let element := env.ptrPageWorkingSet index
  if ¬ element.empty then
    match ← getPageTable env.envPageDirectory element.virtualAddress with
    | none => undefined "ptr_page_table == NULL"
    | some table =>
        modify fun state => state.writeWord table (ptx element.virtualAddress)
          (changePerm (state.mem table (ptx element.virtualAddress)) 0 permModified)

/-- The same for the page of an element. -/
def clearModifiedBitAt (directory address : Nat) : KernelM Unit := do
  match ← getPageTable directory address with
  | none => undefined "ptr_page_table == NULL"
  | some table =>
      modify fun state => state.writeWord table (ptx address) (changePerm (state.mem table (ptx address)) 0 permModified)

/-- The one page of a segment is filled and added to the page file. -/
def fileFrames {Result : Type} (slot : Nat) (program : UserProgram) (segment : ProgramSegment) (rest : KernelM Result) :
    KernelM Result := do
  copySegmentPages program segment segment.virtualAddress 1
  addSegmentToPageFile slot program segment
  rest

def clearFrames {Result : Type} (slot address : Nat) (rest : KernelM Result) : KernelM Result := do
  clearModifiedBitAt ((← get).envs slot).envPageDirectory address
  rest

/-- The page of the stack. -/
def stackFrames {Result : Type} (slot : Nat) (rest : KernelM Result) : KernelM Result := do
  mapFrames slot (ustackTop - pageSize) do
    modifyMappedPage (ustackTop - pageSize) fun _ => Page.zero
    let _ ← pfAddEmptyEnvPage slot (ustackTop - pageSize) true
    rest

/-- The sizes `env_create` is called with. -/
def Env.sized (pageWSSize secondListSize : Nat) (env : Env) : Env := { env with
  pageWSMaxSize := pageWSSize
  secondListSize := toInt32 secondListSize
  activeListSize := toInt32 ((pageWSSize + (wordSize - secondListSize)) % wordSize) }

/-- All elements of the working set are in `PageWorkingSetList`. -/
def Env.unloaded (env : Env) : Env := { env with
  pageWorkingSetList := (List.range env.pageWSMaxSize).reverse ++ env.pageWorkingSetList
  ptrPageWorkingSet := fun index =>
    if index < env.pageWSMaxSize then ⟨0, true⟩ else env.ptrPageWorkingSet index
  pageLastWSIndex := 0
  tableLastWSIndex := 0 }

variable {Result : Type} {post : Option Nat → KernelState → Prop} {fail : Stop → KernelState → Prop}

/-- `env_create` as far as `initialize_environment`. -/
theorem wp_envCreate_of_returns (program : UserProgram) {free : List Nat} (head : state.envFreeList = slot :: free)
    {shadow : Nat → KernelM Result} (returns : Returns (enterFrames slot program.name shadow) state)
    (continues : ∀ directory next, Returns (shadow directory) next → wp (do
      initializeEnvironment slot directory
      let kernPhysPgdir := (← get).cr3
      modify fun state => state.setCr3 (state.envs slot).envCr3
      loadSegments slot program program.segments ((pageWSSize + (wordSize - 1)) % wordSize) 0xFFFFFFFF
      clearModifiedBits slot
      allocateStackPage slot
      clearPresentBits slot ((← get).envs slot).secondList
      modify fun state => state.setCr3 kernPhysPgdir
      return some slot) post fail
        (next.withWorkingSet slot ((state.envs slot).sized pageWSSize secondListSize))) :
    wp (envCreate (some program) pageWSSize secondListSize) post fail state := by
  unfold envCreate
  dsimp only
  rw [wp_bind, wp_get, head]
  dsimp only
  rw [← withWorkingSet_self state slot, wp_bind]
  apply (Blind.modifyEnv _ fun _ => rfl).of_returns returns
  intro _ marked returns
  rw [wp_bind]
  apply Blind.allocateFrame.of_returns returns
  intro frame taken returns
  rw [wp_bind]
  refine Commutes.of_returns (.modify fun _ => rfl) returns fun _ counted returns => ?_
  rw [wp_bind]
  apply (Blind.staticKernelVirtualAddress _).of_returns returns
  intro directory translated returns
  rw [wp_bind]
  apply wp_modifyEnv_withWorkingSet ((state.envs slot).sized pageWSSize secondListSize) fun _ => rfl
  exact continues directory translated returns

/-- The frames of `initialize_environment`. -/
theorem wp_initializeEnvironment_of_returns {directory : Nat} (small : set.pageWSMaxSize ≤ pwsMaxSize)
    {shadow : KernelM Result} (returns : Returns (startFrames slot shadow directory) state)
    {post : Unit → KernelState → Prop}
    (continues : ∀ next, Returns (do modify fun state => state.setCr3 (state.envs slot).envCr3; shadow) next →
      post () (next.withWorkingSet slot set.unloaded)) :
    wp (initializeEnvironment slot directory) post fail (state.withWorkingSet slot set) := by
  unfold initializeEnvironment
  rw [wp_bind]
  apply (Blind.modifyEnv _ fun _ => rfl).of_returns returns
  intro _ placed returns
  have inArray : ¬ pwsMaxSize < set.pageWSMaxSize := not_lt.2 small
  have size (state : KernelState) : ((state.withWorkingSet slot set).envs slot).pageWSMaxSize = set.pageWSMaxSize := by
    rw [withWorkingSet_envs]
    rfl
  rw [wp_bind]
  refine Commutes.of_returns (.modify fun _ => rfl) returns fun _ written returns => ?_
  rw [wp_bind, wp_get, size, if_neg inArray, wp_bind]
  apply wp_modifyEnv_withWorkingSet set.unloaded fun _ => rfl
  exact Blind.completeEnvironmentInitialization.of_returns returns fun _ next returns => continues next returns

theorem clearModifiedBits_eq (slot : Nat) : clearModifiedBits slot = (do
    let size := ((← get).envs slot).pageWSMaxSize
    loopFrom (clearModifiedBit slot) 0 size) := rfl

/-- Empty elements are passed over. -/
theorem wp_clearModifiedBit_empty (first count : Nat) {post : Unit → KernelState → Prop}
    (empty : ∀ index, first ≤ index → index < first + count → ((state.envs slot).ptrPageWorkingSet index).empty = true)
    (holds : post () state) : wp (loopFrom (clearModifiedBit slot) first count) post fail state := by
  induction count generalizing first with
  | zero => exact holds
  | succ count ih =>
      have here := empty first (le_refl _) (by omega)
      rw [loopFrom, wp_bind, clearModifiedBit, wp_bind, wp_get]
      dsimp only
      rw [if_neg (not_not.2 here), wp_pure]
      exact ih (first + 1) fun index low high => empty index (by omega) (by omega)

theorem wp_mapFrames_of_returns {Other : Type} {address : Nat} {shadow : KernelM Result} {rest : KernelM Other}
    {post : Other → KernelState → Prop} (returns : Returns (mapFrames slot address shadow) state)
    (continues : ∀ next, Returns shadow next → wp rest post fail (next.withWorkingSet slot set)) :
    wp (mapFrames slot address rest) post fail (state.withWorkingSet slot set) := by
  unfold mapFrames
  rw [wp_bind]
  apply Blind.allocateFrame.of_returns returns
  intro frame taken returns
  rw [wp_bind, wp_get, wp_bind, withWorkingSet_envs]
  exact (Blind.loadtimeMapFrame _ _ _ _).of_returns returns.get fun _ next returns => continues next returns

theorem wp_clearModifiedBits_nil (recorded : set.Recorded []) {post : Unit → KernelState → Prop}
    (holds : post () (state.withWorkingSet slot set)) :
    wp (clearModifiedBits slot) post fail (state.withWorkingSet slot set) := by
  rw [clearModifiedBits_eq, wp_bind, wp_get]
  apply wp_clearModifiedBit_empty _ _ _ holds
  intro index _ low
  rw [withWorkingSet_envs, Nat.zero_add] at low
  rw [withWorkingSet_envs]
  exact congrArg WorkingSetElement.empty (recorded.elements index low)

theorem wp_clearModifiedBits_singleton {address : Nat} (recorded : set.Recorded [address]) {shadow : KernelM Result}
    {post : Unit → KernelState → Prop}
    (returns : Returns (clearFrames slot address shadow) state)
    (continues : ∀ next, Returns shadow next → post () (next.withWorkingSet slot set)) :
    wp (clearModifiedBits slot) post fail (state.withWorkingSet slot set) := by
  obtain ⟨count, size⟩ : ∃ count, set.pageWSMaxSize = count + 1 := Nat.exists_eq_add_of_le' recorded.fits
  have first : set.ptrPageWorkingSet 0 = ⟨address, false⟩ := recorded.elements 0 (by omega)
  have sameSize : ((state.withWorkingSet slot set).envs slot).pageWSMaxSize = count + 1 := by
    rw [withWorkingSet_envs]
    exact size
  rw [clearModifiedBits_eq, wp_bind, wp_get, sameSize, loopFrom, wp_bind, clearModifiedBit, wp_bind, wp_get,
    withWorkingSet_envs]
  have element : ((state.envs slot).withWorkingSet set).ptrPageWorkingSet 0 = ⟨address, false⟩ := first
  dsimp only
  rw [element, if_pos (by simp)]
  have blind (directory : Nat) : Blind slot set (clearModifiedBitAt directory address) := by
    apply Commutes.bind (Blind.getPageTable _ _)
    rintro (_ | table)
    · exact .throw _
    · exact .modify fun _ => rfl
  apply (blind _).of_returns returns.get
  intro _ next returns
  refine wp_clearModifiedBit_empty 1 count (fun index low high => ?_) (continues next returns)
  have empty := recorded.elements index (by omega)
  rw [Env.elementOf, List.getElem?_eq_none (by simpa using low)] at empty
  rw [withWorkingSet_envs]
  exact congrArg WorkingSetElement.empty empty

theorem wp_recordLoadedPage_withWorkingSet {pages : List Nat} {address limit : Nat} (recorded : set.Recorded pages)
    (room : pages.length < set.pageWSMaxSize) {post : Unit → KernelState → Prop}
    (holds : post () (state.withWorkingSet slot (set.record address limit))) :
    wp (recordLoadedPage slot address limit) post fail (state.withWorkingSet slot set) := by
  have here : ((state.withWorkingSet slot set).envs slot).Recorded pages := by
    rw [withWorkingSet_envs]
    exact recorded.congr rfl rfl rfl rfl rfl rfl
  have roomHere : pages.length < ((state.withWorkingSet slot set).envs slot).pageWSMaxSize := by
    rw [withWorkingSet_envs]
    exact room
  rw [wp_recordLoadedPage here roomHere, withWorkingSet_envs, KernelState.withWorkingSet, KernelState.setEnv_setEnv]
  exact holds

/-- The page of the stack is recorded. -/
theorem wp_allocateStackPage_of_returns {pages : List Nat} (recorded : set.Recorded pages)
    (room : pages.length < set.pageWSMaxSize) {shadow : KernelM Result} {post : Unit → KernelState → Prop}
    (returns : Returns (stackFrames slot shadow) state)
    (continues : ∀ next, Returns shadow next → post ()
      (next.withWorkingSet slot (set.record (ustackTop - pageSize) (toUInt32 set.activeListSize)))) :
    wp (allocateStackPage slot) post fail (state.withWorkingSet slot set) := by
  unfold allocateStackPage
  refine wp_mapFrames_of_returns returns fun mapped returns => ?_
  rw [wp_bind]
  apply (Blind.modifyMappedPage _ _).of_returns returns
  intro _ cleared returns
  have inArray : ¬ set.pageWSMaxSize ≤ set.pageLastWSIndex := by
    rw [recorded.index_eq room]
    exact not_le.2 room
  rw [wp_bind, wp_get, withWorkingSet_envs]
  dsimp only [Env.withWorkingSet]
  rw [if_neg inArray]
  rw [wp_bind]
  apply wp_recordLoadedPage_withWorkingSet recorded room
  rw [wp_bind]
  apply (Blind.pfAddZeroPage _).of_returns returns
  exact fun _ next returns => continues next returns

/-- A segment of one page. -/
def pageSegment : ProgramSegment := ⟨0, 16, 16, 0x800000⟩

def pageProgram : UserProgram := ⟨"page", fun _ => 0, [pageSegment]⟩

/-- The frames of the segment are mapped when there is room for a page. -/
theorem wp_loadSegments_of_returns {remaining : Nat} (positive : 0 < remaining) {shadow : KernelM Result}
    (returns : Returns (mapFrames slot pageSegment.virtualAddress shadow) state) {post : Unit → KernelState → Prop}
    (continues : ∀ next, Returns shadow next → wp (do
      recordLoadedPage slot pageSegment.virtualAddress (toUInt32 (set.activeListSize - 1))
      addTableToTableWorkingSet slot
      copySegmentPages pageProgram pageSegment pageSegment.virtualAddress 1
      addSegmentToPageFile slot pageProgram pageSegment) post fail (next.withWorkingSet slot set)) :
    wp (loadSegments slot pageProgram pageProgram.segments remaining 0xFFFFFFFF) post fail
      (state.withWorkingSet slot set) := by
  have first : roundDown pageSegment.virtualAddress = pageSegment.virtualAddress := by decide
  have elsewhere : ¬ pageSegment.virtualAddress = 0x200000 := by decide
  have last : roundUp ((pageSegment.virtualAddress + pageSegment.sizeInMemory) % wordSize) =
      pageSegment.virtualAddress + pageSize := by decide
  have one : min ((pageSegment.virtualAddress + pageSize - pageSegment.virtualAddress) / pageSize) remaining = 1 := by
    rw [Nat.add_sub_cancel_left]
    exact Nat.min_eq_left positive
  have table : pdx pageSegment.virtualAddress ≠ 0xFFFFFFFF := by decide
  rw [pageProgram, loadSegments, wp_bind, programSegmentAllocMapCopyWorkingset, wp_bind, wp_get]
  simp only [first, last, elsewhere, false_and, if_false, one]
  rw [wp_bind, mapSegmentPages]
  refine wp_mapFrames_of_returns returns fun mapped returns => ?_
  rw [wp_bind, wp_get, withWorkingSet_envs, wp_bind]
  refine wp_mono ((wp_bind _ _).1 (continues mapped returns)) (fun _ recorded rest => ?_) fun _ _ => id
  rw [if_pos table, wp_bind]
  refine wp_mono ((wp_bind _ _).1 rest) (fun _ counted rest => ?_) fun _ _ => id
  rw [mapSegmentPages, wp_pure, wp_bind]
  refine wp_mono ((wp_bind _ _).1 rest) (fun _ copied rest => ?_) fun _ _ => id
  rw [wp_pure, wp_bind]
  exact wp_mono rest (fun _ added holds => holds) fun _ _ => id

/-- The record once the segment is loaded. -/
def Env.withSegment (env : Env) : Env :=
  { env.record pageSegment.virtualAddress (toUInt32 (env.activeListSize - 1)) with
    tableLastWSIndex := (env.tableLastWSIndex + 1) % twsMaxSize }

theorem recorded_withSegment (recorded : set.Recorded []) (room : 0 < set.pageWSMaxSize) :
    set.withSegment.Recorded [pageSegment.virtualAddress] :=
  (recorded.record room _ _).congr rfl rfl rfl rfl rfl rfl

/-- The segment is loaded. -/
theorem wp_loadSegments_of_recorded {remaining : Nat} (positive : 0 < remaining) (recorded : set.Recorded [])
    (room : 0 < set.pageWSMaxSize) (table : set.tableLastWSIndex = 0) {shadow : KernelM Result}
    (returns : Returns (mapFrames slot pageSegment.virtualAddress (fileFrames slot pageProgram pageSegment shadow)) state)
    {post : Unit → KernelState → Prop}
    (continues : ∀ next, Returns shadow next → post () (next.withWorkingSet slot set.withSegment)) :
    wp (loadSegments slot pageProgram pageProgram.segments remaining 0xFFFFFFFF) post fail
      (state.withWorkingSet slot set) := by
  refine wp_loadSegments_of_returns positive returns fun mapped returns => ?_
  rw [wp_bind]
  apply wp_recordLoadedPage_withWorkingSet recorded room
  rw [wp_bind, addTableToTableWorkingSet, wp_bind]
  apply wp_modifyEnv_withWorkingSet set.withSegment fun _ => rfl
  have counted : ((mapped.withWorkingSet slot set.withSegment).envs slot).tableLastWSIndex ≠ 0 := by
    rw [withWorkingSet_envs]
    change (set.tableLastWSIndex + 1) % twsMaxSize ≠ 0
    rw [table]
    decide
  rw [wp_bind, wp_get, if_neg counted, wp_pure, wp_bind]
  apply (Blind.copySegmentPages _ _ _ _).of_returns returns
  intro _ copied returns
  apply (Blind.addSegmentToPageFile _ _).of_returns returns
  exact fun _ next returns => continues next returns

/-! ### Sizes that break the lists -/

/-- The lists of the environment do not fit, or the list code fails. -/
def BreaksLists (program : UserProgram) (pageWSSize secondListSize : Nat) (state : KernelState) : Prop :=
  wp (envCreate (some program) pageWSSize secondListSize)
    (fun result next => ∃ slot ∈ result, ¬ ListsFit (next.envs slot)) (fun stop _ => stop ∈ listErrors) state

theorem BreaksLists.not_createsSafely {program : UserProgram}
    (breaks : BreaksLists program pageWSSize secondListSize state) :
    ¬ CreatesSafely program pageWSSize secondListSize state := by
  intro safely
  unfold BreaksLists wp at breaks
  unfold CreatesSafely wp at safely
  split at breaks
  · next outcome =>
      obtain ⟨slot, member, unfit⟩ := breaks
      rw [outcome] at safely
      exact unfit (safely slot member)
  · next outcome =>
      rw [outcome] at safely
      exact safely breaks

theorem recorded_unloaded {env : Env} (unlisted : env.Unlisted) (small : pageWSSize ≤ pwsMaxSize) :
    (env.sized pageWSSize secondListSize).unloaded.Recorded [] := by
  refine ⟨Nat.zero_le _, small, (Nat.zero_mod _).symm, ?_, fun index low => if_pos low, ?_⟩
  · simp [Env.unloaded, Env.sized, unlisted.unused, List.range_eq_range']
  · simp [Env.unloaded, Env.sized, unlisted.active, unlisted.second]

theorem unlisted_cleanMachine : (cleanMachine.envs 0).Unlisted := ⟨rfl, rfl, rfl⟩

theorem free_cleanMachine : cleanMachine.envFreeList = 0 :: (List.range nenv).tail := rfl

theorem returns_empty : Returns (enterFrames 0 "empty" (startFrames 0 (stackFrames 0 (pure ())))) cleanMachine := by
  decide +kernel

theorem returns_page : Returns (enterFrames 0 "page" (startFrames 0 (mapFrames 0 pageSegment.virtualAddress
    (fileFrames 0 pageProgram pageSegment (clearFrames 0 pageSegment.virtualAddress (stackFrames 0
      (ptSetPagePermissions 0 (ustackTop - pageSize) 0 permPresent >>= pure))))))) cleanMachine := by
  decide +kernel

/-- There is no room for so many elements. -/
theorem breaksLists_of_large (large : pwsMaxSize < pageWSSize) :
    BreaksLists emptyProgram pageWSSize secondListSize cleanMachine := by
  apply wp_envCreate_of_returns emptyProgram free_cleanMachine returns_empty
  intro directory entered _
  have size : ((entered.withWorkingSet 0 ((cleanMachine.envs 0).sized pageWSSize secondListSize)).envs 0).pageWSMaxSize =
      pageWSSize := by
    rw [withWorkingSet_envs]
    rfl
  unfold initializeEnvironment
  simp only [wp_bind, wp_modifyEnv, wp_modify, wp_get, KernelState.writeFrame_envs, KernelState.setEnv_self, size,
    if_pos large]
  change Stop.undefined _ ∈ listErrors
  simp [listErrors]

/-- As far as the segments. -/
theorem breaksLists_of_returns {program : UserProgram} (small : pageWSSize ≤ pwsMaxSize) {shadow : KernelM Result}
    (returns : Returns (enterFrames 0 program.name (startFrames 0 shadow)) cleanMachine)
    (continues : ∀ next physical, Returns shadow next → wp (do
      loadSegments 0 program program.segments ((pageWSSize + (wordSize - 1)) % wordSize) 0xFFFFFFFF
      clearModifiedBits 0
      allocateStackPage 0
      clearPresentBits 0 ((← get).envs 0).secondList
      modify fun state => state.setCr3 physical
      return some 0)
      (fun result next => ∃ slot ∈ result, ¬ ListsFit (next.envs slot)) (fun stop _ => stop ∈ listErrors)
      (next.withWorkingSet 0 ((cleanMachine.envs 0).sized pageWSSize secondListSize).unloaded)) :
    BreaksLists program pageWSSize secondListSize cleanMachine := by
  apply wp_envCreate_of_returns program free_cleanMachine returns
  intro directory entered returns
  rw [wp_bind]
  apply wp_initializeEnvironment_of_returns small returns
  intro started returns
  rw [wp_bind, wp_get, wp_bind]
  refine Commutes.of_returns (.modify fun _ => ?_) returns fun _ switched returns => continues switched _ returns
  rw [withWorkingSet_envs]
  rfl

theorem exists_unfit {env : Env} {physical : Nat} (unfit : ¬ ListsFit env) :
    ∃ slot ∈ some 0, ¬ ListsFit (((state.withWorkingSet 0 env).setCr3 physical).envs slot) := by
  refine ⟨0, rfl, ?_⟩
  rw [KernelState.setCr3_envs, withWorkingSet_envs]
  exact unfit

/-- The size of one of the lists is negative. -/
theorem breaksLists_of_more (positive : 0 < pageWSSize) (small : pageWSSize ≤ pwsMaxSize)
    (more : pageWSSize < secondListSize) (word : secondListSize < wordSize) :
    BreaksLists emptyProgram pageWSSize secondListSize cleanMachine := by
  have sizes : (toInt32 ((pageWSSize + (wordSize - secondListSize)) % wordSize) < 0 ∨ toInt32 secondListSize < 0) ∧
      0 < toUInt32 (toInt32 ((pageWSSize + (wordSize - secondListSize)) % wordSize)) := by
    simp only [toInt32, toUInt32, wordSize, pwsMaxSize] at small word ⊢
    split
    · split
      · omega
      · omega
    · omega
  apply breaksLists_of_returns small returns_empty
  intro started physical returns
  have recorded := @recorded_unloaded pageWSSize secondListSize _ unlisted_cleanMachine small
  rw [wp_bind, emptyProgram, loadSegments, wp_pure, wp_bind]
  apply wp_clearModifiedBits_nil recorded
  rw [wp_bind]
  apply wp_allocateStackPage_of_returns recorded positive returns
  intro stacked _
  generalize filled : ((cleanMachine.envs 0).sized pageWSSize secondListSize).unloaded.record
    (ustackTop - pageSize) _ = env
  have front : env.secondList = [] := by
    rw [← filled]
    exact if_pos sizes.2
  have activeSize : env.activeListSize = toInt32 ((pageWSSize + (wordSize - secondListSize)) % wordSize) := by
    rw [← filled]
    rfl
  have secondSize : env.secondListSize = toInt32 secondListSize := by
    rw [← filled]
    rfl
  have second : ((stacked.withWorkingSet 0 env).envs 0).secondList = [] := by
    rw [withWorkingSet_envs]
    exact front
  rw [wp_bind, wp_get, wp_bind, second, clearPresentBits, wp_pure, wp_bind, wp_modify, wp_pure]
  apply exists_unfit
  intro fit
  obtain ⟨activeFits, secondFits⟩ := id fit
  omega

/-- No element is there for a page. -/
theorem breaksLists_of_zero (secondListSize : Nat) : BreaksLists pageProgram 0 secondListSize cleanMachine := by
  apply breaksLists_of_returns (Nat.zero_le _) returns_page
  intro started physical returns
  rw [wp_bind]
  refine wp_loadSegments_of_returns (by decide) returns fun mapped _ => ?_
  have inArray : ¬ pwsMaxSize ≤ 0 := by decide
  have unused : ¬ 0 ∈ ([] : List Nat) := List.not_mem_nil
  rw [wp_bind, recordLoadedPage, wp_bind, wp_get, withWorkingSet_envs]
  have element : ((mapped.envs 0).withWorkingSet ((cleanMachine.envs 0).sized 0 secondListSize).unloaded).pageLastWSIndex =
    0 := rfl
  have list : ((mapped.envs 0).withWorkingSet ((cleanMachine.envs 0).sized 0 secondListSize).unloaded).pageWorkingSetList =
    [] := rfl
  simp only [element, list, if_neg inArray, if_pos unused]
  change Stop.undefined _ ∈ listErrors
  simp [listErrors]

/-- `ActiveList` gets a page and its size is 0. -/
theorem breaksLists_of_same (two : 2 ≤ pageWSSize) (small : pageWSSize ≤ pwsMaxSize) :
    BreaksLists pageProgram pageWSSize pageWSSize cleanMachine := by
  have positive : 0 < (pageWSSize + (wordSize - 1)) % wordSize := by
    simp only [pwsMaxSize] at small
    simp only [wordSize]
    omega
  have whole : (pageWSSize + (wordSize - pageWSSize)) % wordSize = 0 := by
    simp only [pwsMaxSize] at small
    simp only [wordSize]
    omega
  have limits : toInt32 0 = 0 ∧ toUInt32 0 = 0 ∧ 0 < toUInt32 (0 - 1) := by decide
  have recorded := @recorded_unloaded pageWSSize pageWSSize _ unlisted_cleanMachine small
  apply breaksLists_of_returns small returns_page
  intro started physical returns
  generalize unloaded : ((cleanMachine.envs 0).sized pageWSSize pageWSSize).unloaded = set at recorded ⊢
  have activeSize : set.activeListSize = 0 := by
    rw [← unloaded]
    change toInt32 ((pageWSSize + (wordSize - pageWSSize)) % wordSize) = 0
    rw [whole]
    exact limits.1
  have size : set.pageWSMaxSize = pageWSSize := by
    rw [← unloaded]
    rfl
  have table : set.tableLastWSIndex = 0 := by
    rw [← unloaded]
    rfl
  have active : set.activeList = [] := by
    rw [← unloaded]
    rfl
  have second : set.secondList = [] := by
    rw [← unloaded]
    rfl
  have room : 0 < set.pageWSMaxSize := by omega
  have loaded := recorded_withSegment recorded room
  have roomLoaded : [pageSegment.virtualAddress].length < set.withSegment.pageWSMaxSize := by
    change 1 < set.pageWSMaxSize
    omega
  rw [wp_bind]
  generalize (pageWSSize + (wordSize - 1)) % wordSize = remaining at positive ⊢
  apply wp_loadSegments_of_recorded positive recorded room table returns
  intro filed returns
  rw [wp_bind]
  apply wp_clearModifiedBits_singleton loaded returns
  intro cleared returns
  rw [wp_bind]
  apply wp_allocateStackPage_of_returns loaded roomLoaded returns
  intro stacked returns
  -- The segment is in `ActiveList`, and the stack goes to `SecondList`.
  have front : set.withSegment.activeList = [set.pageLastWSIndex] := by
    simp only [Env.withSegment, Env.record, Env.setElement, activeSize, active, List.length_nil, if_pos limits.2.2]
  have back : set.withSegment.secondList = [] := by
    simp only [Env.withSegment, Env.record, Env.setElement, activeSize, active, List.length_nil, if_pos limits.2.2, second]
  have limit : ¬ set.withSegment.activeList.length < toUInt32 set.withSegment.activeListSize := by
    have same : set.withSegment.activeListSize = 0 := by
      simp only [Env.withSegment, Env.record, Env.setElement, activeSize]
    rw [same, limits.2.1]
    exact Nat.not_lt_zero _
  generalize filled : set.withSegment.record (ustackTop - pageSize) _ = env
  have stack : env.secondList = [set.withSegment.pageLastWSIndex] := by
    rw [← filled]
    change (if _ then _ else _) = _
    rw [if_neg limit, back]
  have element : (env.ptrPageWorkingSet set.withSegment.pageLastWSIndex).virtualAddress = ustackTop - pageSize := by
    rw [← filled]
    exact congrArg WorkingSetElement.virtualAddress (if_pos rfl)
  have kept : env.activeList = [set.pageLastWSIndex] := by
    rw [← filled]
    change (if _ then _ else _) = _
    rw [if_neg limit, front]
  have empty : env.activeListSize = 0 := by
    rw [← filled]
    simp only [Env.record, Env.setElement, Env.withSegment, activeSize]
  have stackHere : ((stacked.withWorkingSet 0 env).envs 0).secondList = [set.withSegment.pageLastWSIndex] := by
    rw [withWorkingSet_envs]
    exact stack
  have elementHere : (((stacked.withWorkingSet 0 env).envs 0).ptrPageWorkingSet
      set.withSegment.pageLastWSIndex).virtualAddress = ustackTop - pageSize := by
    rw [withWorkingSet_envs]
    exact element
  rw [wp_bind, wp_get, wp_bind, stackHere, clearPresentBits, wp_bind, wp_get, elementHere, wp_bind]
  apply (Blind.ptSetPagePermissions _ _ _).of_returns returns
  intro _ hidden _
  rw [clearPresentBits, wp_pure, wp_bind, wp_modify, wp_pure]
  apply exists_unfit
  intro fit
  have tooLong : (env.activeList.length : Int) ≤ env.activeListSize := fit.1
  rw [kept, empty, List.length_singleton] at tooLong
  omega

/-! ### The sizes that are safe -/

/-- The checks of `CreateEnv`, on unsigned sizes. -/
def createEnvAccepts (pageWSSize LRUSecondListSize : Nat) : Bool :=
  ¬ pwsMaxSize < pageWSSize ∧ ¬ (pageWSSize + (wordSize - 1)) % wordSize < LRUSecondListSize

/-- In every state of a run, `env_create` is safe for every program. -/
def SafeSizes (pageWSSize secondListSize : Nat) : Prop :=
  ∀ layout : BootLayout, layout.Valid → ∀ state, (kernel layout).Reaches Contained state →
    ∀ program, CreatesSafely program pageWSSize secondListSize state

/-- The sizes are safe exactly if they are good. -/
theorem safeSizes_iff (word : secondListSize < wordSize) :
    SafeSizes pageWSSize secondListSize ↔ GoodSizes pageWSSize secondListSize := by
  constructor
  · intro safe
    have start : (kernel .small).Reaches Contained cleanMachine := .start ⟨_, _, rfl⟩
    have safely (program : UserProgram) := safe .small BootLayout.small_valid cleanMachine start program
    have positive : 1 ≤ pageWSSize := by
      rcases Nat.eq_zero_or_pos pageWSSize with rfl | positive
      · exact absurd (safely pageProgram) (breaksLists_of_zero secondListSize).not_createsSafely
      · exact positive
    have small : pageWSSize ≤ pwsMaxSize := by
      apply not_lt.1
      intro large
      exact (breaksLists_of_large large).not_createsSafely (safely emptyProgram)
    refine ⟨positive, small, ?_⟩
    rcases lt_trichotomy secondListSize pageWSSize with less | rfl | more
    · exact .inl less
    · rcases Nat.lt_or_ge secondListSize 2 with one | two
      · exact .inr ⟨by omega, by omega⟩
      · exact absurd (safely pageProgram) (breaksLists_of_same two small).not_createsSafely
    · exact absurd (safely emptyProgram) (breaksLists_of_more positive small more word).not_createsSafely
  · intro good layout valid state reached program
    obtain ⟨ram, population⟩ := population_of_contained valid reached
    exact createsSafely_of_good good program population.vacant

theorem safeSizes_iff_six : 2 < wordSize ∧ (SafeSizes 6 2 ↔ GoodSizes 6 2) :=
  ⟨by decide, safeSizes_iff (by decide)⟩

/-- `CreateEnv` accepts both sizes 0. -/
theorem not_safeSizes_zero : createEnvAccepts 0 0 = true ∧ ¬ SafeSizes 0 0 :=
  ⟨by decide, fun safe => (breaksLists_of_zero 0).not_createsSafely
    (safe .small BootLayout.small_valid cleanMachine (.start ⟨_, _, rfl⟩) pageProgram)⟩

end Fos.Kernel
