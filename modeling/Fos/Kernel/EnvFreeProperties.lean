import Fos.Kernel.AllocationProperties
import Fos.Kernel.InitializationProperties
import Fos.Kernel.TeardownProperties

/-! `env_free`: what an environment had in memory and in the page file is given back. -/

set_option autoImplicit false

namespace Fos.Kernel

open Foundation

variable {layout : BootLayout} {ram : Nat → Page} {slot element : Nat} {strict tidy : Prop}
  {start state next : KernelState}

/-! ### The lists -/

/-- A traversal whose rounds take the element they look at out of the list. -/
theorem wp_listForeach_drain (list : KernelState → List Nat) {body : Nat → KernelM Unit}
    (invariant : KernelState → Prop) {fail : Stop → KernelState → Prop}
    (round : ∀ state element rest, invariant state → list state = element :: rest →
      wp (body element) (fun _ next => invariant next ∧ list next = rest) fail state)
    {elements : List Nat} {fuel : Nat} (holds : invariant state) (same : list state = elements)
    (enough : elements.length < fuel) :
    wp (listForeach list body fuel elements.head?) (fun _ next => invariant next ∧ list next = []) fail state := by
  induction elements generalizing state fuel with
  | nil =>
      cases fuel with
      | zero => exact absurd enough (Nat.not_lt_zero _)
      | succ fuel => exact ⟨holds, same⟩
  | cons element rest ih =>
      cases fuel with
      | zero => exact absurd enough (Nat.not_lt_zero _)
      | succ fuel =>
          have next : listNext (list state) element = rest.head? := by
            rw [same]
            exact @listNext_split element [] rest List.not_mem_nil
          simp only [List.head?_cons, listForeach, wp_bind, wp_get, next]
          refine wp_mono (round state element rest holds same) (fun _ after outcome => ?_) fun _ _ => id
          exact ih outcome.1 outcome.2 (Nat.lt_of_succ_lt_succ enough)

/-- An environment some of whose pages were given back. -/
structure Draining (layout : BootLayout) (ram : Nat → Page) (strict tidy : Prop) (slot : Nat)
    (start state : KernelState) : Prop where
  inv : Inv layout ram state
  acts : Acts slot [] start [] state
  keeps : Keeps slot [] start [] state
  loaded : Loaded strict tidy slot state

/-- The page of an element leaves memory. -/
theorem envFreeElement_spec (valid : layout.Valid)
    (draining : Draining layout ram strict tidy slot start state)
    (listed : ((state.envs slot).ptrPageWorkingSet element).virtualAddress ∈
      (state.envs slot).activePages ++ (state.envs slot).secondPages)
    (active second : List Nat) {remove : Env → Nat → Env}
    (removes : remove (state.envs slot) element = (state.envs slot).withLists
      (state.envs slot).ptrPageWorkingSet (state.envs slot).pageWorkingSetList active second)
    (activePages : (state.envs slot).addresses active = (state.envs slot).activePages.erase
      ((state.envs slot).ptrPageWorkingSet element).virtualAddress)
    (secondPages : (state.envs slot).addresses second = (state.envs slot).secondPages.erase
      ((state.envs slot).ptrPageWorkingSet element).virtualAddress)
    (nodup : (active ++ second).Nodup)
    (subset : active ++ second ⊆ (state.envs slot).activeList ++ (state.envs slot).secondList)
    {fail : Stop → KernelState → Prop} :
    wp (envFreeElement slot remove element) (fun _ next =>
      Draining layout ram strict tidy slot start next ∧
        (next.envs slot).activeList = active ∧ (next.envs slot).secondList = second) fail state := by
  obtain ⟨inv, acts, keeps, loaded⟩ := draining
  have resident := loaded.resident
  generalize addressEq : ((state.envs slot).ptrPageWorkingSet element).virtualAddress = address at *
  have page := resident.pages address listed
  have mapped := (resident.owned listed).ne_zero
  have present := KernelState.dirWord_ne_zero_of_leaf mapped
  unfold envFreeElement
  simp only [wp_bind, wp_get, addressEq, root_eq]
  rw [wp_getFrameInfo valid inv loaded.live page.2]
  simp only [KernelState.frameAt, KernelState.tableAt, if_neg mapped, if_neg present, wp_bind]
  refine wp_mono (unmapFrame_spec valid inv loaded.live page.2) (fun _ unmapped holds => ?_) fun _ _ => id
  obtain ⟨becomes, keepsUnmap, calm, -⟩ := holds
  have env := calm.placed loaded.placed
  have removed : remove (unmapped.envs slot) element = (unmapped.envs slot).withLists
      (unmapped.envs slot).ptrPageWorkingSet (unmapped.envs slot).pageWorkingSetList active second := by
    rw [env, removes]
  let record := (unmapped.envs slot).withLists ((unmapped.envs slot).setEmpty element)
    (element :: (unmapped.envs slot).pageWorkingSetList) active second
  obtain ⟨becomesEnv, keepsEnv, -⟩ := becomes.inv.setEnv [] record rfl rfl rfl rfl
  have nextEnv : (unmapped.setEnv slot record).envs slot = record := KernelState.setEnv_self ..
  have leaf : (unmapped.setEnv slot record).leaf .user slot =
      Function.update (state.leaf .user slot) (pageOf address) 0 := by
    have entries := congrArg Space.entry (becomesEnv.space.trans becomes.space)
    exact entries
  have pagesNext (elements : List Nat) : record.addresses elements = (state.envs slot).addresses elements := by
    rw [Env.addresses_setEmpty, env]
  have activeNext : record.activePages = (state.envs slot).activePages.erase address :=
    (pagesNext active).trans activePages
  have secondNext : record.secondPages = (state.envs slot).secondPages.erase address :=
    (pagesNext second).trans secondPages
  have drained : Draining layout ram strict tidy slot start (unmapped.setEnv slot record) ∧
      ((unmapped.setEnv slot record).envs slot).activeList = active ∧
      ((unmapped.setEnv slot record).envs slot).secondList = second := by
    refine ⟨⟨becomesEnv.inv, acts.trans (becomes.acts.trans becomesEnv.acts),
      keeps.trans (keepsUnmap.trans keepsEnv), ?_, ?_, ?_, ?_⟩, ?_, ?_⟩
    · rw [KernelState.root, nextEnv]
      have live := calm.root_user
      rw [KernelState.root] at live
      exact live ▸ loaded.live
    · rw [nextEnv]
      change (unmapped.envs slot).diskEnvPgdir ≠ none
      rw [env]
      exact loaded.placed
    · rw [nextEnv]
      exact ⟨nodup, fun other member => loaded.listed.bounded other (subset member)⟩
    · rw [leaf, nextEnv, activeNext, secondNext]
      exact resident.remove listed
    · rw [nextEnv]
      rfl
    · rw [nextEnv]
      rfl
  rw [wp_modifyEnv, removed, wp_modifyEnv, KernelState.setEnv_self, KernelState.setEnv_setEnv]
  exact drained

/-- One round over `SecondList`. -/
theorem envFreeElement_second (valid : layout.Valid)
    (draining : Draining layout ram strict tidy slot start state) {rest : List Nat}
    (head : secondListOf slot state = element :: rest) {fail : Stop → KernelState → Prop} :
    wp (envFreeElement slot (fun env element => { env with secondList := env.secondList.erase element }) element)
      (fun _ next => Draining layout ram strict tidy slot start next ∧ secondListOf slot next = rest)
      fail state := by
  have second : (state.envs slot).secondList = element :: rest := head
  have pages : (state.envs slot).secondPages =
      ((state.envs slot).ptrPageWorkingSet element).virtualAddress :: (state.envs slot).addresses rest := by
    rw [Env.secondPages, second, Env.addresses_cons]
  have distinct := draining.loaded.resident.nodup
  have nodup := draining.loaded.listed.nodup
  rw [pages] at distinct
  rw [second] at nodup
  have notActive := fun member => (List.nodup_append.1 distinct).2.2 _ member _ (List.mem_cons_self ..) rfl
  refine wp_mono (envFreeElement_spec valid draining ?_ (state.envs slot).activeList rest ?_ ?_ ?_ ?_ ?_)
      (fun _ next outcome => ⟨outcome.1, outcome.2.2⟩) fun _ _ => id
  · rw [pages]
    exact List.mem_append_right _ (List.mem_cons_self ..)
  · rw [second, List.erase_cons_head]
    rfl
  · exact (List.erase_of_not_mem notActive).symm
  · rw [pages, List.erase_cons_head]
  · exact nodup.sublist ((List.sublist_cons_self element rest).append_left _)
  · rw [second]
    exact ((List.sublist_cons_self element rest).append_left _).subset

/-- One round over `ActiveList`. -/
theorem envFreeElement_active (valid : layout.Valid)
    (draining : Draining layout ram strict tidy slot start state)
    (noSecond : (state.envs slot).secondList = []) {rest : List Nat}
    (head : activeListOf slot state = element :: rest) {fail : Stop → KernelState → Prop} :
    wp (envFreeElement slot (fun env element => { env with activeList := env.activeList.erase element }) element)
      (fun _ next => (Draining layout ram strict tidy slot start next ∧ (next.envs slot).secondList = []) ∧
        activeListOf slot next = rest) fail state := by
  have active : (state.envs slot).activeList = element :: rest := head
  have pages : (state.envs slot).activePages =
      ((state.envs slot).ptrPageWorkingSet element).virtualAddress :: (state.envs slot).addresses rest := by
    rw [Env.activePages, active, Env.addresses_cons]
  have secondPages : (state.envs slot).secondPages = [] := by
    rw [Env.secondPages, noSecond]
    rfl
  have nodup := draining.loaded.listed.nodup
  rw [active, noSecond, List.append_nil] at nodup
  refine wp_mono (envFreeElement_spec valid draining ?_ rest [] ?_ ?_ ?_ ?_ ?_)
    (fun _ next outcome => ⟨⟨outcome.1, outcome.2.2⟩, outcome.2.1⟩) fun _ _ => id
  · rw [pages]
    exact List.mem_append_left _ (List.mem_cons_self ..)
  · rw [active, List.erase_cons_head, ← noSecond]
    rfl
  · rw [pages, List.erase_cons_head]
  · rw [secondPages]
    rfl
  · rw [List.append_nil]
    exact (List.nodup_cons.1 nodup).2
  · rw [active, noSecond, List.append_nil, List.append_nil]
    exact List.subset_cons_self element rest

theorem Env.Listed.length_le {env : Env} (listed : env.Listed) :
    env.activeList.length + env.secondList.length ≤ pwsMaxSize := by
  have within : env.activeList ++ env.secondList ⊆ List.range pwsMaxSize := fun element member =>
    List.mem_range.2 (listed.bounded element member)
  have bound := (listed.nodup.subperm within).length_le
  rwa [List.length_append, List.length_range] at bound

/-- The two traversals of `env_free`. -/
theorem envFreeLists_spec (valid : layout.Valid) (inv : Inv layout ram state)
    (loaded : Loaded strict tidy slot state) {fail : Stop → KernelState → Prop} :
    wp (do
      listForeach (secondListOf slot)
        (envFreeElement slot fun env element => { env with secondList := env.secondList.erase element })
        listRounds ((← get).envs slot).secondList.head?
      listForeach (activeListOf slot)
        (envFreeElement slot fun env element => { env with activeList := env.activeList.erase element })
        listRounds ((← get).envs slot).activeList.head?)
      (fun _ next => Draining layout ram strict tidy slot state next ∧
        (next.envs slot).activeList = [] ∧ (next.envs slot).secondList = []) fail state := by
  have short (other : KernelState) (listed : (other.envs slot).Listed) :
      (other.envs slot).secondList.length < listRounds ∧ (other.envs slot).activeList.length < listRounds := by
    have bound := listed.length_le
    simp only [listRounds]
    omega
  have first : Draining layout ram strict tidy slot state state :=
    ⟨inv, .refl slot [] state, .refl slot [] state, loaded⟩
  simp only [wp_bind, wp_get]
  refine wp_mono (wp_listForeach_drain (secondListOf slot) (Draining layout ram strict tidy slot state)
    (fun _ _ _ draining head => envFreeElement_second valid draining head) first rfl (short _ loaded.listed).1)
    (fun _ drained outcome => ?_) fun _ _ => id
  refine wp_mono (wp_listForeach_drain (activeListOf slot)
    (fun next => Draining layout ram strict tidy slot state next ∧ (next.envs slot).secondList = [])
    (fun _ _ _ holds head => envFreeElement_active valid holds.1 holds.2 head) outcome rfl
    (short _ outcome.1.loaded.listed).2) (fun _ next last => ?_) fun _ _ => id
  exact ⟨last.1.1, last.2, last.1.2⟩

/-! ### The page tables -/

/-- The page tables up to an index are gone, with what their entries named. -/
structure Untabled (layout : BootLayout) (ram : Nat → Page) (slot tables : Nat)
    (start state : KernelState) : Prop where
  inv : Inv layout ram state
  acts : Acts slot [] start [] state
  env : state.envs slot = start.envs slot
  gone : ∀ index < tables, state.dirWord .user slot index = 0
  empty : (∀ page, start.leaf .user slot page = 0) →
    Keeps slot [] start [] state ∧ ∀ page, state.leaf .user slot page = 0

theorem envFreeTable_spec (valid : layout.Valid) {tables : Nat}
    (untabled : Untabled layout ram slot tables start state) (live : start.root .user slot ≠ 0)
    (low : tables < userTables) {fail : Stop → KernelState → Prop} :
    wp (envFreeTable slot tables) (fun _ next => Untabled layout ram slot (tables + 1) start next)
      fail state := by
  obtain ⟨inv, acts, env, gone, empty⟩ := untabled
  have root : state.root .user slot = start.root .user slot := by simp only [KernelState.root, env]
  rw [← root] at live
  have word := KernelState.dirWord_eq_mem live low
  simp only [envFreeTable, wp_bind, wp_get, root_eq, ← word]
  by_cases absent : state.dirWord .user slot tables = 0
  · have zero : ¬ extractAddress 0 ≠ 0 := by decide
    rw [absent, if_neg zero, wp_pure]
    refine ⟨inv, acts, env, fun index below => ?_, empty⟩
    by_cases last : index = tables
    · rw [last, absent]
    · exact gone index (by omega)
  · have managed := inv.managed _ _ (KernelState.names_table absent)
    have once := inv.references _ _ (KernelState.names_table absent)
    have some : extractAddress (state.dirWord .user slot tables) ≠ 0 := by
      intro zero
      have frame := frameOf_extractAddress (state.dirWord .user slot tables)
      rw [zero] at frame
      have positive := (managed.pos valid).1
      rw [← frame] at positive
      exact absurd positive (by decide)
    have counted : ¬ (1 : Nat) = 0 := Nat.one_ne_zero
    rw [if_pos some, wp_bind, wp_toFrameInfo
      (by rw [frameOf_extractAddress]; exact frameOf_lt_of_dirWord valid inv absent)]
    simp only [frameOf_extractAddress, wp_bind, wp_get, once, ne_eq, counted, not_false_eq_true, if_true,
      wp_modify, freeFrame, KernelState.setReferences_twice]
    obtain ⟨invTaken, actsTaken, fresh, managedTaken, dirs, leaves⟩ := inv.detach valid .user slot [] absent
    obtain ⟨put, -⟩ := invTaken.put slot [] fresh managedTaken 0
    have released : Untabled layout ram slot (tables + 1) start (state.releaseTable .user slot tables) := by
      refine ⟨put.inv, acts.trans (actsTaken.trans put.acts), env, fun index below => ?_, fun none => ?_⟩
      · refine (dirs .user slot index).trans ?_
        by_cases last : index = tables
        · exact if_pos ⟨rfl, rfl, last⟩
        · rw [if_neg (fun both => last both.2.2)]
          exact gone index (by omega)
      · obtain ⟨keeps, unmapped⟩ := empty none
        obtain ⟨becomes, keepsTable, -⟩ := inv.releaseTable valid absent fun page _ => unmapped page
        exact ⟨keeps.trans keepsTable, fun page => (becomes.entry page).trans (unmapped page)⟩
    exact released

/-! ### The directories -/

/-- The record forgets the page directory. -/
def KernelState.forgetDirectory (slot : Nat) (state : KernelState) : KernelState :=
  state.setEnv slot { state.envs slot with
    envPageDirectory := 0
    envCr3 := 0 }

section Forget

variable {other : Nat}

theorem forget_envs : (state.forgetDirectory slot).envs slot = { state.envs slot with
    envPageDirectory := 0
    envCr3 := 0 } := KernelState.setEnv_self ..

theorem forget_diskEnvPgdir : ((state.forgetDirectory slot).envs other).diskEnvPgdir =
    (state.envs other).diskEnvPgdir := by
  by_cases same : other = slot <;> simp [KernelState.forgetDirectory, KernelState.setEnv, same]

theorem forget_diskEnvPgdirPA : ((state.forgetDirectory slot).envs other).diskEnvPgdirPA =
    (state.envs other).diskEnvPgdirPA := by
  by_cases same : other = slot <;> simp [KernelState.forgetDirectory, KernelState.setEnv, same]

theorem commutes_loopFrom {change : KernelState → KernelState} {body : Nat → KernelM Unit}
    (round : ∀ index, Commutes change (body index)) (first count : Nat) :
    Commutes change (loopFrom body first count) := by
  induction count generalizing first with
  | zero => exact .pure ()
  | succ count ih => exact (round first).bind fun _ => ih (first + 1)

theorem commutes_freeDiskFrame (diskFrame : Nat) :
    Commutes (KernelState.forgetDirectory slot) (freeDiskFrame diskFrame) := by
  unfold freeDiskFrame
  split
  · exact .pure ()
  · exact .modify fun _ => rfl

theorem commutes_toFrameInfo (physical : Nat) :
    Commutes (KernelState.forgetDirectory slot) (toFrameInfo physical) := by
  refine .get (fun _ => rfl) fun state => ?_
  split
  · exact .throw _
  · exact .pure _

theorem commutes_staticKernelVirtualAddress (physical : Nat) :
    Commutes (KernelState.forgetDirectory slot) (staticKernelVirtualAddress physical) := by
  refine .get (fun _ => rfl) fun state => ?_
  split
  · exact .throw _
  · exact .pure _

theorem commutes_decrementReferences (frame : Nat) :
    Commutes (KernelState.forgetDirectory slot) (decrementReferences frame) := by
  refine .get (fun _ => rfl) fun state => ?_
  refine .bind (.modify fun _ => rfl) fun _ => ?_
  split
  · exact .bind (.modify fun _ => rfl) fun _ => .modify fun _ => rfl
  · exact .pure ()

theorem commutes_pfFreeTable (directory pdeno : Nat) :
    Commutes (KernelState.forgetDirectory slot) (pfFreeTable directory pdeno) := by
  refine .get (fun _ => rfl) fun state => ?_
  dsimp only
  split
  · refine .bind (commutes_staticKernelVirtualAddress _) fun table => ?_
    refine .bind (commutes_loopFrom (fun pteno => ?_) 0 1024) fun _ => ?_
    · refine .get (fun _ => rfl) fun state => ?_
      exact .bind (.modify fun _ => rfl) fun _ => commutes_freeDiskFrame _
    · refine .bind (.modify fun _ => rfl) fun _ => ?_
      exact .bind (commutes_toFrameInfo _) fun _ => commutes_decrementReferences _
  · exact .pure ()

/-- `pf_free_env` does not look at the page directory. -/
theorem commutes_pfFreeEnv : Commutes (KernelState.forgetDirectory slot) (pfFreeEnv slot) := by
  refine .get (fun state => ?_) fun state => ?_
  · simp only [forget_diskEnvPgdir]
  · split
    · exact .throw _
    · refine .bind (commutes_loopFrom (fun index => commutes_pfFreeTable _ index) 0 _) fun _ => ?_
      refine .get (fun state => ?_) fun state => ?_
      · simp only [forget_diskEnvPgdirPA]
      · refine .bind (commutes_toFrameInfo _) fun _ => .bind (commutes_decrementReferences _) fun _ => ?_
        refine .modify fun state => ?_
        simp [KernelState.forgetDirectory]

end Forget

/-- The environment was freed; with `tidy` everything it used is on a free list. -/
structure Freed (layout : BootLayout) (ram : Nat → Page) (tidy : Prop) (slot : Nat)
    (state next : KernelState) : Prop where
  inv : Inv layout ram next
  acts : Acts slot [] state [] (next.setEnvFreeList state.envFreeList)
  freeList : next.envFreeList = slot :: state.envFreeList
  cleared : next.envs slot = Env.zero
  keeps : tidy → Keeps slot [] state [] next

/-- The page directory is given back while the record still names it. -/
theorem freeDirectory_spec (valid : layout.Valid) (inv : Inv layout ram state)
    (live : state.root .user slot ≠ 0) (placed : (state.envs slot).diskEnvPgdir ≠ none)
    (gone : ∀ index, state.dirWord .user slot index = 0) {fail : Stop → KernelState → Prop} :
    wp (do
      freeFrame (← toFrameInfo ((← get).envs slot).envCr3)
      pfFreeEnv slot
      freeEnvironment slot) (fun _ next => Freed layout ram True slot state next) fail state := by
  have named := KernelState.names_root live
  have managed := inv.managed _ _ named
  have physical : (state.envs slot).envCr3 = toPhysicalAddress (state.root .user slot) := inv.physical slot
  have bound : frameOf (toPhysicalAddress (state.root .user slot)) < state.numberOfFrames := by
    rw [frameOf_toPhysicalAddress, inv.size]
    exact (managed.pos valid).2
  have detaches : DetachesRoot .user slot state (state.forgetDirectory slot) :=
    { quiet := by constructor <;> rfl
      others := fun other different => if_neg different
      roots := fun side other => by
        cases side <;> by_cases same : other = slot <;>
          simp [KernelState.root, KernelState.forgetDirectory, KernelState.setEnv, same]
      physical := by
        rw [forget_envs]
        rfl
      physicalDisk := fun directory found => by
        rw [forget_envs] at found ⊢
        exact inv.physicalDisk slot directory found
      mem := rfl
      free := rfl
      references := rfl
      diskFree := rfl
      disk := rfl }
  obtain ⟨detached, keeps, fresh, -, -⟩ := inv.detachRoot [] detaches live gone
  obtain ⟨put, keepsPut⟩ := detached.inv.put slot [] fresh managed 0
  simp only [wp_bind, wp_get, physical, wp_toFrameInfo bound, frameOf_toPhysicalAddress, freeFrame, wp_modify]
  generalize freeEq : (state.setReferences (state.root .user slot) 0).setFreeFrameList
    (state.root .user slot :: (state.setReferences (state.root .user slot) 0).freeFrameList) = freed
  have forgets : ((state.forgetDirectory slot).setReferences (state.root .user slot) 0).setFreeFrameList
      (state.root .user slot :: (state.forgetDirectory slot).freeFrameList) = freed.forgetDirectory slot := by
    rw [← freeEq]
    rfl
  rw [forgets] at put keepsPut
  have placedFreed : ((freed.forgetDirectory slot).envs slot).diskEnvPgdir ≠ none := by
    rw [forget_diskEnvPgdir, ← freeEq]
    exact placed
  have freeing : wp (pfFreeEnv slot) _ (fun _ _ => False) (freed.forgetDirectory slot) :=
    pfFreeEnv_spec valid put.inv placedFreed
  refine wp_mono_returns (commutes_pfFreeEnv.wp.1 freeing) (fun _ emptied holds => ?_)
  obtain ⟨becomes, keepsPages, env⟩ := holds
  have directory : Env.zero.envPageDirectory = ((emptied.forgetDirectory slot).envs slot).envPageDirectory ∧
      Env.zero.envCr3 = ((emptied.forgetDirectory slot).envs slot).envCr3 := by
    rw [forget_envs]
    exact ⟨rfl, rfl⟩
  obtain ⟨becomesZero, keepsZero, -⟩ := becomes.inv.setEnv [] Env.zero directory.1 directory.2
    (by rw [env]; rfl) (by rw [env]; rfl)
  rw [KernelState.forgetDirectory, KernelState.setEnv_setEnv] at becomesZero keepsZero
  have acts := (detached.acts.trans put.acts).trans (becomes.acts.trans becomesZero.acts)
  have same : SameMachine (emptied.setEnv slot Env.zero)
      ((emptied.setEnv slot Env.zero).setEnvFreeList (slot :: (emptied.setEnv slot Env.zero).envFreeList)) := rfl
  have freeList : emptied.envFreeList = state.envFreeList := acts.quiet.freeList
  have back : ((emptied.setEnv slot Env.zero).setEnvFreeList
      (slot :: (emptied.setEnv slot Env.zero).envFreeList)).setEnvFreeList state.envFreeList =
        emptied.setEnv slot Env.zero := by
    rw [← freeList]
    rfl
  refine ⟨same.inv becomesZero.inv, back ▸ acts, congrArg (slot :: ·) freeList, if_pos rfl, fun _ => ?_⟩
  · have kept := (keeps.trans keepsPut).trans (keepsPages.trans keepsZero)
    exact ⟨fun frame held => same.held slot [] ▸ kept.held frame held,
      fun diskFrame held => same.heldDisk slot ▸ kept.heldDisk diskFrame held⟩

/-- `env_free`. With `tidy` nothing is lost. -/
theorem envFree_spec (valid : layout.Valid) (inv : Inv layout ram state)
    (loaded : Loaded strict tidy slot state) {fail : Stop → KernelState → Prop} :
    wp (envFree slot) (fun _ next => Freed layout ram tidy slot state next) fail state := by
  have lists := @envFreeLists_spec layout ram slot strict tidy state valid inv loaded fail
  simp only [envFree, wp_bind, wp_get] at lists ⊢
  refine wp_mono lists (fun _ second holds => ?_) fun _ _ => id
  refine wp_mono holds (fun _ drained holds => ?_) fun _ _ => id
  obtain ⟨draining, noActive, noSecond⟩ := holds
  have live := draining.loaded.live
  have unmapped (isTidy : tidy) (page : Nat) : drained.leaf .user slot page = 0 := by
    by_contra some
    have member := draining.loaded.resident.listed isTidy page some
    rw [Env.activePages, Env.secondPages, noActive, noSecond] at member
    exact absurd member List.not_mem_nil
  have first : Untabled layout ram slot 0 drained drained :=
    ⟨draining.inv, .refl slot [] drained, rfl, fun index below => absurd below (Nat.not_lt_zero _),
      fun none => ⟨.refl slot [] drained, none⟩⟩
  refine wp_mono (wp_loopFrom (fun tables next => Untabled layout ram slot tables drained next)
    (fun tables next low untabled => envFreeTable_spec valid untabled live low) first)
    (fun _ untabled holds => ?_) fun _ _ => id
  have root : untabled.root .user slot = drained.root .user slot := by simp only [KernelState.root, holds.env]
  have gone (index : Nat) : untabled.dirWord .user slot index = 0 := by
    by_cases low : index < userTables
    · exact holds.gone index low
    · exact if_pos (.inr (not_lt.1 low))
  have acts := draining.acts.trans holds.acts
  have freeList : untabled.envFreeList = state.envFreeList := acts.quiet.freeList
  have finish (freed : KernelState) (rest : Freed layout ram True slot untabled freed) :
      Freed layout ram tidy slot state freed := by
    refine ⟨rest.inv, acts.trans (freeList ▸ rest.acts), freeList ▸ rest.freeList, rest.cleared, fun isTidy => ?_⟩
    exact draining.keeps.trans ((holds.empty (unmapped isTidy)).1.trans (rest.keeps trivial))
  have directory : wp _ _ fail untabled := freeDirectory_spec valid holds.inv (root ▸ live)
    (holds.env ▸ draining.loaded.placed) gone
  have last := wp_mono directory (fun _ => finish) fun _ _ => id
  simp only [wp_bind, wp_get] at last
  exact last

end Fos.Kernel
