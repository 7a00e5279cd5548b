import Fos.Kernel.Recording
import Fos.Kernel.Bringing
import Fos.Kernel.Segments
import Fos.Kernel.TeardownProperties
import Fos.Kernel.LoadingDemand

/-! Loading a program: what `env_create` makes of the working set, the page table and the
page file of the new environment. -/

set_option autoImplicit false

namespace Fos.Kernel

open Foundation

variable {layout : BootLayout} {ram : Nat → Page} {slot address limit : Nat} {pages : List Nat}
  {places : Finset Place} {filed : Finset Nat} {start state next : KernelState}

/-- Panics leave a state of which `stopped` holds; nothing undefined happens but in the `wild`
case. -/
def onStop (wild : Prop) (stopped : KernelState → Prop) : Stop → KernelState → Prop
  | .panic _, state => stopped state
  | .undefined _, _ => wild

theorem onPanic.onStop {wild : Prop} {strong weak : KernelState → Prop}
    (implied : ∀ state, strong state → weak state) {stop : Stop}
    (holds : onPanic strong stop state) : onStop wild weak stop state := by
  cases stop with
  | panic message => exact implied state holds
  | undefined access => exact holds.elim

theorem onStop.mono {wild wilder : Prop} {strong weak : KernelState → Prop} (wildly : wild → wilder)
    (implied : ∀ state, strong state → weak state) {stop : Stop}
    (holds : Kernel.onStop wild strong stop state) : Kernel.onStop wilder weak stop state := by
  cases stop with
  | panic message => exact implied state holds
  | undefined access => exact wildly holds

/-- The records differ in the working set and the disk page directory only. -/
def Env.Same (base env : Env) : Prop :=
  env = { base with
    diskEnvPgdir := env.diskEnvPgdir
    diskEnvPgdirPA := env.diskEnvPgdirPA
    ptrPageWorkingSet := env.ptrPageWorkingSet
    pageLastWSIndex := env.pageLastWSIndex
    tableLastWSIndex := env.tableLastWSIndex
    pageWorkingSetList := env.pageWorkingSetList
    activeList := env.activeList
    secondList := env.secondList }

theorem Env.Same.refl (env : Env) : env.Same env := rfl

theorem Env.Same.trans {base env last : Env} (first : base.Same env) (second : env.Same last) :
    base.Same last := by
  rw [Env.Same] at *
  rw [second, first]

theorem Env.Same.record (env : Env) (address limit : Nat) : env.Same (env.record address limit) := rfl

theorem EnvKept.same (kept : EnvKept slot state next) : (state.envs slot).Same (next.envs slot) := by
  rw [EnvKept] at kept
  rw [Env.Same, kept]

/-- The kernel stopped while it was loading. -/
structure Stalled (layout : BootLayout) (ram : Nat → Page) (slot : Nat) (start state : KernelState) :
    Prop where
  inv : Inv layout ram state
  acts : Acts slot [] start [] state

/-- A program is being loaded: `pages` are in the working set, in the order of loading. -/
structure Loading (layout : BootLayout) (ram : Nat → Page) (slot : Nat) (start state : KernelState)
    (pages : List Nat) (limit : Nat) : Prop extends Stalled layout ram slot start state where
  keeps : pages.Nodup → Keeps slot [] start [] state
  live : state.root .user slot ≠ 0
  active : state.cr3 = toPhysicalAddress (state.root .user slot)
  same : (start.envs slot).Same (state.envs slot)
  recorded : (state.envs slot).Recorded pages
  front : 0 < (start.envs slot).activeListSize →
    (state.envs slot).activeList.length = min pages.length limit
  users : ∀ address ∈ pages, Env.UserPage address
  accessible : ∀ address ∈ pages, Accessible (state.leaf .user slot (pageOf address))
  listed : ∀ page, state.leaf .user slot page ≠ 0 → page * pageSize ∈ pages

namespace Env.Same

variable {base env : Env}

theorem pageWSMaxSize (same : base.Same env) : env.pageWSMaxSize = base.pageWSMaxSize := by
  rw [same]

theorem activeListSize (same : base.Same env) : env.activeListSize = base.activeListSize := by
  rw [same]

end Env.Same

theorem Env.Recorded.congr {env other : Env} (recorded : env.Recorded pages)
    (size : other.pageWSMaxSize = env.pageWSMaxSize)
    (index : other.pageLastWSIndex = env.pageLastWSIndex)
    (elements : other.ptrPageWorkingSet = env.ptrPageWorkingSet)
    (unused : other.pageWorkingSetList = env.pageWorkingSetList)
    (active : other.activeList = env.activeList) (second : other.secondList = env.secondList) :
    other.Recorded pages where
  fits := size ▸ recorded.fits
  size := size ▸ recorded.size
  index := by rw [index, size, recorded.index]
  unused := by rw [unused, size, recorded.unused]
  elements := by
    rw [size, elements]
    exact recorded.elements
  lists := by
    rw [active, second]
    exact recorded.lists

namespace Loading

theorem leaf_eq_zero (loading : Loading layout ram slot start state pages limit) {page : Nat}
    (unlisted : page * pageSize ∉ pages) : state.leaf .user slot page = 0 := by
  by_contra mapped
  exact unlisted (loading.listed page mapped)

/-- A step that leaves the record and what is mapped. -/
theorem step (loading : Loading layout ram slot start state pages limit) {space : Space}
    (becomes : SpaceBecomes layout ram slot [] state [] next space) (keeps : Keeps slot [] state [] next)
    (stable : Stable slot state next)
    (accessible : ∀ address ∈ pages, Accessible (space.entry (pageOf address)))
    (listed : ∀ page, space.entry page ≠ 0 → state.leaf .user slot page ≠ 0) :
    Loading layout ram slot start next pages limit where
  inv := becomes.inv
  acts := loading.acts.trans becomes.acts
  keeps distinct := (loading.keeps distinct).trans keeps
  live := stable.root_user ▸ loading.live
  active := by
    rw [stable.root_user]
    exact becomes.acts.quiet.cr3.trans loading.active
  same := loading.same.trans stable.kept.same
  recorded := by
    rw [stable.kept]
    exact loading.recorded.congr rfl rfl rfl rfl rfl rfl
  front positive := by
    rw [stable.kept]
    exact loading.front positive
  users := loading.users
  accessible address member := by
    rw [becomes.entry]
    exact accessible address member
  listed page mapped := by
    rw [becomes.entry] at mapped
    exact loading.listed page (listed page mapped)

/-- A page is mapped and recorded. -/
theorem extend (loading : Loading layout ram slot start state pages limit) {entry newLimit : Nat}
    {content : Page}
    (becomes : SpaceBecomes layout ram slot [] state [] next
      ((state.space slot).map (pageOf address) entry content))
    (keeps : state.leaf .user slot (pageOf address) = 0 → Keeps slot [] state [] next)
    (stable : Stable slot state next) (user : Env.UserPage address) (accessible : Accessible entry)
    (room : pages.length < (state.envs slot).pageWSMaxSize)
    (front : 0 < (start.envs slot).activeListSize →
      (if (state.envs slot).activeList.length < newLimit then (state.envs slot).activeList.length + 1
        else (state.envs slot).activeList.length) = min (pages.length + 1) newLimit) :
    Loading layout ram slot start (next.setEnv slot ((next.envs slot).record address newLimit))
      (pages ++ [address]) newLimit := by
  obtain ⟨becomesEnv, keepsEnv, -⟩ := @Inv.setEnv layout ram slot _ becomes.inv []
    ((next.envs slot).record address newLimit) rfl rfl rfl rfl
  have recorded : (next.envs slot).Recorded pages := by
    rw [stable.kept]
    exact loading.recorded.congr rfl rfl rfl rfl rfl rfl
  have size : (next.envs slot).pageWSMaxSize = (state.envs slot).pageWSMaxSize :=
    stable.kept.same.pageWSMaxSize
  have root : (next.setEnv slot ((next.envs slot).record address newLimit)).root .user slot =
      state.root .user slot := by
    rw [← stable.root_user, KernelState.root, KernelState.setEnv_self]
    rfl
  have leaf : (next.setEnv slot ((next.envs slot).record address newLimit)).leaf .user slot =
      Function.update (state.leaf .user slot) (pageOf address) entry := by
    have entries := congrArg Space.entry (becomesEnv.space.trans becomes.space)
    exact entries
  have acts := becomes.acts.trans becomesEnv.acts
  refine ⟨⟨becomesEnv.inv, loading.acts.trans acts⟩, fun distinct => ?_, root ▸ loading.live, ?_, ?_, ?_,
    fun positive => ?_, fun other member => ?_, fun other member => ?_, fun page mapped => ?_⟩
  · have apart : address ∉ pages := by
      rw [List.nodup_append] at distinct
      exact fun member => distinct.2.2 address member address (List.mem_singleton_self _) rfl
    have unmapped : state.leaf .user slot (pageOf address) = 0 :=
      loading.leaf_eq_zero (by rwa [pageOf_mul_pageSize user])
    exact (loading.keeps (List.nodup_append.1 distinct).1).trans ((keeps unmapped).trans keepsEnv)
  · rw [root]
    exact acts.quiet.cr3.trans loading.active
  · rw [KernelState.setEnv_self]
    exact loading.same.trans (stable.kept.same.trans (Env.Same.record _ _ _))
  · rw [KernelState.setEnv_self]
    exact recorded.record (size ▸ room) address newLimit
  · rw [KernelState.setEnv_self, List.length_append, List.length_singleton, ← front positive]
    have active : (next.envs slot).activeList = (state.envs slot).activeList := by rw [stable.kept]
    simp only [Env.record, active]
    split <;> simp
  · rcases List.mem_append.1 member with old | new
    · exact loading.users other old
    · exact List.mem_singleton.1 new ▸ user
  · rw [leaf]
    by_cases here : pageOf other = pageOf address
    · rw [here, Function.update_self]
      exact accessible
    · rw [Function.update_of_ne here]
      refine loading.accessible other ((List.mem_append.1 member).resolve_right fun new => ?_)
      exact here (congrArg pageOf (List.mem_singleton.1 new))
  · rw [leaf] at mapped
    by_cases here : page = pageOf address
    · rw [here, pageOf_mul_pageSize user]
      exact List.mem_append_right _ (List.mem_singleton_self _)
    · rw [Function.update_of_ne here] at mapped
      exact List.mem_append_left _ (loading.listed page mapped)

/-- The table working set is not modelled further than its index. -/
theorem withTable (loading : Loading layout ram slot start state pages limit) (index : Nat) :
    Loading layout ram slot start (state.setEnv slot { state.envs slot with tableLastWSIndex := index })
      pages limit := by
  obtain ⟨becomes, keeps, -⟩ := @Inv.setEnv layout ram slot _ loading.inv []
    { state.envs slot with tableLastWSIndex := index } rfl rfl rfl rfl
  have root : (state.setEnv slot { state.envs slot with tableLastWSIndex := index }).root .user slot =
      state.root .user slot := by
    rw [KernelState.root, KernelState.setEnv_self]
    rfl
  have leaf : (state.setEnv slot { state.envs slot with tableLastWSIndex := index }).leaf .user slot =
      state.leaf .user slot := congrArg Space.entry becomes.space
  refine ⟨⟨becomes.inv, loading.acts.trans becomes.acts⟩, fun distinct => (loading.keeps distinct).trans keeps,
    root ▸ loading.live, ?_, ?_, ?_, fun positive => ?_, loading.users, fun other member => ?_,
    fun page mapped => ?_⟩
  · rw [root]
    exact loading.active
  · rw [KernelState.setEnv_self]
    exact loading.same.trans rfl
  · rw [KernelState.setEnv_self]
    exact loading.recorded.congr rfl rfl rfl rfl rfl rfl
  · rw [KernelState.setEnv_self]
    exact loading.front positive
  · rw [leaf]
    exact loading.accessible other member
  · rw [leaf] at mapped
    exact loading.listed page mapped

end Loading

/-! ### Mapping -/

/-- The addresses of consecutive pages. -/
def pageAddresses (first count : Nat) : List Nat := (List.range' first count).map (· * pageSize)

theorem pageAddresses_succ (first count : Nat) :
    pageAddresses first (count + 1) = first * pageSize :: pageAddresses (first + 1) count := by
  simp only [pageAddresses, List.range'_succ, List.map_cons]

theorem length_pageAddresses (first count : Nat) : (pageAddresses first count).length = count := by
  simp only [pageAddresses, List.length_map, List.length_range']

/-- Only mapped pages of a range may differ. -/
structure Space.SameOutside (first count : Nat) (before after : Space) : Prop where
  entry : ∀ page, ¬ (first ≤ page ∧ page < first + count) → after.entry page = before.entry page
  content : ∀ page, ¬ (first ≤ page ∧ page < first + count) → after.content page = before.content page
  diskFrame : after.diskFrame = before.diskFrame
  stored : after.stored = before.stored

namespace Space.SameOutside

variable {first count : Nat} {before middle after : Space}

theorem refl (first count : Nat) (space : Space) : Space.SameOutside first count space space :=
  ⟨fun _ _ => rfl, fun _ _ => rfl, rfl, rfl⟩

theorem succ (head : Space.SameOutside first 1 before middle)
    (tail : Space.SameOutside (first + 1) count middle after) :
    Space.SameOutside first (count + 1) before after where
  entry page outside := by
    rw [tail.entry page (by omega), head.entry page (by omega)]
  content page outside := by
    rw [tail.content page (by omega), head.content page (by omega)]
  diskFrame := tail.diskFrame.trans head.diskFrame
  stored := tail.stored.trans head.stored

theorem map (space : Space) (page entry : Nat) (content : Page) :
    Space.SameOutside page 1 space (space.map page entry content) where
  entry other outside := Function.update_of_ne (by omega) _ _
  content other outside := Function.update_of_ne (by omega) _ _
  diskFrame := rfl
  stored := rfl

end Space.SameOutside

theorem userPage_of_lt {page : Nat} (low : page < userPages) : Env.UserPage (page * pageSize) := by
  rw [userPages_eq] at low
  simp only [Env.UserPage, pageSize, userTop, uenvs]
  omega

/-- The element at the end of the free list goes to the page, if there is an element at all. -/
theorem Loading.recordLoadedPage_spec (loading : Loading layout ram slot start state pages limit)
    {entry : Nat} {content : Page}
    (becomes : SpaceBecomes layout ram slot [] state [] next
      ((state.space slot).map (pageOf address) entry content))
    (keeps : state.leaf .user slot (pageOf address) = 0 → Keeps slot [] state [] next)
    (stable : Stable slot state next) (user : Env.UserPage address) (accessible : Accessible entry)
    (room : pages.length < (start.envs slot).pageWSMaxSize ∨ (start.envs slot).pageWSMaxSize = 0)
    {newLimit : Nat}
    (front : 0 < (start.envs slot).activeListSize →
      (if (state.envs slot).activeList.length < newLimit then (state.envs slot).activeList.length + 1
        else (state.envs slot).activeList.length) = min (pages.length + 1) newLimit)
    {stopped : KernelState → Prop} :
    wp (recordLoadedPage slot address newLimit) (fun _ last =>
      Loading layout ram slot start last (pages ++ [address]) newLimit ∧
        last.space slot = (state.space slot).map (pageOf address) entry content ∧
        last = next.setEnv slot ((next.envs slot).record address newLimit))
      (onStop ((start.envs slot).pageWSMaxSize = 0) stopped) next := by
  have size : (next.envs slot).pageWSMaxSize = (start.envs slot).pageWSMaxSize :=
    stable.kept.same.pageWSMaxSize.trans loading.same.pageWSMaxSize
  have recorded : (next.envs slot).Recorded pages := by
    rw [stable.kept]
    exact loading.recorded.congr rfl rfl rfl rfl rfl rfl
  rcases room with room | none
  · rw [wp_recordLoadedPage recorded (by rwa [size])]
    obtain ⟨becomesEnv, -, -⟩ := @Inv.setEnv layout ram slot _ becomes.inv []
      ((next.envs slot).record address newLimit) rfl rfl rfl rfl
    have sameSize := loading.same.pageWSMaxSize
    exact ⟨loading.extend becomes keeps stable user accessible (by rwa [sameSize]) front,
      becomesEnv.space.trans becomes.space, rfl⟩
  · -- without elements `page_last_WS_index` is that of an element that is in no list
    have unused : (next.envs slot).pageWorkingSetList = [] := by
      rw [recorded.unused, size, none]
      simp
    unfold recordLoadedPage
    rw [wp_bind, wp_get]
    by_cases inArray : pwsMaxSize ≤ (next.envs slot).pageLastWSIndex
    · rw [if_pos inArray]
      exact none
    · rw [if_neg inArray, unused, if_pos List.not_mem_nil]
      exact none

/-- The index moves on, unless the table working set is full. -/
theorem addTableToTableWorkingSet_spec (loading : Loading layout ram slot start state pages limit)
    {wild : Prop} :
    wp (addTableToTableWorkingSet slot) (fun _ next =>
      Loading layout ram slot start next pages limit ∧ next.space slot = state.space slot ∧
        (((state.envs slot).tableLastWSIndex + 1) % twsMaxSize ≠ 0 ∧ next = state.setEnv slot { state.envs slot with
          tableLastWSIndex := ((state.envs slot).tableLastWSIndex + 1) % twsMaxSize }))
      (onStop wild fun next => Stalled layout ram slot start next ∧
        ((state.envs slot).tableLastWSIndex + 1) % twsMaxSize = 0) state := by
  have after := loading.withTable (((state.envs slot).tableLastWSIndex + 1) % twsMaxSize)
  have becomes := (@Inv.setEnv layout ram slot _ loading.inv [] { state.envs slot with
    tableLastWSIndex := ((state.envs slot).tableLastWSIndex + 1) % twsMaxSize } rfl rfl rfl rfl).1
  unfold addTableToTableWorkingSet
  rw [wp_bind, wp_modifyEnv, wp_bind, wp_get, wp_ite, KernelState.setEnv_self]
  exact ⟨fun full => ⟨after.toStalled, full⟩, fun room => ⟨after, becomes.space, room, rfl⟩⟩

/-- The kernel stopped because something was missing for the pages. -/
def Lost (layout : BootLayout) (ram : Nat → Page) (slot : Nat) (start : KernelState) (places : Finset Place)
    (filed : Finset Nat) (lastTableNumber : Nat) (loaded : List Nat) (state next : KernelState) : Prop :=
  Stalled layout ram slot start next ∧ Lacks slot places filed lastTableNumber loaded state

/-- What is lost later was missing from the start. -/
theorem Loads.lost {lastTableNumber : Nat} {loaded later : List Nat} {last : KernelState} {wild : Prop}
    (loads : Loads slot places filed lastTableNumber loaded state next) (stop : Stop)
    (stopped : onStop wild (Lost layout ram slot start places filed (lastTable lastTableNumber loaded) later next)
      stop last) :
    onStop wild (Lost layout ram slot start places filed lastTableNumber (loaded ++ later) state) stop last := by
  apply stopped.mono id
  rintro final ⟨stalled, lacks⟩
  exact ⟨stalled, loads.lacks lacks⟩

/-- One page of a segment is mapped and takes an element of the working set. -/
theorem Loading.wp_mapSegmentPages_succ (valid : layout.Valid)
    (loading : Loading layout ram slot start state pages limit)
    (isLimit : limit = toUInt32 ((start.envs slot).activeListSize - 1)) {page count : Nat} (low : page < userPages)
    (room : pages.length < (start.envs slot).pageWSMaxSize ∨ (start.envs slot).pageWSMaxSize = 0)
    (unmapped : state.leaf .user slot page = 0) (covers : pagePlaces slot page ⊆ places)
    (lastTableNumber : Nat) {post : Nat → KernelState → Prop} {fail : Stop → KernelState → Prop}
    (continues : ∀ next, Loading layout ram slot start next (pages ++ [page * pageSize]) limit →
      Space.SameOutside page 1 (state.space slot) (next.space slot) →
      Loads slot places filed lastTableNumber [page] state next →
      wp (mapSegmentPages slot ((page + 1) * pageSize) count (page / 1024)) post fail next)
    (stops : ∀ stop next, onStop ((start.envs slot).pageWSMaxSize = 0)
      (Lost layout ram slot start places filed lastTableNumber [page] state) stop next → fail stop next) :
    wp (mapSegmentPages slot (page * pageSize) (count + 1) lastTableNumber) post fail state := by
  have user : Env.UserPage (page * pageSize) := userPage_of_lt low
  have number : pageOf (page * pageSize) = page := pageOf_mul page
  have table : pdx (page * pageSize) = page / 1024 := by
    rw [pdx_user user.2, number]
  rw [mapSegmentPages, wp_bind]
  simp only [wp_bind, wp_get, root_eq]
  apply wp_allocate_loadtimeMapFrame valid loading.inv loading.live user.2 (by decide)
  · intro frame mapped supplied
    rw [number] at supplied
    have stable := supplied.calm.toStable
    have accessible : Accessible (pageEntry frame (permUser ||| permWriteable)) := by
      refine ⟨?_, ?_, ?_⟩ <;> rw [testBit_pageEntry _ _ (by decide)] <;> decide
    have sizes : (mapped.envs slot).activeListSize = (start.envs slot).activeListSize := by
      rw [stable.kept.same.activeListSize, loading.same.activeListSize]
    have index : (mapped.envs slot).tableLastWSIndex = (state.envs slot).tableLastWSIndex := by
      rw [stable.kept]
    rw [sizes, ← isLimit]
    refine wp_mono (loading.recordLoadedPage_spec (number.symm ▸ supplied.becomes) (number.symm ▸ supplied.keeps) stable user
      accessible room fun positive => ?_) (fun _ recorded loaded => ?_) fun stop next => stops stop next
    · rw [loading.front positive]
      split <;> omega
    obtain ⟨loadedPage, space, same⟩ := loaded
    have head : Space.SameOutside page 1 (state.space slot) (recorded.space slot) := by
      rw [space, number]
      exact .map _ _ _ _
    have spends : Spends slot places filed state recorded := by
      have mapping : Spends slot places filed state mapped :=
        (supplied.uses unmapped).spends covers (Finset.empty_subset _)
      exact mapping.trans (.of_setEnv same rfl rfl)
    have indexRecorded : (recorded.envs slot).tableLastWSIndex = (state.envs slot).tableLastWSIndex := by
      rw [same, KernelState.setEnv_self, ← index]
      rfl
    rw [wp_ite, table]
    constructor
    · intro another
      have change : tableChanges lastTableNumber [page] = 1 := if_neg another
      rw [wp_bind]
      refine wp_mono (addTableToTableWorkingSet_spec loadedPage) (fun _ last added => ?_)
        fun stop next stopped => stops stop next (stopped.mono id ?_)
      · obtain ⟨loadedLast, spaceLast, some, sameLast⟩ := added
        rw [← Nat.succ_mul]
        apply continues last loadedLast (spaceLast ▸ head)
        rw [indexRecorded] at some sameLast
        refine ⟨spends.trans (.of_setEnv sameLast rfl rfl), fun few => ?_⟩
        rw [sameLast, KernelState.setEnv_self, change]
        simp only [twsMaxSize] at few some ⊢
        omega
      · rintro last ⟨stalled, full⟩
        refine ⟨stalled, .inr fun few => ?_⟩
        rw [indexRecorded] at full
        rw [change]
        simp only [twsMaxSize] at few full ⊢
        omega
    · intro again
      have change : tableChanges lastTableNumber [page] = 0 := if_pos (not_not.1 again)
      rw [← Nat.succ_mul]
      refine continues recorded loadedPage head ⟨spends, fun few => ?_⟩
      rw [indexRecorded, change]
      exact ⟨few, rfl⟩
  · intro stop next stopped
    apply stops
    apply onPanic.onStop _ stopped
    rintro last ⟨inv, acts, scarce⟩
    rw [number] at scarce
    exact ⟨⟨inv, loading.acts.trans acts⟩, .inl ((scarce unmapped).mono covers (Finset.empty_subset _))⟩

/-- While elements are left, each page takes one. -/
theorem mapSegmentPages_spec (valid : layout.Valid)
    (loading : Loading layout ram slot start state pages limit)
    (isLimit : limit = toUInt32 ((start.envs slot).activeListSize - 1)) {first count : Nat}
    (low : first + count ≤ userPages)
    (room : pages.length + count ≤ (start.envs slot).pageWSMaxSize ∨
      (start.envs slot).pageWSMaxSize = 0)
    (unmapped : ∀ page ∈ List.range' first count, state.leaf .user slot page = 0)
    (covers : ∀ page ∈ List.range' first count, pagePlaces slot page ⊆ places) (lastTableNumber : Nat) :
    wp (mapSegmentPages slot (first * pageSize) count lastTableNumber) (fun number next =>
      number = lastTable lastTableNumber (List.range' first count) ∧
        Loads slot places filed lastTableNumber (List.range' first count) state next ∧
        Loading layout ram slot start next (pages ++ pageAddresses first count) limit ∧
        Space.SameOutside first count (state.space slot) (next.space slot))
      (onStop ((start.envs slot).pageWSMaxSize = 0)
        (Lost layout ram slot start places filed lastTableNumber (List.range' first count) state)) state := by
  induction count generalizing state pages first lastTableNumber with
  | zero =>
      rw [mapSegmentPages, wp_pure, pageAddresses, List.range'_zero, List.map_nil, List.append_nil]
      exact ⟨rfl, .refl slot places filed lastTableNumber state, loading, .refl first 0 _⟩
  | succ count ih =>
      rw [List.range'_succ] at unmapped covers ⊢
      obtain ⟨unmappedFirst, unmappedRest⟩ := List.forall_mem_cons.1 unmapped
      obtain ⟨coversFirst, coversRest⟩ := List.forall_mem_cons.1 covers
      apply loading.wp_mapSegmentPages_succ valid isLimit (by omega) (room.imp_left fun room => by omega)
        unmappedFirst coversFirst
      · intro last loadedLast head loads
        have unmappedLast : ∀ page ∈ List.range' (first + 1) count, last.leaf .user slot page = 0 := by
          intro page member
          have after := (List.mem_range'_1.1 member).1
          exact (head.entry page (by omega)).trans (unmappedRest page member)
        refine wp_mono (ih loadedLast (by omega) (room.imp_left fun room => ?_) unmappedLast coversRest _)
          (fun number next holds => ?_) fun stop next => loads.lost stop
        · rw [List.length_append, List.length_singleton]
          omega
        · obtain ⟨isNumber, loadsRest, loadedNext, tail⟩ := holds
          rw [pageAddresses_succ, List.append_cons]
          exact ⟨isNumber, loads.trans loadsRest, loadedNext, head.succ tail⟩
      · intro stop next stopped
        apply stopped.mono id
        rintro last ⟨stalled, lacks⟩
        exact ⟨stalled, lacks.append (List.range' (first + 1) count)⟩

/-! ### Copying -/

theorem accessible_or {entry : Nat} (accessible : Accessible entry) (set : Nat) :
    Accessible (entry ||| set) := by
  obtain ⟨present, writeable, user⟩ := accessible
  simp only [Accessible, Owned, Nat.testBit_or, present, writeable, user, Bool.true_or, and_self]

theorem segmentByte_of_le {program : UserProgram} {segment : ProgramSegment}
    (inside : segment.virtualAddress ≤ address) (old new : Nat) :
    segmentByte program segment old address = segmentByte program segment new address := by
  simp only [segmentByte, if_neg (not_lt.2 inside)]

theorem copied_ofBytes (program : UserProgram) (segment : ProgramSegment) (page : Nat) (old : Page) :
    Copied program segment page (Page.ofBytes fun offset =>
      segmentByte program segment (old.byte offset) (page * pageSize + offset)).words := by
  intro offset inPage inside
  rw [Page.byte_words _ inPage, Page.byte_ofBytes, segmentByte_of_le inside _ 0]

/-- The mapped pages of the range get the bytes of the segment. -/
theorem copySegmentPages_spec (loading : Loading layout ram slot start state pages limit)
    (program : UserProgram) (segment : ProgramSegment) {first count : Nat}
    (low : first + count ≤ userPages) (mapped : pageAddresses first count ⊆ pages)
    (places : Finset Place) (filed : Finset Nat) (lastTableNumber : Nat) {fail : Stop → KernelState → Prop} :
    wp (copySegmentPages program segment (first * pageSize) count) (fun _ next =>
      Loading layout ram slot start next pages limit ∧ Loads slot places filed lastTableNumber [] state next ∧
        Space.SameOutside first count (state.space slot) (next.space slot) ∧
        ∀ page, first ≤ page ∧ page < first + count →
          Copied program segment page ((next.space slot).content page)) fail state := by
  induction count generalizing state first with
  | zero =>
      rw [copySegmentPages, wp_pure]
      exact ⟨loading, .refl slot places filed lastTableNumber state, .refl first 0 _,
        fun page inside => absurd inside (by omega)⟩
  | succ count ih =>
      have page : pageOf (first * pageSize) = first := pageOf_mul first
      have user : Env.UserPage (first * pageSize) := userPage_of_lt (by omega)
      rw [pageAddresses_succ] at mapped
      obtain ⟨member, rest⟩ := List.cons_subset.1 mapped
      have accessible := loading.accessible _ member
      rw [copySegmentPages, wp_bind]
      refine wp_mono (modifyMappedPage_spec loading.inv loading.active user.2
        (by rw [hasPerm_present]; exact accessible.1) _) (fun _ written holds => ?_) fun _ _ => id
      obtain ⟨becomes, keeps, calm, free⟩ := holds
      rw [page] at becomes accessible
      have entry (other : Nat) (different : other ≠ first) : Function.update (state.leaf .user slot) first
          (state.leaf .user slot first ||| permModified) other = state.leaf .user slot other :=
        Function.update_of_ne different _ _
      have loadingNext : Loading layout ram slot start written pages limit := by
        refine loading.step becomes keeps calm.toStable (fun other inPages => ?_) fun other some => ?_
        · change Accessible (Function.update (state.leaf .user slot) first _ (pageOf other))
          by_cases here : pageOf other = first
          · rw [here, Function.update_self]
            exact accessible_or accessible _
          · rw [entry _ here]
            exact loading.accessible other inPages
        · change Function.update (state.leaf .user slot) first _ other ≠ 0 at some
          by_cases here : other = first
          · exact here ▸ accessible.2.ne_zero
          · rwa [entry _ here] at some
      have head : Space.SameOutside first 1 (state.space slot) (written.space slot) := by
        rw [becomes.space]
        exact ⟨fun other outside => entry other (by omega),
          fun other outside => Function.update_of_ne (by omega) _ _, rfl, rfl⟩
      have content : Copied program segment first ((written.space slot).content first) := by
        rw [becomes.space]
        simp only [Space.setContent, Function.update_self]
        exact copied_ofBytes program segment first _
      have uses : Uses slot ∅ ∅ state written := by
        apply Uses.of_stable calm.toStable becomes.acts loading.inv.toLedger _ _ (congrArg List.length free).ge
          (congrArg List.length calm.diskFree).ge
        · intro other some
          have member := loading.listed other some
          have stays := (loadingNext.accessible _ member).2.ne_zero
          rwa [pageOf_mul] at stays
        · intro other
          rw [becomes.diskFrame]
          exact id
      rw [← Nat.succ_mul]
      refine wp_mono (ih loadingNext (by omega) rest) (fun _ next holds => ?_) fun _ _ => id
      obtain ⟨loadingLast, loadsRest, tail, copied⟩ := holds
      have loads : Loads slot places filed lastTableNumber [] state written :=
        .idle uses.spends_empty (by rw [calm.kept])
      refine ⟨loadingLast, loads.trans_idle loadsRest, head.succ tail, fun other inside => ?_⟩
      by_cases here : other = first
      · rw [here, tail.content first (by omega)]
        exact content
      · exact copied other (by omega)

namespace ProgramSegment

variable {segment : ProgramSegment}

theorem roundDown_start : roundDown segment.virtualAddress = segment.firstPage * pageSize :=
  roundDown_eq _

theorem endPage_le (sound : segment.Sound) : segment.endPage ≤ userPages := by
  have below := sound.below
  rw [userPages_eq]
  simp only [endPage, pageUp, pageSize, userTop, uenvs] at below ⊢
  omega

theorem roundUp_end (sound : segment.Sound) :
    roundUp ((segment.virtualAddress + segment.sizeInMemory) % wordSize) = segment.endPage * pageSize := by
  have below := sound.below
  rw [Nat.mod_eq_of_lt (below.trans_lt (by decide)), roundUp_eq below, endPage]

/-- The pages of a segment are counted as the loader counts them. -/
theorem pages_eq (sound : segment.Sound) :
    (roundUp ((segment.virtualAddress + segment.sizeInMemory) % wordSize) -
      roundDown segment.virtualAddress) / pageSize = segment.endPage - segment.firstPage := by
  rw [roundUp_end sound, roundDown_start, ← Nat.sub_mul, Nat.mul_div_cancel _ (by decide)]

end ProgramSegment

/-- The segment's first pages are mapped and have its bytes. -/
theorem programSegmentAllocMapCopyWorkingset_spec (valid : layout.Valid)
    (loading : Loading layout ram slot start state pages limit)
    (isLimit : limit = toUInt32 ((start.envs slot).activeListSize - 1)) (program : UserProgram)
    (named : (start.envs slot).progName = program.name)
    {segment : ProgramSegment} (sound : segment.Sound) {remainingWSPages : Nat}
    (room : pages.length + remainingWSPages ≤ (start.envs slot).pageWSMaxSize ∨
      (start.envs slot).pageWSMaxSize = 0) {allocated : Nat}
    (isAllocated : allocated = segment.allocatedPages program.name remainingWSPages)
    (unmapped : ∀ page, segment.Touches page → state.leaf .user slot page = 0)
    (covers : ∀ page ∈ List.range' segment.firstPage allocated, pagePlaces slot page ⊆ places)
    (lastTableNumber : Nat) :
    wp (programSegmentAllocMapCopyWorkingset slot program segment remainingWSPages lastTableNumber)
      (fun result next =>
        result = (allocated, lastTable lastTableNumber (List.range' segment.firstPage allocated)) ∧
        Loads slot places filed lastTableNumber (List.range' segment.firstPage allocated) state next ∧
        allocated ≤ remainingWSPages ∧
        segment.firstPage + allocated ≤ max segment.firstPage segment.endPage ∧
        Loading layout ram slot start next (pages ++ pageAddresses segment.firstPage allocated) limit ∧
        Space.SameOutside segment.firstPage allocated (state.space slot) (next.space slot) ∧
        ∀ page, segment.firstPage ≤ page ∧ page < segment.firstPage + allocated →
          Copied program segment page ((next.space slot).content page))
      (onStop ((start.envs slot).pageWSMaxSize = 0) (Lost layout ram slot start places filed lastTableNumber
        (List.range' segment.firstPage allocated) state)) state := by
  have name : (state.envs slot).progName = program.name := by
    rw [loading.same, ← named]
  unfold programSegmentAllocMapCopyWorkingset
  simp only [wp_bind, wp_get, ProgramSegment.pages_eq sound]
  simp only [ProgramSegment.roundDown_start, name]
  have counted : min (segment.endPage - segment.firstPage)
      (if segment.firstPage * pageSize = 0x200000 ∧ program.name ≠ "tpp" then min remainingWSPages 6
        else remainingWSPages) = allocated := isAllocated.symm
  have few : allocated ≤ remainingWSPages := by
    rw [← counted]
    split
    · exact (min_le_right _ _).trans (min_le_left _ _)
    · exact min_le_right _ _
  have inside : allocated ≤ segment.endPage - segment.firstPage := by
    rw [← counted]
    exact min_le_left _ _
  have bound := ProgramSegment.endPage_le sound
  rw [counted]
  cases Nat.eq_zero_or_pos allocated with
  | inl none =>
      rw [none]
      simp only [mapSegmentPages, copySegmentPages, wp_pure, Nat.add_zero, zero_le, le_max_left,
        pageAddresses, List.range'_zero, List.map_nil, List.append_nil, true_and]
      exact ⟨rfl, .refl _ _ _ _ _, loading, .refl _ 0 _, fun page inside => absurd inside (by omega)⟩
  | inr some =>
      have unmappedHere : ∀ page ∈ List.range' segment.firstPage allocated, state.leaf .user slot page = 0 := by
        intro page member
        have range := List.mem_range'_1.1 member
        exact unmapped page ⟨range.1, by omega⟩
      refine wp_mono (mapSegmentPages_spec valid loading isLimit (by omega)
        (room.imp_left fun room => by omega) unmappedHere covers _) (fun table mapped holds => ?_) fun _ _ => id
      obtain ⟨rfl, loads, loadingMapped, outside⟩ := holds
      refine wp_mono (copySegmentPages_spec loadingMapped program segment (by omega)
        (List.subset_append_right _ _) places filed (lastTable lastTableNumber (List.range' segment.firstPage allocated)))
        (fun _ next holds => ?_) fun _ _ => id
      obtain ⟨loadingNext, loadsNext, outsideNext, copied⟩ := holds
      refine ⟨rfl, loads.trans_idle loadsNext, few, by omega, loadingNext,
        ⟨fun page apart => ?_, fun page apart => ?_, ?_, ?_⟩, copied⟩
      · rw [outsideNext.entry page apart, outside.entry page apart]
      · rw [outsideNext.content page apart, outside.content page apart]
      · exact outsideNext.diskFrame.trans outside.diskFrame
      · exact outsideNext.stored.trans outside.stored

/-! ### The page file -/

/-- The page file has what was written, and otherwise what it had. -/
structure Space.Stores (writes : List (Nat × Page)) (before after : Space) : Prop where
  written : ∀ page content, lastWrite writes page = some content →
    after.diskFrame page ≠ 0 ∧ after.stored page = content.words
  others : ∀ page, lastWrite writes page = none →
    after.diskFrame page = before.diskFrame page ∧ after.stored page = before.stored page

namespace Space.Stores

variable {first second : List (Nat × Page)} {before middle after : Space}

theorem nil (same : after.diskFrame = before.diskFrame) (stored : after.stored = before.stored) :
    Space.Stores [] before after :=
  ⟨fun page content found => (by cases found), fun page _ => ⟨congrFun same page, congrFun stored page⟩⟩

theorem append (head : Space.Stores first before middle) (tail : Space.Stores second middle after) :
    Space.Stores (first ++ second) before after where
  written page content found := by
    rw [lastWrite_append] at found
    cases last : lastWrite second page with
    | none =>
        rw [last, Option.none_or] at found
        obtain ⟨diskFrame, stored⟩ := tail.others page last
        rw [diskFrame, stored]
        exact head.written page content found
    | some latest =>
        rw [last, Option.some_or] at found
        cases found
        exact tail.written page content last
  others page missing := by
    rw [lastWrite_append, Option.or_eq_none_iff] at missing
    obtain ⟨diskFrame, stored⟩ := tail.others page missing.1
    rw [diskFrame, stored]
    exact head.others page missing.2

end Space.Stores

/-- Only the page file changes, as written. -/
structure Space.Filed (writes : List (Nat × Page)) (before after : Space) : Prop
    extends Space.Stores writes before after where
  entry : after.entry = before.entry
  content : after.content = before.content

namespace Space.Filed

variable {first second : List (Nat × Page)} {before middle after : Space}

theorem nil (space : Space) : Space.Filed [] space space :=
  ⟨.nil rfl rfl, rfl, rfl⟩

theorem append (head : Space.Filed first before middle) (tail : Space.Filed second middle after) :
    Space.Filed (first ++ second) before after :=
  ⟨head.toStores.append tail.toStores, tail.entry.trans head.entry, tail.content.trans head.content⟩

theorem place (space : Space) {page diskFrame : Nat} (some : diskFrame ≠ 0) (content : Page) :
    Space.Filed [(page, content)] space (space.place page diskFrame content.words) where
  entry := rfl
  content := rfl
  written other stored found := by
    rw [lastWrite_single] at found
    split at found
    · next same =>
        cases found
        subst same
        simpa only [Space.place, Function.update_self, and_true] using some
    · cases found
  others other missing := by
    rw [lastWrite_single] at missing
    split at missing
    · cases missing
    · next different =>
        exact ⟨Function.update_of_ne (Ne.symm different) _ _,
          Function.update_of_ne (Ne.symm different) _ _⟩

end Space.Filed

/-- One page goes to the page file, or the loader panics. -/
theorem addPage_spec (valid : layout.Valid) (loading : Loading layout ram slot start state pages limit)
    {page : Nat} (low : page < userPages) (provides : Provides slot places filed page) (content : Page)
    (lastTableNumber : Nat) {rest : KernelM Unit} {wild : Prop} {post : Unit → KernelState → Prop}
    (continues : ∀ next, Loading layout ram slot start next pages limit →
      Space.Filed [(page, content)] (state.space slot) (next.space slot) →
      Loads slot places filed lastTableNumber [] state next →
      wp rest post (onStop wild (Lost layout ram slot start places filed lastTableNumber [] next)) next) :
    wp (do
      if (← pfAddEnvPage slot (page * pageSize) content) = eNoPageFileSpace then
        outOfPageFile
      rest) post (onStop wild (Lost layout ram slot start places filed lastTableNumber [] state)) state := by
  have number : pageOf (page * pageSize) = page := pageOf_mul page
  have user := (userPage_of_lt low).2
  have isFiled : {page} ⊆ filed := Finset.singleton_subset_iff.2 provides.filed
  rw [wp_bind]
  apply wp_mono (wp_both (pfAddEnvPage_spec valid loading.inv user content) (pfAddEnvPage_uses valid loading.inv user content))
  · rintro result next ⟨⟨rfl, unplaced, -⟩ | ⟨rfl, diskFrame, becomes, keeps, stable, positive, -⟩, uses⟩
    · rw [if_pos rfl] at uses ⊢
      rw [number] at uses
      exact ⟨⟨unplaced.becomes.inv, loading.acts.trans unplaced.becomes.acts⟩,
        .inl (uses.mono (Finset.empty_subset _) isFiled)⟩
    · rw [if_neg (by decide)] at uses ⊢
      rw [number] at becomes uses
      have loads : Loads slot places filed lastTableNumber [] state next :=
        .idle (uses.spends provides.places isFiled) (by rw [stable.kept])
      have filedPage : Space.Filed [(page, content)] (state.space slot) (next.space slot) := by
        rw [becomes.space]
        exact .place _ positive content
      apply wp_mono (continues next (loading.step becomes keeps stable loading.accessible fun _ => id) filedPage loads)
      · exact fun _ _ => id
      · exact fun stop last => loads.lost stop
  · rintro stop next ⟨stopped, short⟩
    rw [number] at short
    cases stop with
    | panic message =>
        exact ⟨⟨stopped.1.becomes.inv, loading.acts.trans stopped.1.becomes.acts⟩,
          .inl (Scarce.mono short provides.places (Finset.empty_subset _))⟩
    | undefined access => exact stopped.elim

/-- `ptr_zero_page` is as boot left it. -/
theorem mem_zeroPage (valid : layout.Valid) (inv : Inv layout ram state) :
    state.mem 1 = layout.bootMem ram 1 :=
  inv.kernel 1 fun managed => by
    have boundary := valid.directory
    simp only [BootLayout.Managed] at managed
    omega

/-- The middle pages of a segment. -/
theorem addSegmentPages_spec (valid : layout.Valid)
    (loading : Loading layout ram slot start state pages limit) (program : UserProgram) {wild : Prop}
    {first count : Nat} (low : first + count ≤ userPages)
    (provides : ∀ page ∈ List.range' first count, Provides slot places filed page) (source lastTableNumber : Nat) :
    wp (addSegmentPages slot program (first * pageSize) source count) (fun _ next =>
      Loading layout ram slot start next pages limit ∧
        Space.Filed (consecutive first count fun index => Page.ofBytes fun offset =>
          program.image (source + index * pageSize + offset)) (state.space slot) (next.space slot) ∧
        Loads slot places filed lastTableNumber [] state next)
      (onStop wild (Lost layout ram slot start places filed lastTableNumber [] state)) state := by
  induction count generalizing state first source with
  | zero => exact ⟨loading, .nil _, .refl slot places filed lastTableNumber state⟩
  | succ count ih =>
      rw [List.range'_succ] at provides
      obtain ⟨providesFirst, providesRest⟩ := List.forall_mem_cons.1 provides
      unfold addSegmentPages
      refine addPage_spec valid loading (by omega) providesFirst _ lastTableNumber fun next loadingNext filed loads => ?_
      rw [← Nat.succ_mul]
      refine wp_mono (ih loadingNext (by omega) providesRest _) (fun _ last holds => ?_) fun _ _ => id
      refine ⟨holds.1, ?_, loads.trans_idle holds.2.2⟩
      have contents : (fun index => Page.ofBytes fun offset =>
          program.image (source + pageSize + index * pageSize + offset)) =
          fun index => Page.ofBytes fun offset =>
            program.image (source + (index + 1) * pageSize + offset) := by
        funext index
        rw [Nat.succ_mul, Nat.add_right_comm, Nat.add_assoc source]
      rw [consecutive_succ, ← List.singleton_append]
      refine filed.append ?_
      have tail := holds.2.1
      rwa [contents] at tail

/-- The pages beyond the file part. -/
theorem addZeroPages_spec (valid : layout.Valid)
    (loading : Loading layout ram slot start state pages limit) {wild : Prop}
    {first count : Nat} (low : first + count ≤ userPages)
    (provides : ∀ page ∈ List.range' first count, Provides slot places filed page) (lastTableNumber : Nat) :
    wp (addZeroPages slot (first * pageSize) count) (fun _ next =>
      Loading layout ram slot start next pages limit ∧
        Space.Filed (consecutive first count fun _ => layout.bootMem ram 1) (state.space slot)
          (next.space slot) ∧
        Loads slot places filed lastTableNumber [] state next)
      (onStop wild (Lost layout ram slot start places filed lastTableNumber [] state)) state := by
  induction count generalizing state first with
  | zero => exact ⟨loading, .nil _, .refl slot places filed lastTableNumber state⟩
  | succ count ih =>
      rw [List.range'_succ] at provides
      obtain ⟨providesFirst, providesRest⟩ := List.forall_mem_cons.1 provides
      unfold addZeroPages
      rw [wp_bind, wp_pfAddEmptyEnvPage_true, mem_zeroPage valid loading.inv, ← wp_bind]
      refine addPage_spec valid loading (by omega) providesFirst _ lastTableNumber fun next loadingNext filed loads => ?_
      rw [← Nat.succ_mul]
      refine wp_mono (ih loadingNext (by omega) providesRest) (fun _ last holds => ?_) fun _ _ => id
      rw [consecutive_succ, ← List.singleton_append]
      exact ⟨holds.1, filed.append holds.2.1, loads.trans_idle holds.2.2⟩

/-- The number of zero pages is right also where the remaining length goes below zero. -/
theorem ProgramSegment.zeroPages_eq {segment : ProgramSegment} (sound : segment.Sound)
    (inside : segment.fileEnd < userTop) :
    roundUp ((segment.virtualAddress + segment.sizeInMemory +
      (wordSize - pageUp segment.fileEnd * pageSize)) % wordSize) / pageSize =
        segment.endPage - pageUp segment.fileEnd := by
  have file := sound.file
  have below := sound.below
  simp only [roundUp, roundDown, endPage, fileEnd, pageUp, pageSize, wordSize, userTop, uenvs]
    at file below inside ⊢
  omega

/-- The page-file image of a segment. -/
theorem addSegmentToPageFile_spec (valid : layout.Valid)
    (loading : Loading layout ram slot start state pages limit) (program : UserProgram)
    {segment : ProgramSegment} (sound : segment.Sound) (inside : segment.fileEnd < userTop)
    (provides : ∀ page ∈ segment.filedPages, Provides slot places filed page) (lastTableNumber : Nat)
    {wild : Prop} :
    wp (addSegmentToPageFile slot program segment) (fun _ next =>
      Loading layout ram slot start next pages limit ∧
        Space.Filed (segmentWrites program segment (layout.bootMem ram 1)) (state.space slot)
          (next.space slot) ∧
        Loads slot places filed lastTableNumber [] state next)
      (onStop wild (Lost layout ram slot start places filed lastTableNumber [] state)) state := by
  have file := sound.file
  have bound := ProgramSegment.endPage_le sound
  have startBelow : segment.virtualAddress ≤ userTop := by
    simp only [ProgramSegment.fileEnd] at inside
    omega
  have pagesBelow : (segment.firstPage < userPages ∧ pageOf segment.fileEnd < userPages) ∧
      pageUp segment.virtualAddress ≤ userPages ∧ pageUp segment.fileEnd ≤ userPages := by
    rw [userPages_eq]
    simp only [ProgramSegment.firstPage, ProgramSegment.fileEnd, pageUp, pageOf, pageSize, userTop, uenvs]
      at inside ⊢
    omega
  obtain ⟨⟨firstBelow, lastBelow⟩, upBelow, zerosBelow⟩ := pagesBelow
  have lastEnd : (segment.virtualAddress + segment.sizeInFile) % wordSize = segment.fileEnd :=
    Nat.mod_eq_of_lt (inside.trans (by decide))
  have middle : (pageOf segment.fileEnd * pageSize - pageUp segment.virtualAddress * pageSize) / pageSize =
      pageOf segment.fileEnd - pageUp segment.virtualAddress := by
    rw [← Nat.sub_mul, Nat.mul_div_cancel _ (by decide)]
  have offset : segment.virtualAddress - segment.firstPage * pageSize = segment.virtualAddress % pageSize := by
    simp only [ProgramSegment.firstPage, pageOf, pageSize]
    omega
  simp only [ProgramSegment.mem_filedPages_iff_written sound program (layout.bootMem ram 1), segmentWrites,
    List.map_append, map_fst_consecutive, List.forall_mem_append, List.map_cons, List.map_nil,
    List.forall_mem_singleton] at provides
  obtain ⟨⟨⟨providesFirst, providesMiddle⟩, providesLast⟩, providesZeros⟩ := provides
  unfold addSegmentToPageFile
  simp only [lastEnd, ProgramSegment.roundDown_start, roundUp_eq startBelow, roundDown_eq segment.fileEnd,
    roundUp_eq inside.le, middle, offset, ProgramSegment.zeroPages_eq sound inside]
  refine addPage_spec valid loading firstBelow providesFirst _ lastTableNumber
    fun first loadingFirst filedFirst loadsFirst => ?_
  rw [wp_bind]
  refine wp_mono (addSegmentPages_spec valid loadingFirst program (by omega) providesMiddle _ lastTableNumber)
    (fun _ second holds => ?_) fun _ _ => id
  obtain ⟨loadingSecond, filedSecond, loadsSecond⟩ := holds
  apply wp_mono _ (fun _ _ => id) fun stop last => loadsSecond.lost stop
  refine addPage_spec valid loadingSecond lastBelow providesLast _ lastTableNumber
    fun third loadingThird filedThird loadsThird => ?_
  refine wp_mono (addZeroPages_spec valid loadingThird (by omega) providesZeros lastTableNumber)
    (fun _ next holds => ?_) fun _ _ => id
  exact ⟨holds.1, ((filedFirst.append filedSecond).append filedThird).append holds.2.1,
    ((loadsFirst.trans_idle loadsSecond).trans_idle loadsThird).trans_idle holds.2.2⟩

/-! ### All segments -/

/-- No page belongs to both segments. -/
def ProgramSegment.Apart (segment other : ProgramSegment) : Prop :=
  ∀ page, ¬ (segment.Touches page ∧ other.Touches page)

/-- What is loaded for the segments so far. -/
structure Imaged (program : UserProgram) (segments : List ProgramSegment) (zero : Page)
    (before after : Space) : Prop where
  copied : ∀ segment ∈ segments, ∀ page, segment.Touches page → after.entry page ≠ 0 →
    Copied program segment page (after.content page)
  within : ∀ page, after.entry page ≠ 0 → ∃ segment ∈ segments, segment.Touches page
  stores : Space.Stores (segments.flatMap (segmentWrites program · zero)) before after

theorem Imaged.none (program : UserProgram) (zero : Page) {space : Space}
    (unmapped : ∀ page, space.entry page = 0) : Imaged program [] zero space space where
  copied segment member := by cases member
  within page mapped := absurd (unmapped page) mapped
  stores := .nil rfl rfl

/-- One more segment, apart from those before. -/
theorem Imaged.segment {program : UserProgram} {segments : List ProgramSegment} {zero : Page}
    {before middle mapped after : Space} (imaged : Imaged program segments zero before middle)
    {segment : ProgramSegment} (apart : ∀ other ∈ segments, other.Apart segment) {count : Nat}
    (few : segment.firstPage + count ≤ max segment.firstPage segment.endPage)
    (outside : Space.SameOutside segment.firstPage count middle mapped)
    (copied : ∀ page, segment.firstPage ≤ page ∧ page < segment.firstPage + count →
      Copied program segment page (mapped.content page))
    (filed : Space.Filed (segmentWrites program segment zero) mapped after) :
    Imaged program (segments ++ [segment]) zero before after where
  copied other member page touches some := by
    rw [filed.entry] at some
    rw [filed.content]
    rcases List.mem_append.1 member with earlier | last
    · have untouched : ¬ (segment.firstPage ≤ page ∧ page < segment.firstPage + count) := fun inside =>
        apart other earlier page ⟨touches, inside.1, by omega⟩
      rw [outside.entry page untouched] at some
      rw [outside.content page untouched]
      exact imaged.copied other earlier page touches some
    · obtain rfl := List.mem_singleton.1 last
      by_cases inside : other.firstPage ≤ page ∧ page < other.firstPage + count
      · exact copied page inside
      · rw [outside.entry page inside] at some
        obtain ⟨earlier, inSegments, alsoTouches⟩ := imaged.within page some
        exact absurd ⟨alsoTouches, touches⟩ (apart earlier inSegments page)
  within page some := by
    rw [filed.entry] at some
    by_cases inside : segment.firstPage ≤ page ∧ page < segment.firstPage + count
    · exact ⟨segment, List.mem_append_right _ (List.mem_singleton_self _), inside.1, by omega⟩
    · rw [outside.entry page inside] at some
      obtain ⟨earlier, inSegments, touches⟩ := imaged.within page some
      exact ⟨earlier, List.mem_append_left _ inSegments, touches⟩
  stores := by
    rw [List.flatMap_append, List.flatMap_singleton]
    have kept : Space.Stores [] middle mapped := .nil outside.diskFrame outside.stored
    have all := (imaged.stores.append kept).append filed.toStores
    rwa [List.append_nil] at all

theorem loadSegments_spec (valid : layout.Valid) (program : UserProgram)
    (named : (start.envs slot).progName = program.name) {before : Space} {segments done : List ProgramSegment}
    (loading : Loading layout ram slot start state pages limit)
    (isLimit : limit = toUInt32 ((start.envs slot).activeListSize - 1)) (distinct : pages.Nodup)
    (imaged : Imaged program done (layout.bootMem ram 1) before (state.space slot))
    (sound : ∀ segment ∈ segments, segment.Sound)
    (inside : ∀ segment ∈ segments, segment.fileEnd < userTop)
    (apart : (done ++ segments).Pairwise ProgramSegment.Apart) {remainingWSPages : Nat}
    (room : pages.length + remainingWSPages < (start.envs slot).pageWSMaxSize ∨
      (start.envs slot).pageWSMaxSize = 0)
    (covers : ∀ page ∈ loadedPages program.name segments remainingWSPages, pagePlaces slot page ⊆ places)
    (provides : ∀ segment ∈ segments, ∀ page ∈ segment.filedPages, Provides slot places filed page)
    (lastTableNumber : Nat) :
    let loaded := loadedPages program.name segments remainingWSPages
    wp (loadSegments slot program segments remainingWSPages lastTableNumber) (fun _ next =>
      Loading layout ram slot start next (pages ++ loaded.map (· * pageSize)) limit ∧
        (pages ++ loaded.map (· * pageSize)).Nodup ∧
        ((pages ++ loaded.map (· * pageSize)).length < (start.envs slot).pageWSMaxSize ∨
          (start.envs slot).pageWSMaxSize = 0) ∧
        Imaged program (done ++ segments) (layout.bootMem ram 1) before (next.space slot) ∧
        Loads slot places filed lastTableNumber loaded state next)
      (onStop ((start.envs slot).pageWSMaxSize = 0)
        (Lost layout ram slot start places filed lastTableNumber loaded state)) state := by
  induction segments generalizing state pages done remainingWSPages lastTableNumber with
  | nil =>
      simp only [loadSegments, loadedPages, wp_pure, List.append_nil, List.map_nil]
      exact ⟨loading, distinct, room.imp_left fun room => by omega, imaged,
        .refl slot places filed lastTableNumber state⟩
  | cons segment segments ih =>
      obtain ⟨soundFirst, soundRest⟩ := List.forall_mem_cons.1 sound
      obtain ⟨insideFirst, insideRest⟩ := List.forall_mem_cons.1 inside
      obtain ⟨providesFirst, providesRest⟩ := List.forall_mem_cons.1 provides
      generalize isAllocated : segment.allocatedPages program.name remainingWSPages = allocated
      simp only [loadedPages, isAllocated] at covers ⊢
      obtain ⟨coversFirst, coversRest⟩ := List.forall_mem_append.1 covers
      have earlier : ∀ other ∈ done, other.Apart segment := fun other member =>
        (List.pairwise_append.1 apart).2.2 other member segment (List.mem_cons_self ..)
      have unmapped (page : Nat) (touches : segment.Touches page) : state.leaf .user slot page = 0 := by
        by_contra mapped
        obtain ⟨owner, inDone, ownerTouches⟩ := imaged.within page mapped
        exact earlier owner inDone page ⟨ownerTouches, touches⟩
      rw [loadSegments, wp_bind]
      refine wp_mono (programSegmentAllocMapCopyWorkingset_spec valid loading isLimit program named soundFirst
        (room.imp_left fun room => by omega) isAllocated.symm unmapped coversFirst lastTableNumber)
        (fun result mapped holds => ?_) fun stop last stopped => stopped.mono id fun _ lost => ⟨lost.1, lost.2.append _⟩
      obtain ⟨rfl, loads, few, inSegment, loadingMapped, outside, copied⟩ := holds
      apply wp_mono _ (fun _ _ => id) fun stop last => loads.lost stop
      rw [wp_bind]
      refine wp_mono (addSegmentToPageFile_spec valid loadingMapped program soundFirst insideFirst providesFirst _)
        (fun _ filed holds => ?_) fun stop last stopped => stopped.mono id fun _ lost => ⟨lost.1, lost.2.append _⟩
      obtain ⟨loadingFiled, isFiled, loadsFiled⟩ := holds
      have imagedNext := imaged.segment earlier inSegment outside copied isFiled
      have distinctNext : (pages ++ pageAddresses segment.firstPage allocated).Nodup := by
        refine List.nodup_append.2 ⟨distinct, ?_, fun address old other new same => ?_⟩
        · refine List.Nodup.map (fun left right same => ?_) List.nodup_range'
          exact Nat.eq_of_mul_eq_mul_right (by decide) same
        · subst same
          obtain ⟨page, inRange, rfl⟩ := List.mem_map.1 new
          have mappedBefore := (loading.accessible _ old).2.ne_zero
          rw [pageOf_mul] at mappedBefore
          have range := List.mem_range'_1.1 inRange
          exact mappedBefore (unmapped page ⟨range.1, by omega⟩)
      rw [List.append_cons] at apart
      have roomNext : (pages ++ pageAddresses segment.firstPage allocated).length +
          (remainingWSPages - allocated) < (start.envs slot).pageWSMaxSize ∨
            (start.envs slot).pageWSMaxSize = 0 := by
        rw [List.length_append, length_pageAddresses]
        exact room.imp_left fun room => by omega
      apply wp_mono (ih loadingFiled distinctNext imagedNext soundRest insideRest apart roomNext coversRest providesRest _)
      · rintro _ last ⟨loadingLast, distinctLast, fits, imagedLast, loadsRest⟩
        rw [← List.append_cons] at imagedLast
        rw [List.append_assoc, pageAddresses, ← List.map_append] at loadingLast distinctLast fits
        exact ⟨loadingLast, distinctLast, fits, imagedLast, (loads.trans_idle loadsFiled).trans loadsRest⟩
      · exact fun stop last => loadsFiled.lost stop

end Fos.Kernel
