import Fos.Kernel.InitializationProperties

/-! `env_create` as a whole: from a free slot to an environment that can be scheduled. -/

set_option autoImplicit false

namespace Fos.Kernel

open Foundation

variable {layout : BootLayout} {ram : Nat → Page} {slot limit : Nat} {pages : List Nat}
  {places : Finset Place} {filed : Finset Nat} {start state next last : KernelState}

/-! ### Flags -/

/-- Nothing but flags of entries changes. -/
structure Flagged (layout : BootLayout) (ram : Nat → Page) (slot : Nat) (state next : KernelState) :
    Prop where
  inv : Inv layout ram next
  acts : Acts slot [] state [] next
  keeps : Keeps slot [] state [] next
  calm : Calm slot state next
  content : (next.space slot).content = (state.space slot).content
  diskFrame : (next.space slot).diskFrame = (state.space slot).diskFrame
  stored : (next.space slot).stored = (state.space slot).stored

namespace Flagged

theorem refl (inv : Inv layout ram state) (slot : Nat) : Flagged layout ram slot state state :=
  ⟨inv, .refl slot [] state, .refl slot [] state, .refl slot state, rfl, rfl, rfl⟩

theorem trans (first : Flagged layout ram slot state next) (second : Flagged layout ram slot next last) :
    Flagged layout ram slot state last :=
  ⟨second.inv, first.acts.trans second.acts, first.keeps.trans second.keeps,
    first.calm.trans second.calm, second.content.trans first.content,
    second.diskFrame.trans first.diskFrame, second.stored.trans first.stored⟩

theorem of_setEntry {page entry : Nat}
    (becomes : SpaceBecomes layout ram slot [] state [] next ((state.space slot).setEntry page entry))
    (keeps : Keeps slot [] state [] next) (calm : Calm slot state next) :
    Flagged layout ram slot state next :=
  ⟨becomes.inv, becomes.acts, keeps, calm, becomes.space ▸ rfl, becomes.space ▸ rfl, becomes.space ▸ rfl⟩

end Flagged

theorem accessible_changePerm {entry clear : Nat} (accessible : Accessible entry)
    (clearLow : clear < pageSize) (present : clear.testBit 0 = false)
    (writeable : clear.testBit 1 = false) (user : clear.testBit 2 = false) :
    Accessible (changePerm entry 0 clear) := by
  refine ⟨?_, owned_changePerm accessible.2 clearLow writeable user⟩
  rw [testBit_changePerm_low (by decide) clearLow, accessible.1, present]
  rfl

/-- One loaded page is marked unmodified. -/
theorem Loading.clearModified (valid : layout.Valid)
    (loading : Loading layout ram slot start state pages limit) {address : Nat}
    (member : address ∈ pages) :
    let next := state.writeWord (frameOf (state.dirWord .user slot (pageOf address / 1024)))
      (pageOf address % 1024) (changePerm (state.leaf .user slot (pageOf address)) 0 permModified)
    Loading layout ram slot start next pages limit ∧ Flagged layout ram slot state next ∧
      next.leaf .user slot = Function.update (state.leaf .user slot) (pageOf address)
        (changePerm (state.leaf .user slot (pageOf address)) 0 permModified) := by
  intro next
  have accessible := loading.accessible address member
  have mapped := accessible.2.ne_zero
  have present := KernelState.dirWord_ne_zero_of_leaf mapped
  have accessibleNext : Accessible (changePerm (state.leaf .user slot (pageOf address)) 0 permModified) :=
    accessible_changePerm accessible (by decide) (by decide) (by decide) (by decide)
  obtain ⟨becomes, keeps⟩ := loading.inv.flagLeaf [] mapped accessibleNext.2.ne_zero
    (frameOf_changePerm (leaf_lt valid loading.inv mapped) (by decide) (by decide))
  have calm : Calm slot state next := .of_eq rfl rfl fun side index _ =>
    (writesLeaf_writeWord present _).dirWord loading.inv.toLedger side slot index
  have leaf : next.leaf .user slot = Function.update (state.leaf .user slot) (pageOf address)
      (changePerm (state.leaf .user slot (pageOf address)) 0 permModified) :=
    congrArg Space.entry becomes.space
  refine ⟨loading.step becomes keeps calm.toStable (fun other inPages => ?_) fun page some => ?_,
    .of_setEntry becomes keeps calm, leaf⟩
  · rw [← becomes.entry, leaf]
    by_cases here : pageOf other = pageOf address
    · rw [here, Function.update_self]
      exact accessibleNext
    · rw [Function.update_of_ne here]
      exact loading.accessible other inPages
  · rw [← becomes.entry, leaf] at some
    by_cases here : page = pageOf address
    · exact here ▸ mapped
    · rwa [Function.update_of_ne here] at some

/-- The loaded pages are unmodified. -/
theorem clearModifiedBits_spec (valid : layout.Valid)
    (loading : Loading layout ram slot start state pages limit) {fail : Stop → KernelState → Prop} :
    wp (clearModifiedBits slot) (fun _ next =>
      Loading layout ram slot start next pages limit ∧ Flagged layout ram slot state next ∧
        next.freeFrameList = state.freeFrameList ∧
        ∀ address ∈ pages, (next.leaf .user slot (pageOf address)).testBit 6 = false) fail state := by
  have size := loading.same.pageWSMaxSize
  unfold clearModifiedBits
  rw [wp_bind, wp_get]
  refine wp_mono (wp_loopFrom (fun count next =>
    Loading layout ram slot start next pages limit ∧ Flagged layout ram slot state next ∧
      next.freeFrameList = state.freeFrameList ∧ ∀ index < count, ∀ address, pages[index]? = some address →
        (next.leaf .user slot (pageOf address)).testBit 6 = false)
    (fun index current low holds => ?_) ⟨loading, .refl loading.inv slot, rfl,
      fun index low => absurd low (Nat.not_lt_zero _)⟩) (fun _ next holds => ?_) fun _ _ => id
  · obtain ⟨loadingCurrent, flagged, free, cleared⟩ := holds
    have sizeCurrent := loadingCurrent.same.pageWSMaxSize
    have element := loadingCurrent.recorded.elements index (by omega)
    simp only [wp_bind, wp_get, element]
    cases found : pages[index]? with
    | none =>
        simp only [Env.elementOf, found, not_true_eq_false, if_false, wp_pure]
        refine ⟨loadingCurrent, flagged, free, fun other below address here => ?_⟩
        rcases Nat.lt_succ_iff_lt_or_eq.1 below with before | rfl
        · exact cleared other before address here
        · rw [found] at here
          cases here
    | some address =>
        have member : address ∈ pages := List.mem_of_getElem? found
        have user := loadingCurrent.users address member
        have present := KernelState.dirWord_ne_zero_of_leaf
          (loadingCurrent.accessible address member).2.ne_zero
        have table : current.tableAt .user slot (pageOf address) =
            some (frameOf (current.dirWord .user slot (pageOf address / 1024))) := if_neg present
        simp only [Env.elementOf, found, Bool.false_eq_true, not_false_eq_true, if_true, wp_bind, root_eq,
          wp_getPageTable valid loadingCurrent.inv loadingCurrent.live user.2, table, wp_modify,
          mem_table present]
        rw [ptx_eq]
        obtain ⟨loadingNext, flaggedNext, leaf⟩ := loadingCurrent.clearModified valid member
        refine ⟨loadingNext, flagged.trans flaggedNext, free, fun other below there here => ?_⟩
        rw [leaf]
        by_cases same : pageOf there = pageOf address
        · rw [same, Function.update_self, testBit_changePerm_low (by decide) (by decide),
            permModified_bit]
          simp
        · rw [Function.update_of_ne same]
          rcases Nat.lt_succ_iff_lt_or_eq.1 below with before | rfl
          · exact cleared other before there here
          · rw [found] at here
            cases here
            exact absurd rfl same
  · obtain ⟨loadingNext, flagged, free, cleared⟩ := holds
    refine ⟨loadingNext, flagged, free, fun address member => ?_⟩
    obtain ⟨index, low, here⟩ := List.getElem_of_mem member
    have fits := loading.recorded.fits
    exact cleared index (by omega) address (by rw [List.getElem?_eq_getElem low, here])

/-! ### The initial stack -/

theorem placed_of_leaf {page : Nat} (placed : state.leaf .disk slot page ≠ 0) :
    (state.envs slot).diskEnvPgdir ≠ none := by
  intro missing
  have live := (KernelState.root_ne_zero_of_dirWord (KernelState.dirWord_ne_zero_of_leaf placed)).1
  rw [KernelState.root, missing] at live
  exact live rfl

theorem stackAddress_userPage : Env.UserPage stackAddress := ⟨by decide, by decide⟩

/-- The page file got the page, or it was full and did not have the page yet. -/
inductive StackFiled (zero : Page) (full : Prop) (before after : Space) : Prop where
  | placed (stores : Space.Stores [(stackPage, zero)] before after)
      (room : before.diskFrame stackPage ≠ 0 ∨ ¬ full)
  | dropped (full : full) (unplaced : before.diskFrame stackPage = 0)
      (diskFrame : after.diskFrame = before.diskFrame) (stored : after.stored = before.stored)

theorem StackFiled.congr {zero : Page} {full full' : Prop} {before before' after after' : Space}
    (filed : StackFiled zero full before after) (same : full ↔ full')
    (diskBefore : before'.diskFrame = before.diskFrame) (storedBefore : before'.stored = before.stored)
    (diskFrame : after'.diskFrame = after.diskFrame) (stored : after'.stored = after.stored) :
    StackFiled zero full' before' after' := by
  cases filed with
  | placed stores room =>
      refine .placed ⟨fun page content found => ?_, fun page missing => ?_⟩ ?_
      · rw [diskFrame, stored]
        exact stores.written page content found
      · rw [diskFrame, stored, diskBefore, storedBefore]
        exact stores.others page missing
      · rwa [diskBefore, ← same]
  | dropped isFull unplaced unchanged kept =>
      refine .dropped (same.1 isFull) ?_ ?_ ?_
      · rwa [diskBefore]
      · rw [diskFrame, unchanged, diskBefore]
      · rw [stored, kept, storedBefore]

/-- What the stack page adds to a loaded program. -/
structure Stacked (layout : BootLayout) (ram : Nat → Page) (slot : Nat) (start state next : KernelState)
    (pages : List Nat) : Prop where
  loading : Loading layout ram slot start next (pages ++ [stackAddress])
    (toUInt32 (start.envs slot).activeListSize)
  entry : ∀ page, page ≠ stackPage → next.leaf .user slot page = state.leaf .user slot page
  content : ∀ page, page ≠ stackPage →
    (next.space slot).content page = (state.space slot).content page
  zeros : (next.space slot).content stackPage = Page.zero.words
  placed : (next.envs slot).diskEnvPgdir ≠ none
  filed : StackFiled (layout.bootMem ram 1) (state.diskFreeFrameList = []) (state.space slot)
    (next.space slot)

theorem toUInt32_pred {size : Int} (positive : 0 < size) (bound : size < wordSize) :
    toUInt32 size = toUInt32 (size - 1) + 1 := by
  simp only [toUInt32, wordSize] at bound ⊢
  omega

/-- The stack page is in memory and in the working set, and not in the page file yet. -/
structure StackRecorded (layout : BootLayout) (ram : Nat → Page) (slot : Nat) (start state recorded : KernelState)
    (pages : List Nat) : Prop where
  loading : Loading layout ram slot start recorded (pages ++ [stackAddress])
    (toUInt32 (start.envs slot).activeListSize)
  space : ∃ entry, recorded.space slot = (state.space slot).map stackPage entry Page.zero.words
  diskFree : recorded.diskFreeFrameList = state.diskFreeFrameList
  uses : state.leaf .user slot stackPage = 0 → Uses slot (pagePlaces slot stackPage) ∅ state recorded

/-- `allocateStackPage` up to the page file. -/
theorem Loading.wp_allocateStackPage (valid : layout.Valid)
    (loading : Loading layout ram slot start state pages limit)
    (isLimit : limit = toUInt32 ((start.envs slot).activeListSize - 1))
    (sizeBound : (start.envs slot).activeListSize < wordSize)
    (room : pages.length < (start.envs slot).pageWSMaxSize ∨ (start.envs slot).pageWSMaxSize = 0)
    {post : Unit → KernelState → Prop} {fail : Stop → KernelState → Prop}
    (continues : ∀ recorded, StackRecorded layout ram slot start state recorded pages →
      wp (pfAddEmptyEnvPage slot stackAddress true) (fun _ => post ()) fail recorded)
    (stops : ∀ stop next, onStop ((start.envs slot).pageWSMaxSize = 0)
      (fun next => Stalled layout ram slot start next ∧ ((start.envs slot).pageWSMaxSize = 0 ∨
        (state.leaf .user slot stackPage = 0 → Scarce slot (pagePlaces slot stackPage) ∅ state))) stop next →
      fail stop next) :
    wp (allocateStackPage slot) post fail state := by
  have user := stackAddress_userPage
  unfold allocateStackPage
  simp only [wp_bind, wp_get, root_eq]
  apply wp_allocate_loadtimeMapFrame valid loading.inv loading.live user.2 (by decide)
  · intro frame mapped binds
    have accessible : Accessible (pageEntry frame (permUser ||| permWriteable)) := by
      refine ⟨?_, ?_, ?_⟩ <;> rw [testBit_pageEntry _ _ (by decide)] <;> decide
    have entry : mapped.leaf .user slot stackPage = pageEntry frame (permUser ||| permWriteable) := by
      rw [binds.becomes.entry]
      simp only [Space.map, Function.update_self]
    have active : mapped.cr3 = toPhysicalAddress (mapped.root .user slot) := by
      rw [binds.calm.root_user]
      exact binds.becomes.acts.quiet.cr3.trans loading.active
    refine wp_mono (modifyMappedPage_spec binds.becomes.inv active user.2
      (by rw [hasPerm_present, entry]; exact accessible.1) _) (fun _ written holds => ?_) fun _ _ never => never
    obtain ⟨becomesWrite, keepsWrite, calmWrite, freeWrite⟩ := holds
    have stable := (binds.calm.trans calmWrite).toStable
    have becomes : SpaceBecomes layout ram slot [] state [] written ((state.space slot).map stackPage
        (pageEntry frame (permUser ||| permWriteable) ||| permModified) Page.zero.words) := by
      refine ⟨becomesWrite.inv, binds.becomes.acts.trans becomesWrite.acts, ?_⟩
      rw [becomesWrite.space, binds.becomes.space, entry]
      simp only [Space.map, Space.setEntry, Space.setContent, Function.update_idem]
    have usesWrite : Uses slot ∅ ∅ mapped written := by
      apply Uses.of_stable calmWrite.toStable becomesWrite.acts binds.becomes.inv.toLedger _ _
        (congrArg List.length freeWrite).ge (congrArg List.length calmWrite.diskFree).ge
      · intro page some
        rw [becomes.entry]
        rw [binds.becomes.entry] at some
        simp only [Space.map] at some ⊢
        cases decEq page stackPage with
        | isTrue same =>
            rw [same, Function.update_self]
            exact (accessible_or accessible _).2.ne_zero
        | isFalse different => rwa [Function.update_of_ne different] at some ⊢
      · intro page
        rw [becomesWrite.diskFrame]
        exact id
    have size : (written.envs slot).pageWSMaxSize = (start.envs slot).pageWSMaxSize := by
      rw [stable.kept.same.pageWSMaxSize, loading.same.pageWSMaxSize]
    have activeSize : (written.envs slot).activeListSize = (start.envs slot).activeListSize := by
      rw [stable.kept.same.activeListSize, loading.same.activeListSize]
    rw [wp_ite, size, activeSize]
    constructor
    · intro outside
      apply stops
      refine ⟨⟨becomes.inv, loading.acts.trans becomes.acts⟩, ?_⟩
      rcases room with room | none
      · have index : (written.envs slot).pageLastWSIndex = pages.length := by
          rw [stable.kept]
          exact loading.recorded.index_eq (by rwa [loading.same.pageWSMaxSize])
        omega
      · exact .inl none
    · intro _
      rw [wp_bind]
      refine wp_mono (loading.recordLoadedPage_spec becomes (fun unmapped => (binds.keeps unmapped).trans keepsWrite)
        stable user (accessible_or accessible _) room fun positive => ?_) (fun _ recorded loaded => ?_)
        fun stop next => stops stop next
      · rw [loading.front positive, toUInt32_pred positive sizeBound, isLimit]
        split <;> omega
      obtain ⟨loadingRecorded, space, same⟩ := loaded
      rw [wp_bind]
      refine continues recorded ⟨loadingRecorded, ⟨_, space⟩, ?_, fun unmapped => ?_⟩
      · rw [same, ← (binds.calm.trans calmWrite).diskFree]
        rfl
      · have kept : Uses slot ∅ ∅ written recorded := by
          rw [same]
          exact .setEnv _ rfl rfl
        have all := (binds.uses unmapped).trans (usesWrite.trans kept)
        rwa [Finset.union_empty, Finset.union_empty] at all
  · intro stop next stopped
    apply stops
    apply onPanic.onStop _ stopped
    rintro last ⟨inv, acts, scarce⟩
    exact ⟨⟨inv, loading.acts.trans acts⟩, .inr scarce⟩

theorem allocateStackPage_spec (valid : layout.Valid)
    (loading : Loading layout ram slot start state pages limit)
    (isLimit : limit = toUInt32 ((start.envs slot).activeListSize - 1))
    (sizeBound : (start.envs slot).activeListSize < wordSize)
    (room : pages.length < (start.envs slot).pageWSMaxSize ∨ (start.envs slot).pageWSMaxSize = 0)
    (covers : pagePlaces slot stackPage ⊆ places) (provides : Provides slot places filed stackPage) :
    wp (allocateStackPage slot) (fun _ next => Stacked layout ram slot start state next pages)
      (onStop ((start.envs slot).pageWSMaxSize = 0) fun next => Stalled layout ram slot start next ∧
        ((start.envs slot).pageWSMaxSize = 0 ∨ (state.leaf .user slot stackPage = 0 → Scarce slot places filed state)))
      state := by
  have user := stackAddress_userPage
  apply loading.wp_allocateStackPage valid isLimit sizeBound room
  swap
  · intro stop next stopped
    apply stopped.mono id
    rintro last ⟨stalled, none | scarce⟩
    · exact ⟨stalled, .inl none⟩
    · exact ⟨stalled, .inr fun unmapped => (scarce unmapped).mono covers (Finset.empty_subset _)⟩
  rintro recorded ⟨loadingRecorded, ⟨entry, space⟩, diskFree, uses⟩
  have place : recorded.leaf .disk slot stackPage = state.leaf .disk slot stackPage :=
    congrFun (congrArg Space.diskFrame space) stackPage
  rw [wp_pfAddEmptyEnvPage_true, mem_zeroPage valid loadingRecorded.inv]
  apply wp_mono (wp_both (pfAddEnvPage_spec valid loadingRecorded.inv user.2 (layout.bootMem ram 1))
    (pfAddEnvPage_uses valid loadingRecorded.inv user.2 (layout.bootMem ram 1)))
  swap
  · rintro stop next ⟨stopped, short⟩
    cases stop with
    | panic message =>
        refine ⟨⟨stopped.1.becomes.inv, loadingRecorded.acts.trans stopped.1.becomes.acts⟩, .inr fun unmapped => ?_⟩
        have spends : Spends slot places filed state recorded := (uses unmapped).spends covers (Finset.empty_subset _)
        exact spends.scarce (Scarce.mono short provides.places (Finset.empty_subset _))
    | undefined access => exact stopped.elim
  rintro result next ⟨outcome, -⟩
  have entryAt (page : Nat) (different : page ≠ stackPage) :
      recorded.leaf .user slot page = state.leaf .user slot page := by
    refine (congrFun (congrArg Space.entry space) page).trans ?_
    exact Function.update_of_ne different _ _
  have contentAt (page : Nat) (different : page ≠ stackPage) :
      (recorded.space slot).content page = (state.space slot).content page := by
    rw [space]
    exact Function.update_of_ne different _ _
  have zeros : (recorded.space slot).content stackPage = Page.zero.words := by
    rw [space]
    simp only [Space.map, Function.update_self]
  rcases outcome with ⟨-, unplaced, full, vacant, directory⟩ | ⟨-, diskFrame, becomesPlace, keepsPlace, stablePlace,
      positive, room⟩
  · have becomesDrop := unplaced.becomes
    refine ⟨loadingRecorded.step becomesDrop unplaced.keeps unplaced.stable loadingRecorded.accessible
      fun _ => id, fun page different => ?_, fun page different => ?_, ?_, directory, ?_⟩
    · rw [becomesDrop.entry]
      exact entryAt page different
    · rw [becomesDrop.space]
      exact contentAt page different
    · rw [becomesDrop.space]
      exact zeros
    · refine .dropped (diskFree ▸ full) (place.symm.trans vacant) ?_ ?_ <;>
        rw [becomesDrop.space, space] <;> rfl
  · have here : next.leaf .disk slot stackPage ≠ 0 := by
      rw [becomesPlace.diskFrame]
      simpa only [Space.place, Function.update_self] using positive
    refine ⟨loadingRecorded.step becomesPlace keepsPlace stablePlace loadingRecorded.accessible
      fun _ => id, fun page different => ?_, fun page different => ?_, ?_, placed_of_leaf here, ?_⟩
    · rw [becomesPlace.entry]
      exact entryAt page different
    · rw [becomesPlace.space]
      exact contentAt page different
    · rw [becomesPlace.space]
      exact zeros
    · rw [diskFree] at room
      refine .placed ?_ (room.imp (fun some unplaced => some (place.trans unplaced)) id)
      have kept : Space.Stores [] (state.space slot) (recorded.space slot) := by
        rw [space]
        exact .nil rfl rfl
      rw [becomesPlace.space]
      exact kept.append (Space.Filed.place _ positive _).toStores

/-! ### Hiding the pages of `SecondList` -/

/-- The pages of the given addresses are hidden, and the others are as before. -/
structure Hidden (layout : BootLayout) (ram : Nat → Page) (slot : Nat) (addresses : List Nat)
    (state next : KernelState) : Prop extends Flagged layout ram slot state next where
  hidden : ∀ page, page * pageSize ∈ addresses →
    Owned (next.leaf .user slot page) ∧ (next.leaf .user slot page).testBit 0 = false
  others : ∀ page, page * pageSize ∉ addresses → next.leaf .user slot page = state.leaf .user slot page

theorem clearPresentBits_spec (valid : layout.Valid) (inv : Inv layout ram state) (elements : List Nat)
    (owned : ∀ address ∈ (state.envs slot).addresses elements,
      Env.UserPage address ∧ Owned (state.leaf .user slot (pageOf address)))
    {fail : Stop → KernelState → Prop} :
    wp (clearPresentBits slot elements)
      (fun _ next => Hidden layout ram slot ((state.envs slot).addresses elements) state next ∧
        next.freeFrameList = state.freeFrameList) fail state := by
  induction elements generalizing state with
  | nil => exact ⟨⟨.refl inv slot, fun page member => absurd member List.not_mem_nil, fun _ _ => rfl⟩, rfl⟩
  | cons element elements ih =>
      rw [Env.addresses_cons] at owned ⊢
      obtain ⟨⟨user, ownedFirst⟩, ownedRest⟩ := List.forall_mem_cons.1 owned
      rw [clearPresentBits, wp_bind, wp_get, wp_bind]
      refine wp_mono (ptSetPagePermissions_spec valid inv user.2 ownedFirst.ne_zero (by decide) (by decide)
        (owned_hide ownedFirst).ne_zero) (fun _ next flagged => ?_) fun _ _ => id
      obtain ⟨becomes, keeps, calm, free⟩ := flagged
      have leaf : next.leaf .user slot = Function.update (state.leaf .user slot)
          (pageOf ((state.envs slot).ptrPageWorkingSet element).virtualAddress)
          (changePerm (state.leaf .user slot
            (pageOf ((state.envs slot).ptrPageWorkingSet element).virtualAddress)) 0 permPresent) :=
        congrArg Space.entry becomes.space
      have elementsNext : (next.envs slot).addresses elements = (state.envs slot).addresses elements := by
        rw [calm.kept]
        rfl
      have ownedNext : ∀ address ∈ (next.envs slot).addresses elements,
          Env.UserPage address ∧ Owned (next.leaf .user slot (pageOf address)) := by
        intro address member
        rw [elementsNext] at member
        obtain ⟨userAddress, ownedAddress⟩ := ownedRest address member
        refine ⟨userAddress, ?_⟩
        rw [leaf]
        by_cases here : pageOf address = pageOf ((state.envs slot).ptrPageWorkingSet element).virtualAddress
        · rw [here, Function.update_self]
          exact owned_hide ownedFirst
        · rw [Function.update_of_ne here]
          exact ownedAddress
      refine wp_mono (ih becomes.inv ownedNext) (fun _ last holds => ?_) fun _ _ => id
      obtain ⟨rest, freeRest⟩ := holds
      rw [elementsNext] at rest
      refine ⟨⟨(Flagged.of_setEntry becomes keeps calm).trans rest.toFlagged, fun page member => ?_,
        fun page outside => ?_⟩, freeRest.trans free⟩
      · by_cases later : page * pageSize ∈ (state.envs slot).addresses elements
        · exact rest.hidden page later
        · have here := (List.mem_cons.1 member).resolve_right later
          rw [rest.others page later, leaf, ← here, pageOf_mul, Function.update_self]
          exact ⟨owned_hide (by rwa [← here, pageOf_mul] at ownedFirst), hidden_hide _⟩
      · obtain ⟨different, apart⟩ := not_or.1 (mt List.mem_cons.2 outside)
        rw [rest.others page apart, leaf, Function.update_of_ne]
        intro same
        exact different (by rw [same, pageOf_mul_pageSize user])

/-! ### The whole of `env_create` -/

/-- `envCreate` panicked: the slot is free as before, or in no list any more. -/
structure Abandoned (layout : BootLayout) (ram : Nat → Page) (slot : Nat) (state next : KernelState) :
    Prop where
  inv : Inv layout ram next
  acts : Acts slot [] state [] ((next.setEnvFreeList state.envFreeList).setCr3 state.cr3)
  freeList : next.envFreeList = state.envFreeList ∧ next.Vacant slot ∨
    next.envFreeList = state.envFreeList.erase slot

/-- A slot ready for loading, and what it was made from. -/
structure Prepared (layout : BootLayout) (ram : Nat → Page) (slot : Nat) (program : UserProgram)
    (pageWSSize secondListSize : Nat) (state start : KernelState) : Prop where
  inv : Inv layout ram start
  acts : Acts slot [] state [] ((start.setEnvFreeList state.envFreeList).setCr3 state.cr3)
  keeps : Keeps slot [] state [] start
  freeList : start.envFreeList = state.envFreeList.erase slot
  live : start.root .user slot ≠ 0
  active : start.cr3 = toPhysicalAddress (start.root .user slot)
  space : start.space slot = state.space slot
  small : pageWSSize ≤ pwsMaxSize
  pageWSMaxSize : (start.envs slot).pageWSMaxSize = pageWSSize
  activeListSize : (start.envs slot).activeListSize =
    toInt32 ((pageWSSize + (wordSize - secondListSize)) % wordSize)
  secondListSize : (start.envs slot).secondListSize = toInt32 secondListSize
  status : (start.envs slot).envStatus = .new
  recorded : (start.envs slot).Recorded []
  empty : (start.envs slot).activeList = []

/-- What loading starts with: the name of the program, an empty table working set, and one frame less. -/
structure Furnished (slot : Nat) (program : UserProgram) (state start : KernelState) : Prop where
  progName : (start.envs slot).progName = program.name
  tableLastWSIndex : (start.envs slot).tableLastWSIndex = 0
  free : state.freeFrameList.length = start.freeFrameList.length + 1
  diskFree : start.diskFreeFrameList = state.diskFreeFrameList

theorem Prepared.loading {program : UserProgram} {pageWSSize secondListSize : Nat}
    (prepared : Prepared layout ram slot program pageWSSize secondListSize state start)
    (vacant : state.Vacant slot) (limit : Nat) : Loading layout ram slot start start [] limit where
  inv := prepared.inv
  acts := .refl slot [] start
  keeps _ := .refl slot [] start
  live := prepared.live
  active := prepared.active
  same := .refl _
  recorded := prepared.recorded
  front _ := by simp [prepared.empty]
  users address member := absurd member List.not_mem_nil
  accessible address member := absurd member List.not_mem_nil
  listed page mapped := by
    have leaf : start.leaf .user slot page = state.leaf .user slot page :=
      congrFun (congrArg Space.entry prepared.space) page
    exact absurd (leaf.trans (vacant.leaf .user page)) mapped

/-- The scheduler's part does not matter for what code does for an environment. -/
theorem Acts.reschedule {hand hand' : List Nat} (acts : Acts slot hand state hand' next)
    (freeList : List Nat) (cr3 : Nat) :
    Acts slot hand ((state.setEnvFreeList freeList).setCr3 cr3) hand'
      ((next.setEnvFreeList freeList).setCr3 cr3) where
  quiet := { acts.quiet with
    freeList := rfl
    cr3 := rfl }
  held := acts.held
  mem := acts.mem
  references := acts.references
  envs := acts.envs
  heldDisk := acts.heldDisk
  disk := acts.disk

theorem Prepared.abandoned {program : UserProgram} {pageWSSize secondListSize : Nat}
    (prepared : Prepared layout ram slot program pageWSSize secondListSize state start)
    (stalled : Stalled layout ram slot start next) : Abandoned layout ram slot state next where
  inv := stalled.inv
  acts := prepared.acts.trans (stalled.acts.reschedule _ _)
  freeList := .inr (stalled.acts.quiet.freeList.trans prepared.freeList)

/-- Where every page of a slot is without a disk frame, what is placed later was free. -/
theorem diskFrames_count (inv : Inv layout ram state) (invNext : Inv layout ram next)
    (unplaced : ∀ page, state.leaf .disk slot page = 0)
    (same : ∀ diskFrame, next.HeldDisk slot diskFrame ↔ state.HeldDisk slot diskFrame) :
    next.diskFreeFrameList.length + Set.ncard {page | next.leaf .disk slot page ≠ 0} =
      state.diskFreeFrameList.length := by
  have exclusive := invNext.toLedger.filing_exclusive slot
  have total (item : Nat) : item ∈ state.diskFreeFrameList.toFinset ↔
      Covers next.diskFreeFrameList (fun page => next.diskNames (slot, page)) item := by
    refine Iff.trans ?_ (same item).symm
    rw [List.mem_toFinset]
    refine ⟨.inl, fun held => held.resolve_right ?_⟩
    rintro ⟨page, named⟩
    rw [KernelState.diskNames, if_pos (unplaced page)] at named
    cases named
  have count := exclusive.length_add_ncard _ total
  have places : {page | next.filing slot page ≠ none} = {page | next.leaf .disk slot page ≠ 0} :=
    Set.ext fun _ => filing_ne_none
  rw [places, List.toFinset_card_of_nodup inv.diskExclusive.nodup] at count
  exact count

/-- What `envCreate` makes of a free slot. `pages` were loaded for the segments. -/
structure Created (layout : BootLayout) (ram : Nat → Page) (slot : Nat) (program : UserProgram)
    (pageWSSize secondListSize : Nat) (pages : List Nat) (state next : KernelState) : Prop where
  inv : Inv layout ram next
  acts : Acts slot [] state [] (next.setEnvFreeList state.envFreeList)
  freeList : next.envFreeList = state.envFreeList.erase slot
  keeps : (pages ++ [stackAddress]).Nodup → Keeps slot [] state [] next
  live : next.root .user slot ≠ 0
  placed : (next.envs slot).diskEnvPgdir ≠ none
  pageWSMaxSize : (next.envs slot).pageWSMaxSize = pageWSSize
  activeListSize : (next.envs slot).activeListSize =
    toInt32 ((pageWSSize + (wordSize - secondListSize)) % wordSize)
  secondListSize : (next.envs slot).secondListSize = toInt32 secondListSize
  status : (next.envs slot).envStatus = .new
  recorded : (next.envs slot).Recorded (pages ++ [stackAddress])
  front : 0 < (next.envs slot).activeListSize → (next.envs slot).activeList.length =
    min (pages.length + 1) (toUInt32 (next.envs slot).activeListSize)
  users : ∀ address ∈ pages ++ [stackAddress], Env.UserPage address
  distinct : pages.Nodup
  within : ∀ address ∈ pages, ∃ segment ∈ program.segments, segment.Touches (pageOf address)
  mapped : ∀ page, next.leaf .user slot page ≠ 0 ↔ page * pageSize ∈ pages ++ [stackAddress]
  resident : (pages ++ [stackAddress]).Nodup → Resident True True (next.leaf .user slot)
    (next.envs slot).activePages (next.envs slot).secondPages
  copied : ∀ segment ∈ program.segments, ∀ page, segment.Touches page → page ≠ stackPage →
    next.leaf .user slot page ≠ 0 → Copied program segment page ((next.space slot).content page)
  zeros : (next.space slot).content stackPage = Page.zero.words
  filed : ∃ middle,
    Space.Stores (program.segments.flatMap (segmentWrites program · (layout.bootMem ram 1)))
      (state.space slot) middle ∧
    StackFiled (layout.bootMem ram 1)
      (state.diskFreeFrameList.length ≤ Set.ncard {page | middle.diskFrame page ≠ 0}) middle
      (next.space slot)

section Loading

variable {program : UserProgram} {pageWSSize secondListSize : Nat}

/-- The last step of `envCreate` and what it amounts to. -/
theorem created_of_hidden (vacant : state.Vacant slot) (inv : Inv layout ram state)
    (prepared : Prepared layout ram slot program pageWSSize secondListSize state start)
    {imagedState cleared stacked hidden : KernelState}
    (loading : Loading layout ram slot start imagedState pages limit) (distinct : pages.Nodup)
    (imaged : Imaged program program.segments (layout.bootMem ram 1) (start.space slot)
      (imagedState.space slot))
    (flagged : Flagged layout ram slot imagedState cleared)
    (loadingCleared : Loading layout ram slot start cleared pages limit)
    (stack : Stacked layout ram slot start cleared stacked pages)
    (hides : Hidden layout ram slot (stacked.envs slot).secondPages stacked hidden) :
    Created layout ram slot program pageWSSize secondListSize pages state (hidden.setCr3 state.cr3) := by
  have same : SameMachine hidden (hidden.setCr3 state.cr3) := rfl
  have loadingStacked := stack.loading
  have env : (hidden.setCr3 state.cr3).envs slot = stacked.envs slot := hides.calm.placed stack.placed
  have perm := loadingStacked.recorded.perm_recency
  have leaf : (hidden.setCr3 state.cr3).leaf .user slot = hidden.leaf .user slot := rfl
  have second : (stacked.envs slot).secondPages ⊆ pages ++ [stackAddress] := fun address member => by
    refine perm.mem_iff.1 ?_
    rw [Env.recency_eq]
    exact List.mem_append_right _ member
  have mapped (page : Nat) : hidden.leaf .user slot page ≠ 0 ↔ page * pageSize ∈ pages ++ [stackAddress] := by
    by_cases isHidden : page * pageSize ∈ (stacked.envs slot).secondPages
    · exact ⟨fun _ => second isHidden, fun _ => (hides.hidden page isHidden).1.ne_zero⟩
    · rw [hides.others page isHidden]
      refine ⟨loadingStacked.listed page, fun member => ?_⟩
      have accessible := loadingStacked.accessible _ member
      rw [pageOf_mul] at accessible
      exact accessible.2.ne_zero
  have content : (hidden.space slot).content = (stacked.space slot).content := hides.content
  have sizes := loadingStacked.same
  have heldDisk (diskFrame : Nat) : cleared.HeldDisk slot diskFrame ↔ state.HeldDisk slot diskFrame :=
    ⟨fun held => prepared.acts.heldDisk _ (loadingCleared.acts.heldDisk _ held),
      fun held => (loadingCleared.keeps distinct).heldDisk _ (prepared.keeps.heldDisk _ held)⟩
  have count := diskFrames_count inv loadingCleared.inv (vacant.leaf .disk) heldDisk
  refine ⟨same.inv hides.inv,
    prepared.acts.trans ((loadingStacked.acts.trans hides.acts).reschedule _ _), ?_,
    fun nodup => ?_, ?_, env ▸ stack.placed,
    ?_, ?_, ?_, ?_, env ▸ loadingStacked.recorded, fun positive => ?_, loadingStacked.users, distinct,
    fun address member => ?_, mapped, fun nodup => ?_, fun segment member page touches different some => ?_, ?_, ?_⟩
  · exact (loadingStacked.acts.trans hides.acts).quiet.freeList.trans prepared.freeList
  · obtain ⟨held, heldDisk⟩ := prepared.keeps.trans ((loadingStacked.keeps nodup).trans hides.keeps)
    exact ⟨held, heldDisk⟩
  · rw [KernelState.root, env]
    exact loadingStacked.live
  · rw [env, sizes.pageWSMaxSize, prepared.pageWSMaxSize]
  · rw [env, sizes.activeListSize, prepared.activeListSize]
  · rw [env, sizes, ← prepared.secondListSize]
  · rw [env, sizes, ← prepared.status]
  · rw [env] at positive ⊢
    rw [sizes.activeListSize] at positive ⊢
    simpa using loadingStacked.front positive
  · exact imaged.within _ (loading.accessible address member).2.ne_zero
  · rw [env, leaf]
    have recency := perm.nodup_iff.2 nodup
    rw [Env.recency_eq] at recency
    refine ⟨recency, fun address member => ?_, fun address member => ?_, fun address member => ?_,
      fun _ address member => ?_, fun _ page some => ?_⟩
    · rw [← Env.recency_eq] at member
      exact loadingStacked.users address (perm.mem_iff.1 member)
    · have inPages : address ∈ pages ++ [stackAddress] := by
        refine perm.mem_iff.1 ?_
        rw [Env.recency_eq]
        exact List.mem_append_left _ member
      rw [hides.others]
      · exact loadingStacked.accessible address inPages
      · rw [pageOf_mul_pageSize (loadingStacked.users address inPages)]
        exact fun isHidden => (List.nodup_append.1 recency).2.2 address member address isHidden rfl
    · refine (hides.hidden _ ?_).1
      rwa [pageOf_mul_pageSize (loadingStacked.users address (second member))]
    · refine (hides.hidden _ ?_).2
      rwa [pageOf_mul_pageSize (loadingStacked.users address (second member))]
    · rw [← Env.recency_eq]
      exact perm.mem_iff.2 ((mapped page).1 some)
  · have inPages : page * pageSize ∈ pages := by
      refine (List.mem_append.1 ((mapped page).1 some)).resolve_right fun onStack => different ?_
      exact (pageOf_mul page).symm.trans (congrArg pageOf (List.mem_singleton.1 onStack))
    have accessible := loading.accessible _ inPages
    rw [pageOf_mul] at accessible
    have contents : ((hidden.setCr3 state.cr3).space slot).content page =
        (imagedState.space slot).content page := by
      rw [same.space, content, stack.content page different, flagged.content]
    rw [contents]
    exact imaged.copied segment member page touches accessible.2.ne_zero
  · rw [same.space, content, stack.zeros]
  · refine ⟨cleared.space slot, ⟨fun page content found => ?_, fun page missing => ?_⟩, ?_⟩
    · rw [flagged.diskFrame, flagged.stored]
      exact imaged.stores.written page content found
    · rw [flagged.diskFrame, flagged.stored, ← prepared.space]
      exact imaged.stores.others page missing
    · refine stack.filed.congr ?_ rfl rfl hides.diskFrame hides.stored
      rw [← List.length_eq_zero_iff, ← count]
      change _ ↔ _ ≤ Set.ncard {page | cleared.leaf .disk slot page ≠ 0}
      omega

/-- Flags need no frames. -/
theorem Flagged.spends (flagged : Flagged layout ram slot state next) (inv : Inv layout ram state)
    (free : next.freeFrameList = state.freeFrameList)
    (mapped : ∀ page, state.leaf .user slot page ≠ 0 → next.leaf .user slot page ≠ 0) :
    Spends slot places filed state next := by
  apply Uses.spends_empty
  apply Uses.of_stable flagged.calm.toStable flagged.acts inv.toLedger mapped _ (congrArg List.length free).ge
    (congrArg List.length flagged.calm.diskFree).ge
  intro page some
  have same : next.leaf .disk slot page = state.leaf .disk slot page := congrFun flagged.diskFrame page
  rwa [same]

/-- What was missing when the kernel stopped: a working set, or some of what the program needs. -/
def Missing (slot : Nat) (program : UserProgram) (pageWSSize : Nat) (places : Finset Place) (filed : Finset Nat)
    (start : KernelState) : Prop :=
  pageWSSize = 0 ∨ ((∀ segment ∈ program.segments, ¬ segment.Touches stackPage) →
    Lacks slot places filed 0xFFFFFFFF (program.loadedPages pageWSSize) start)

/-- The steps of `envCreate` from where the new page directory is active. -/
theorem loadProgram_spec (valid : layout.Valid) (vacant : state.Vacant slot) (inv : Inv layout ram state)
    (prepared : Prepared layout ram slot program pageWSSize secondListSize state start)
    (furnished : Furnished slot program state start)
    (sound : ∀ segment ∈ program.segments, segment.Sound)
    (inside : ∀ segment ∈ program.segments, segment.fileEnd < userTop)
    (apart : program.segments.Pairwise ProgramSegment.Apart)
    (covers : ∀ page ∈ program.loadedPages pageWSSize ++ [stackPage], pagePlaces slot page ⊆ places)
    (provides : ∀ page ∈ program.storedPages, Provides slot places filed page) :
    let pages := (program.loadedPages pageWSSize).map (· * pageSize)
    let fail := onStop (pageWSSize = 0) fun next => Stalled layout ram slot start next ∧
      Missing slot program pageWSSize places filed start
    wp (loadSegments slot program program.segments ((pageWSSize + (wordSize - 1)) % wordSize) 0xFFFFFFFF)
      (fun _ imaged => wp (clearModifiedBits slot)
        (fun _ cleared => wp (allocateStackPage slot)
          (fun _ stacked => wp (clearPresentBits slot (stacked.envs slot).secondList)
            (fun _ hidden =>
              Created layout ram slot program pageWSSize secondListSize pages state (hidden.setCr3 state.cr3) ∧
                tableChanges 0xFFFFFFFF (program.loadedPages pageWSSize) < twsMaxSize)
            fail stacked) fail cleared) fail imaged) fail start := by
  intro pages fail
  obtain ⟨coversLoaded, coversStack⟩ := List.forall_mem_append.1 covers
  obtain ⟨providesLoaded, providesStack⟩ := List.forall_mem_append.1 provides
  have providesSegments : ∀ segment ∈ program.segments, ∀ page ∈ segment.filedPages,
      Provides slot places filed page := fun segment member page isFiled =>
    providesLoaded page (List.mem_flatMap.2 ⟨segment, member, isFiled⟩)
  have size := prepared.pageWSMaxSize
  have small := prepared.small
  have room : 0 + (pageWSSize + (wordSize - 1)) % wordSize < (start.envs slot).pageWSMaxSize ∨
      (start.envs slot).pageWSMaxSize = 0 := by
    rw [size]
    simp only [pwsMaxSize, wordSize] at small ⊢
    omega
  have sizeBound : (start.envs slot).activeListSize < wordSize := by
    rw [prepared.activeListSize]
    simp only [toInt32, wordSize]
    split <;> omega
  refine wp_mono (loadSegments_spec valid program furnished.progName (prepared.loading vacant
    (toUInt32 ((start.envs slot).activeListSize - 1))) rfl List.nodup_nil
    (Imaged.none program _ fun page => ?_) sound inside apart room coversLoaded providesSegments 0xFFFFFFFF)
    (fun _ imaged loaded => ?_) fun stop next stopped => ?_
  · rw [prepared.space]
    exact vacant.leaf .user page
  swap
  · rw [size] at stopped
    exact stopped.mono id fun _ lost => ⟨lost.1, .inr fun _ => lost.2⟩
  obtain ⟨loading, distinct, fits, isImaged, loads⟩ := loaded
  refine wp_mono (clearModifiedBits_spec valid loading) (fun _ cleared holds => ?_) fun _ _ => id
  obtain ⟨loadingCleared, flagged, free, -⟩ := holds
  refine wp_mono (allocateStackPage_spec valid loadingCleared rfl sizeBound fits (coversStack _ (List.mem_singleton_self _))
    (providesStack _ (List.mem_singleton_self _))) (fun _ stacked stack => ?_) fun stop next stopped => ?_
  swap
  · rw [size] at stopped
    apply stopped.mono id
    rintro last ⟨stalled, none | scarce⟩
    · exact ⟨stalled, .inl none⟩
    · refine ⟨stalled, .inr fun offStack => ?_⟩
      have mapped (page : Nat) (some : imaged.leaf .user slot page ≠ 0) : cleared.leaf .user slot page ≠ 0 := by
        have stays := (loadingCleared.accessible _ (loading.listed page some)).2.ne_zero
        rwa [pageOf_mul] at stays
      have unmapped : cleared.leaf .user slot stackPage = 0 := by
        by_contra some
        have member := loadingCleared.listed stackPage some
        have here := (loading.accessible _ member).2.ne_zero
        rw [pageOf_mul] at here
        obtain ⟨segment, inSegments, touches⟩ := isImaged.within stackPage here
        exact offStack segment inSegments touches
      have spends : Spends slot places filed start cleared :=
        loads.spends.trans (flagged.spends loading.inv free mapped)
      exact .inl (spends.scarce (scarce unmapped))
  have perm := stack.loading.recorded.perm_recency
  refine wp_mono (clearPresentBits_spec valid stack.loading.inv _ fun address member => ?_)
    (fun _ hidden holds => ?_) fun _ _ => id
  · have inPages : address ∈ pages ++ [stackAddress] := by
      refine perm.mem_iff.1 ?_
      rw [Env.recency_eq]
      exact List.mem_append_right _ member
    exact ⟨stack.loading.users address inPages, (stack.loading.accessible address inPages).2⟩
  · refine ⟨created_of_hidden vacant inv prepared loading distinct isImaged flagged loadingCleared stack holds.1, ?_⟩
    have index := loads.index
    rw [furnished.tableLastWSIndex, Nat.zero_add] at index
    obtain ⟨few, same⟩ := index (by decide)
    exact same ▸ few

/-- A working set without pages. -/
theorem Env.Recorded.nil {env : Env} (small : env.pageWSMaxSize ≤ pwsMaxSize) (index : env.pageLastWSIndex = 0)
    (unused : env.pageWorkingSetList = (List.range env.pageWSMaxSize).reverse)
    (elements : ∀ index < env.pageWSMaxSize, env.ptrPageWorkingSet index = ⟨0, true⟩)
    (active : env.activeList = []) (second : env.secondList = []) : env.Recorded [] where
  fits := Nat.zero_le _
  size := small
  index := index.trans (Nat.zero_mod _).symm
  unused := by simp [unused, List.range_eq_range']
  elements := elements
  lists := by simp [active, second]

/-- The slot is named and has its sizes, and the first free frame is in hand. -/
theorem Inv.sized (inv : Inv layout ram state) {frame : Nat} {others : List Nat}
    (frames : state.freeFrameList = frame :: others) :
    let marked := state.setEnv slot { state.envs slot with
      envStatus := .unknown
      progName := program.name }
    let taken := (marked.setFreeFrameList others).setReferences frame 1
    let sized := taken.setEnv slot { taken.envs slot with
      pageWSMaxSize := pageWSSize
      secondListSize := toInt32 secondListSize
      activeListSize := toInt32 ((pageWSSize + (wordSize - secondListSize)) % wordSize) }
    SpaceBecomes layout ram slot [] state [frame] sized (state.space slot) ∧ Keeps slot [] state [frame] sized ∧
      sized.Fresh frame ∧ layout.Managed frame ∧ sized.references frame = 1 ∧
      sized.envs slot = { state.envs slot with
        envStatus := .unknown
        progName := program.name
        pageWSMaxSize := pageWSSize
        secondListSize := toInt32 secondListSize
        activeListSize := toInt32 ((pageWSSize + (wordSize - secondListSize)) % wordSize) } := by
  intro marked taken sized
  obtain ⟨becomesMark, keepsMark, -⟩ := @Inv.setEnv layout ram slot state inv [] { state.envs slot with
    envStatus := .unknown
    progName := program.name } rfl rfl rfl rfl
  obtain ⟨becomesTake, keepsTake, fresh, managed⟩ := becomesMark.inv.take slot [] frames 1
  have setSizes (hand : List Nat) := @Inv.setEnv layout ram slot taken becomesTake.inv hand
    { taken.envs slot with
      pageWSMaxSize := pageWSSize
      secondListSize := toInt32 secondListSize
      activeListSize := toInt32 ((pageWSSize + (wordSize - secondListSize)) % wordSize) } rfl rfl rfl rfl
  obtain ⟨becomesSize, keepsSize, -⟩ := setSizes [frame]
  refine ⟨⟨becomesSize.inv, becomesMark.acts.trans (becomesTake.acts.trans becomesSize.acts), ?_⟩,
    keepsMark.trans (keepsTake.trans keepsSize),
    (setSizes []).1.acts.fresh becomesTake.inv.toLedger (by simp) fresh (by simp), managed, ?_, ?_⟩
  · rw [becomesSize.space, becomesTake.space, becomesMark.space]
  · simp [sized, taken, KernelState.setEnv, KernelState.setReferences]
  · simp only [sized, taken, marked, KernelState.setEnv_self, KernelState.setReferences_envs,
      KernelState.setFreeFrameList_envs]

/-- The steps of `envCreate` before the program is loaded. -/
theorem initializeEnvironment_prepared (valid : layout.Valid) (vacant : state.Vacant slot)
    (inv : Inv layout ram state) {frame : Nat} {others : List Nat}
    (frames : state.freeFrameList = frame :: others) :
    let marked := state.setEnv slot { state.envs slot with
      envStatus := .unknown
      progName := program.name }
    let taken := (marked.setFreeFrameList others).setReferences frame 1
    let sized := taken.setEnv slot { taken.envs slot with
      pageWSMaxSize := pageWSSize
      secondListSize := toInt32 secondListSize
      activeListSize := toInt32 ((pageWSSize + (wordSize - secondListSize)) % wordSize) }
    wp (initializeEnvironment slot frame) (fun _ next =>
      Prepared layout ram slot program pageWSSize secondListSize state
        (next.setCr3 (next.envs slot).envCr3) ∧ next.cr3 = state.cr3 ∧
      Furnished slot program state (next.setCr3 (next.envs slot).envCr3))
      (onStop (pwsMaxSize < pageWSSize) fun _ => False) sized := by
  intro marked taken sized
  obtain ⟨becomesSized, keepsSized, fresh, managed, once, env⟩ :=
    @Inv.sized layout ram slot state program pageWSSize secondListSize inv frame others frames
  have vacantSized : sized.Vacant slot := by
    constructor <;> rw [env]
    · exact vacant.directory
    · exact vacant.disk
    · exact vacant.unused
    · exact vacant.active
    · exact vacant.second
  have size : (sized.envs slot).pageWSMaxSize = pageWSSize := by rw [env]
  refine wp_mono (initializeEnvironment_spec valid becomesSized.inv vacantSized fresh managed once)
    (fun _ next holds => ?_) fun stop next holds => size ▸ holds
  obtain ⟨ready, rfl, small, becomes, keeps, started, free, diskFree⟩ := holds
  have acts := becomesSized.acts.trans becomes.acts
  have startEnv := started.same
  have elements := started.elements
  rw [size] at small elements
  rw [env, vacant.unused] at startEnv
  have finish (start : KernelState) (isStart : start =
      (ready.setEnvFreeList (state.envFreeList.erase slot)).setCr3 (ready.envs slot).envCr3) :
      Prepared layout ram slot program pageWSSize secondListSize state start := by
    have same : SameMachine ready start := by
      rw [isStart]
      rfl
    have envStart : start.envs slot = ready.envs slot := by rw [same.envs]
    have positive : frame ≠ 0 := by
      have := managed.pos valid
      omega
    refine ⟨same.inv becomes.inv, ?_, ?_, ?_, ?_, ?_, ?_, small, ?_, ?_, ?_, ?_, ?_, ?_⟩
    · rw [isStart]
      exact acts.reschedule state.envFreeList state.cr3
    · have keepsAll := keepsSized.trans keeps
      refine ⟨fun other held => ?_, fun diskFrame held => ?_⟩
      · rw [same.held]
        exact keepsAll.held other held
      · rw [same.heldDisk]
        exact keepsAll.heldDisk diskFrame held
    · rw [isStart]
      rfl
    · rw [KernelState.root, envStart, startEnv]
      exact positive
    · rw [KernelState.root, envStart, isStart, startEnv]
      rfl
    · rw [same.space, becomes.space, becomesSized.space]
    · rw [envStart, startEnv]
    · rw [envStart, startEnv]
    · rw [envStart, startEnv]
    · rw [envStart, startEnv]
    · rw [envStart]
      refine .nil ?_ ?_ ?_ ?_ ?_ ?_ <;> rw [startEnv]
      · exact small
      · exact List.append_nil _
      · exact elements
      · exact vacant.active
      · exact vacant.second
    · rw [envStart, startEnv]
      exact vacant.active
  refine ⟨finish _ rfl, acts.quiet.cr3, ?_, ?_, ?_, diskFree⟩
  · exact congrArg Env.progName startEnv
  · exact congrArg Env.tableLastWSIndex startEnv
  · rw [frames, List.length_cons]
    exact congrArg (List.length · + 1) free.symm

/-- The kernel stopped while it loaded a program into a slot that was ready. -/
structure Failed (layout : BootLayout) (ram : Nat → Page) (slot : Nat) (program : UserProgram)
    (pageWSSize secondListSize : Nat) (places : Finset Place) (filed : Finset Nat) (state next : KernelState) :
    Prop where
  ready : ∃ start, Prepared layout ram slot program pageWSSize secondListSize state start ∧
    Furnished slot program state start ∧ Stalled layout ram slot start next ∧
    Missing slot program pageWSSize places filed start

theorem Failed.abandoned (failed : Failed layout ram slot program pageWSSize secondListSize places filed state next) :
    Abandoned layout ram slot state next := by
  obtain ⟨start, prepared, -, stalled, -⟩ := failed.ready
  exact prepared.abandoned stalled

/-- With a free slot and a free frame, the program is loaded, or something was missing for it. -/
theorem envCreate_loads (valid : layout.Valid) (inv : Inv layout ram state) {slots others : List Nat} {frame : Nat}
    (free : state.envFreeList = slot :: slots) (frames : state.freeFrameList = frame :: others)
    (vacant : state.Vacant slot)
    (sound : ∀ segment ∈ program.segments, segment.Sound)
    (inside : ∀ segment ∈ program.segments, segment.fileEnd < userTop)
    (apart : program.segments.Pairwise ProgramSegment.Apart) (pageWSSize secondListSize : Nat)
    (covers : ∀ page ∈ program.loadedPages pageWSSize ++ [stackPage], pagePlaces slot page ⊆ places)
    (provides : ∀ page ∈ program.storedPages, Provides slot places filed page) :
    wp (envCreate (some program) pageWSSize secondListSize)
      (fun result next => result = some slot ∧
        Created layout ram slot program pageWSSize secondListSize
          ((program.loadedPages pageWSSize).map (· * pageSize)) state next ∧
        tableChanges 0xFFFFFFFF (program.loadedPages pageWSSize) < twsMaxSize)
      (onStop (pageWSSize = 0 ∨ pwsMaxSize < pageWSSize)
        (Failed layout ram slot program pageWSSize secondListSize places filed state)) state := by
  obtain ⟨becomesMark, keepsMark, -⟩ := @Inv.setEnv layout ram slot state inv []
    { state.envs slot with
      envStatus := .unknown
      progName := program.name } rfl rfl rfl rfl
  obtain ⟨becomesTake, keepsTake, fresh, managed⟩ := becomesMark.inv.take slot [] frames 1
  have bounds := managed.pos valid
  have bound : frameOf (toPhysicalAddress frame) < state.numberOfFrames := by
    rw [frameOf_toPhysicalAddress, inv.size]
    exact bounds.2
  unfold envCreate
  simp only [wp_bind, wp_get, free, wp_modifyEnv, allocateFrame, KernelState.setEnv_freeFrameList, frames, wp_modify,
    wp_pure]
  rw [wp_staticKernelVirtualAddress (by exact bound)]
  simp only [KernelState.setReferences_twice, frameOf_toPhysicalAddress]
  refine wp_mono (initializeEnvironment_prepared valid vacant inv frames) (fun _ next holds => ?_)
    fun stop next => onStop.mono .inr fun _ => False.elim
  obtain ⟨prepared, cr3, furnished⟩ := holds
  have fails (stop : Stop) (last : KernelState)
      (holds : onStop (pageWSSize = 0) (fun last =>
        Stalled layout ram slot (next.setCr3 (next.envs slot).envCr3) last ∧
          Missing slot program pageWSSize places filed (next.setCr3 (next.envs slot).envCr3)) stop last) :
      onStop (pageWSSize = 0 ∨ pwsMaxSize < pageWSSize)
        (Failed layout ram slot program pageWSSize secondListSize places filed state) stop last :=
    onStop.mono .inl (fun _ failed => ⟨_, prepared, furnished, failed⟩) holds
  rw [cr3]
  refine wp_mono (loadProgram_spec valid vacant inv prepared furnished sound inside apart covers provides)
    (fun _ imaged holds => ?_) fails
  refine wp_mono holds (fun _ cleared holds => ?_) fails
  refine wp_mono holds (fun _ stacked holds => ?_) fails
  exact wp_mono holds (fun _ hidden created => ⟨trivial, created⟩) fails

end Loading

/-- A new environment, or none. Without a working set, or with one that does not fit
`ptr_pageWorkingSet`, there is no behaviour to speak of. -/
theorem envCreate_spec (valid : layout.Valid) (inv : Inv layout ram state)
    (vacant : ∀ slot ∈ state.envFreeList, state.Vacant slot) (program : UserProgram)
    (sound : ∀ segment ∈ program.segments, segment.Sound)
    (inside : ∀ segment ∈ program.segments, segment.fileEnd < userTop)
    (apart : program.segments.Pairwise ProgramSegment.Apart) (pageWSSize secondListSize : Nat) :
    wp (envCreate (some program) pageWSSize secondListSize)
      (fun result next => match result with
        | none => next = state ∧ state.envFreeList = []
        | some slot => state.envFreeList.head? = some slot ∧ ∃ pages,
            Created layout ram slot program pageWSSize secondListSize pages state next)
      (onStop (pageWSSize = 0 ∨ pwsMaxSize < pageWSSize) fun next =>
        ∃ slot, state.envFreeList.head? = some slot ∧ Abandoned layout ram slot state next) state := by
  cases free : state.envFreeList with
  | nil =>
      unfold envCreate
      simp only [wp_bind, wp_get, free, wp_pure]
      exact ⟨trivial, trivial⟩
  | cons slot slots =>
      have isVacant := vacant slot (by rw [free]; exact List.mem_cons_self ..)
      have head : (slot :: slots).head? = some slot := rfl
      cases frames : state.freeFrameList with
      | nil =>
          have becomesMark := (@Inv.setEnv layout ram slot state inv [] { state.envs slot with
            envStatus := .unknown
            progName := program.name } rfl rfl rfl rfl).1
          unfold envCreate
          simp only [wp_bind, wp_get, free, wp_modifyEnv, allocateFrame, KernelState.setEnv_freeFrameList, frames]
          refine ⟨slot, head, becomesMark.inv, becomesMark.acts, .inl ⟨rfl, ?_⟩⟩
          constructor <;> rw [KernelState.setEnv_self]
          · exact isVacant.directory
          · exact isVacant.disk
          · exact isVacant.unused
          · exact isVacant.active
          · exact isVacant.second
      | cons frame others =>
          apply wp_mono (envCreate_loads valid inv free frames isVacant sound inside apart pageWSSize secondListSize
            (fun page member => pagePlaces_subset program.storedPages member)
            fun page member => provides_of_mem (program.loadedPages pageWSSize ++ [stackPage]) member)
          · rintro result next ⟨rfl, created, -⟩
            exact ⟨head, _, created⟩
          · exact fun stop next stopped => stopped.mono id fun _ failed => ⟨slot, head, failed.abandoned⟩

end Fos.Kernel
