import Fos.Kernel.Running

/-! Bringing a page in, the end of every branch of the page fault handler, and what a fault
that was served leaves. -/

set_option autoImplicit false

namespace Fos.Kernel

open Foundation

variable {layout : BootLayout} {ram : Nat → Page} {slot element faultVa : Nat}
  {strict tidy : Prop} {state next : KernelState}

/-! ### Bringing a page in -/

/-- The page has a place in the page file, or can get one. -/
def KernelState.Legal (state : KernelState) (slot address : Nat) : Prop :=
  state.leaf .disk slot (pageOf address) ≠ 0 ∨
    (address < ustackTop ∧ ustackBottom ≤ address ∧
      (state.dirWord .disk slot (pageOf address / 1024) ≠ 0 ∨ 2 ≤ state.freeFrameList.length))

/-- What bringing in a page makes of the address space. -/
structure Brought (state : KernelState) (slot page : Nat) (space : Space) : Prop where
  entry : ∃ entry, space.entry = Function.update (state.leaf .user slot) page entry ∧
    Accessible entry
  moves : state.leaf .user slot page = 0 → Space.Moves (state.space slot) space
  others : ∀ other, other ≠ page → space.diskFrame other = state.leaf .disk slot other
  placed : state.leaf .disk slot page ≠ 0 ∨ state.diskFreeFrameList ≠ [] ∨ page < pageOf ustackBottom →
    space.diskFrame page ≠ 0
  kept : state.leaf .disk slot page ≠ 0 ∨ page < pageOf ustackBottom →
    space.diskFrame page = state.leaf .disk slot page

theorem accessible_pageEntry (frame : Nat) :
    Accessible (pageEntry frame (permUser ||| permWriteable ||| permPresent)) := by
  refine ⟨?_, ?_, ?_⟩ <;> rw [testBit_pageEntry _ _ (by decide)] <;> decide

namespace Brought

variable {page entry diskFrame : Nat} {content : Page}

/-- The page was read from its place in the page file. -/
theorem of_read (accessible : Accessible entry) (placed : state.leaf .disk slot page ≠ 0) :
    Brought state slot page ((state.space slot).map page entry ((state.space slot).stored page)) where
  entry := ⟨entry, rfl, accessible⟩
  moves unmapped := .single (.load unmapped accessible.2.ne_zero fun _ => rfl)
  others _ _ := rfl
  placed _ := placed
  kept _ := rfl

/-- A stack page without a place, when the page file is full. -/
theorem of_full (accessible : Accessible entry) (unplaced : state.leaf .disk slot page = 0)
    (full : state.diskFreeFrameList = []) (stack : ¬ page < pageOf ustackBottom) :
    Brought state slot page ((state.space slot).map page entry content) where
  entry := ⟨entry, rfl, accessible⟩
  moves unmapped := .single (.load unmapped accessible.2.ne_zero fun placed => absurd unplaced placed)
  others _ _ := rfl
  placed some := by
    rcases some with placed | space | low
    · exact absurd unplaced placed
    · exact absurd full space
    · exact absurd low stack
  kept _ := rfl

/-- A stack page that gets a place. -/
theorem of_placed {stored : Page} (accessible : Accessible entry) (unplaced : state.leaf .disk slot page = 0)
    (positive : diskFrame ≠ 0) (stack : ¬ page < pageOf ustackBottom) :
    Brought state slot page (((state.space slot).map page entry content).place page diskFrame stored) where
  entry := ⟨entry, rfl, accessible⟩
  moves unmapped := by
    have loaded : Space.Move (state.space slot) ((state.space slot).map page entry content) :=
      .load unmapped accessible.2.ne_zero fun placed => absurd unplaced placed
    exact .tail (.single loaded) (.reserve unplaced positive)
  others _ different := Function.update_of_ne different _ _
  placed _ := by simpa [Space.place] using positive
  kept either := by
    rcases either with placed | low
    · exact absurd unplaced placed
    · exact absurd low stack

end Brought

/-- A fresh frame is mapped at the address, where any program may write it. -/
structure FrameMapped (layout : BootLayout) (ram : Nat → Page) (slot address frame : Nat) (content : Page)
    (state next : KernelState) : Prop where
  becomes : SpaceBecomes layout ram slot [] state [] next ((state.space slot).map (pageOf address)
    (pageEntry frame (permUser ||| permWriteable ||| permPresent)) content)
  keeps : state.leaf .user slot (pageOf address) = 0 ∨
    hasPerm (state.leaf .user slot (pageOf address)) permPresent = true → Keeps slot [] state [] next
  calm : Calm slot state next
  frames : state.freeFrameList.length ≤ next.freeFrameList.length + 1

theorem wp_mapFresh {rest : KernelM Unit} {post : Unit → KernelState → Prop} {stopped : KernelState → Prop}
    (valid : layout.Valid) (running : Running layout ram slot state) (low : faultVa < userTop)
    (present : state.dirWord .user slot (pageOf faultVa / 1024) ≠ 0)
    (full : state.freeFrameList = [] → stopped state)
    (continues : ∀ next frame content, FrameMapped layout ram slot faultVa frame content state next →
      wp rest post (onPanic stopped) next) :
    wp (do
      let frame ← allocateFrame
      mapFrame ((← get).envs slot).envPageDirectory frame faultVa (permUser ||| permWriteable ||| permPresent)
      rest) post (onPanic stopped) state := by
  simp only [wp_bind]
  refine wp_mono (allocateFrame_spec running.inv slot) (fun frame first taken => ?_)
    fun stop next => onPanic.mono fun _ none => none.1 ▸ full none.2
  obtain ⟨becomesTake, keepsTake, calmTake, fresh, managed, unreferenced, -, free⟩ := taken
  have runningTake := running.stable becomesTake calmTake.toStable
  have presentTake := calmTake.present present
  simp only [wp_get, root_eq]
  refine wp_mono (mapFrame_spec valid becomesTake.inv runningTake.live low fresh managed unreferenced
    (by decide)) (fun _ second mapped => ?_) fun stop next => onPanic.mono fun _ none =>
      absurd none.2.2 presentTake
  obtain ⟨becomesMap, keepsMap, calmMap, freeMap⟩ := mapped
  have freeMap := freeMap presentTake
  refine continues second frame (first.mem frame).words
    ⟨⟨becomesMap.inv, becomesTake.acts.trans becomesMap.acts, by rw [becomesMap.space, becomesTake.space]⟩,
      fun either => keepsTake.trans (keepsMap ?_), calmTake.trans calmMap, ?_⟩
  · exact (becomesTake.entry _).symm ▸ either
  · rw [free, List.length_cons]
    omega

/-- The element is at the head of `ActiveList` with its page in memory. -/
def BringsIn (layout : BootLayout) (ram : Nat → Page) (slot element page : Nat) (state next : KernelState) : Prop :=
  ∃ space, SpaceBecomes layout ram slot [] state [] next space ∧ Brought state slot page space ∧
    (state.leaf .user slot page = 0 ∨ hasPerm (state.leaf .user slot page) permPresent = true →
      Keeps slot [] state [] next) ∧
    Running layout ram slot next ∧
    next.envs slot = { state.envs slot with activeList := element :: (state.envs slot).activeList }

/-- The last change: the element comes to the head of the list. -/
theorem wp_headActive {third : KernelState} {page : Nat} {space : Space} {fail : Stop → KernelState → Prop}
    (running : Running layout ram slot state)
    (becomes : SpaceBecomes layout ram slot [] state [] third space) (stable : Stable slot state third)
    (brought : Brought state slot page space)
    (keeps : state.leaf .user slot page = 0 ∨ hasPerm (state.leaf .user slot page) permPresent = true →
      Keeps slot [] state [] third) :
    wp (modifyEnv slot fun env => { env with activeList := element :: env.activeList })
      (fun _ next => BringsIn layout ram slot element page state next) fail third := by
  have same := stable.placed running.placed
  have last := (Shifted.refl (running.stable becomes stable)).withLists
    (third.envs slot).ptrPageWorkingSet (third.envs slot).pageWorkingSetList
    (element :: (third.envs slot).activeList) (third.envs slot).secondList
  refine ⟨space, ⟨last.becomes.inv, becomes.acts.trans last.becomes.acts,
    last.becomes.space.trans becomes.space⟩, brought, fun either => (keeps either).trans last.keeps, last.running, ?_⟩
  rw [KernelState.setEnv_self, same]

/-- The page may be mapped, but is in no list. A legal access fails only where no frame is left, with nothing changed. -/
def FailsToBringIn (layout : BootLayout) (ram : Nat → Page) (slot address : Nat) (state next : KernelState) : Prop :=
  Inv layout ram next ∧ Acts slot [] state [] next ∧ next.envs slot = state.envs slot ∧
    (next.leaf .user slot = state.leaf .user slot ∨
      ∃ entry, next.leaf .user slot = Function.update (state.leaf .user slot) (pageOf address) entry) ∧
    (state.Legal slot address → next = state ∧ state.freeFrameList = [])

/-- The element comes to the head of `ActiveList` with its page in memory, or the handler panics. -/
theorem bringIn_spec (valid : layout.Valid) (running : Running layout ram slot state)
    (page : Env.UserPage faultVa)
    (present : state.dirWord .user slot (pageOf faultVa / 1024) ≠ 0) :
    wp (bringIn slot element faultVa) (fun _ next => BringsIn layout ram slot element (pageOf faultVa) state next)
      (onPanic (FailsToBringIn layout ram slot faultVa state)) state := by
  obtain ⟨aligned, low⟩ := page
  refine wp_mapFresh valid running low present
    (fun noFrames => ⟨running.inv, .refl slot [] _, rfl, .inl rfl, fun _ => ⟨rfl, noFrames⟩⟩)
    fun second frame content mapped => ?_
  have runningSecond := running.stable mapped.becomes mapped.calm.toStable
  have accessible := accessible_pageEntry frame
  have leafSecond : second.leaf .user slot = Function.update (state.leaf .user slot) (pageOf faultVa)
      (pageEntry frame (permUser ||| permWriteable ||| permPresent)) := congrArg Space.entry mapped.becomes.space
  have here : second.leaf .user slot (pageOf faultVa) =
      pageEntry frame (permUser ||| permWriteable ||| permPresent) := by
    rw [leafSecond, Function.update_self]
  have clean : (second.leaf .user slot (pageOf faultVa)).testBit 6 = false := by
    rw [here, testBit_pageEntry _ _ (by decide)]
    decide
  have diskSecond : second.leaf .disk slot = state.leaf .disk slot :=
    congrArg Space.diskFrame mapped.becomes.space
  have envSecond : second.envs slot = state.envs slot := mapped.calm.placed running.placed
  simp only [wp_bind]
  refine wp_mono (pfReadEnvPage_spec valid mapped.becomes.inv low runningSecond.curenv runningSecond.active
    (by rw [here, hasPerm_present]; exact accessible.1) clean) (fun result third read => ?_) fun _ _ never => never
  rw [diskSecond] at read
  rcases read with ⟨unplaced, rfl, rfl⟩ | ⟨placed, rfl, becomesRead, keepsRead, calmRead, -⟩
  · have notInFile : (ePageNotExistInPF : Int) = ePageNotExistInPF := rfl
    rw [if_pos notInFile]
    by_cases stack : faultVa < ustackTop ∧ ustackBottom ≤ faultVa
    · have above : ¬ pageOf faultVa < pageOf ustackBottom := not_lt.2 (Nat.div_le_div_right stack.2)
      rw [if_pos stack, wp_bind]
      refine wp_mono (pfAddEmptyEnvPage_spec valid mapped.becomes.inv low) (fun result fourth added => ?_)
        fun stop next => onPanic.mono fun panicked stopped => ?_
      · rcases added with ⟨-, unplacedNow, noSpace⟩ | ⟨-, diskFrame, placedNow⟩
        · exact wp_headActive running ⟨unplacedNow.becomes.inv, mapped.becomes.acts.trans unplacedNow.becomes.acts,
            unplacedNow.becomes.space.trans mapped.becomes.space⟩ (mapped.calm.toStable.trans unplacedNow.stable)
            (.of_full accessible unplaced (mapped.calm.diskFree ▸ noSpace.1) above)
            fun either => (mapped.keeps either).trans unplacedNow.keeps
        · obtain ⟨stored, becomes, -⟩ := placedNow.becomes
          rw [mapped.becomes.space] at becomes
          exact wp_headActive running ⟨becomes.inv, mapped.becomes.acts.trans becomes.acts, becomes.space⟩
            (mapped.calm.toStable.trans placedNow.stable) (.of_placed accessible unplaced placedNow.positive above)
            fun either => (mapped.keeps either).trans placedNow.keeps
      · obtain ⟨unplacedNow, noMemory⟩ := stopped
        refine ⟨unplacedNow.becomes.inv, mapped.becomes.acts.trans unplacedNow.becomes.acts, ?_,
          .inr ⟨pageEntry frame (permUser ||| permWriteable ||| permPresent), ?_⟩,
          fun legal => ?_⟩
        · exact (unplacedNow.stable.placed runningSecond.placed).trans envSecond
        · exact (congrArg Space.entry unplacedNow.becomes.space).trans leafSecond
        · obtain ⟨noFrames, absent⟩ := noMemory runningSecond.placed
          rcases legal with placed | ⟨-, -, there | enough⟩
          · exact absurd unplaced placed
          · exact absurd absent (mapped.calm.present there)
          · have frames := mapped.frames
            rw [noFrames, List.length_nil] at frames
            omega
    · rw [if_neg stack, wp_panic]
      refine ⟨mapped.becomes.inv, mapped.becomes.acts, envSecond, .inr ⟨_, leafSecond⟩, fun legal => ?_⟩
      rcases legal with placed | ⟨below, above, -⟩
      · exact absurd unplaced placed
      · exact absurd ⟨below, above⟩ stack
  · have inFile : ¬ (0 : Int) = ePageNotExistInPF := by decide
    rw [if_neg inFile]
    rw [mapped.becomes.space, Space.setContent_map] at becomesRead
    exact wp_headActive running ⟨becomesRead.inv, mapped.becomes.acts.trans becomesRead.acts, becomesRead.space⟩
      (mapped.calm.trans calmRead).toStable (.of_read accessible placed)
      fun either => (mapped.keeps either).trans keepsRead

/-! ### Environments and their lists -/

/-- What holds of every environment that was loaded, also after a panic. -/
structure Loaded (strict tidy : Prop) (slot : Nat) (state : KernelState) : Prop where
  live : state.root .user slot ≠ 0
  placed : (state.envs slot).diskEnvPgdir ≠ none
  listed : (state.envs slot).Listed
  resident : Resident strict tidy (state.leaf .user slot) (state.envs slot).activePages
    (state.envs slot).secondPages

/-- An environment that can run. -/
structure Healthy (strict tidy : Prop) (slot : Nat) (state : KernelState) : Prop where
  live : state.root .user slot ≠ 0
  placed : (state.envs slot).diskEnvPgdir ≠ none
  lists : (state.envs slot).LruLists
  resident : Resident strict tidy (state.leaf .user slot) (state.envs slot).activePages
    (state.envs slot).secondPages

theorem Healthy.loaded (healthy : Healthy strict tidy slot state) :
    Loaded strict tidy slot state :=
  ⟨healthy.live, healthy.placed, healthy.lists.listed, healthy.resident⟩

/-- What a page fault does to the page file: the page may get a place, if it is in no list and not below the
stack. -/
structure Refiled (slot address : Nat) (state next : KernelState) : Prop where
  others : ∀ page, page ≠ pageOf address → next.leaf .disk slot page = state.leaf .disk slot page
  kept : state.leaf .disk slot (pageOf address) ≠ 0 ∨ pageOf address < pageOf ustackBottom →
    next.leaf .disk slot (pageOf address) = state.leaf .disk slot (pageOf address)
  given : address ∉ (state.envs slot).recency → state.diskFreeFrameList ≠ [] ∨ pageOf address < pageOf ustackBottom →
    next.leaf .disk slot (pageOf address) ≠ 0

/-- A page fault was served: the page is the most recent one, and a page left memory if
it dropped off the lists. -/
structure Served (layout : BootLayout) (ram : Nat → Page) (strict tidy : Prop)
    (slot address : Nat) (state next : KernelState) : Prop where
  acts : Acts slot [] state [] next
  running : Running layout ram slot next
  healthy : Healthy strict tidy slot next
  recency : (next.envs slot).recency =
    touch (state.envs slot).pageWSMaxSize address (state.envs slot).recency
  lists : ∃ elements unused active second,
    next.envs slot = (state.envs slot).withLists elements unused active second
  mapped : ∀ page, next.leaf .user slot page ≠ 0 ↔ page = pageOf address ∨
    state.leaf .user slot page ≠ 0 ∧ (page * pageSize ∈ (state.envs slot).recency →
      page * pageSize ∈ (next.envs slot).recency)
  keeps : tidy → Keeps slot [] state [] next
  moves : tidy → Space.Moves (state.space slot) (next.space slot)
  backed : state.diskFreeFrameList ≠ [] → (state.space slot).Backed → (next.space slot).Backed
  refiled : Refiled slot address state next

/-- The handler panicked. -/
structure Halted (layout : BootLayout) (ram : Nat → Page) (tidy : Prop) (slot address : Nat)
    (state next : KernelState) : Prop where
  inv : Inv layout ram next
  acts : Acts slot [] state [] next
  loaded : Loaded False False slot next
  legal : tidy → state.Legal slot address → Keeps slot [] state [] next ∧ Loaded False tidy slot next
  exhausted : address < ustackTop → state.Legal slot address → state.freeFrameList = []

theorem KernelState.Legal.mono {address : Nat} (legal : state.Legal slot address)
    (places : next.leaf .disk slot (pageOf address) = state.leaf .disk slot (pageOf address))
    (tables : state.dirWord .disk slot (pageOf address / 1024) ≠ 0 →
      next.dirWord .disk slot (pageOf address / 1024) ≠ 0)
    (free : state.freeFrameList.length ≤ next.freeFrameList.length) :
    next.Legal slot address := by
  rcases legal with placed | ⟨below, above, there | enough⟩
  · exact .inl (places ▸ placed)
  · exact .inr ⟨below, above, .inl (tables there)⟩
  · exact .inr ⟨below, above, .inr (enough.trans free)⟩

section Arranged

/-! The lists as the handler leaves them before it brings the page in, with the element already named after it. -/

variable {start : KernelState} {unused front back : List Nat} {space : Space} (page : Env.UserPage faultVa)
  (before : Shifted layout ram slot start state ((start.envs slot).withLists
    ((start.envs slot).setAddress element faultVa) unused front back) space)
  (apart : element ∉ front ++ back)
  (resident : Resident strict tidy space.entry ((start.envs slot).addresses front)
    ((start.envs slot).addresses back))
  (unlisted : faultVa ∉ (start.envs slot).addresses front ++ (start.envs slot).addresses back)
  (lists : ((start.envs slot).withLists ((start.envs slot).setAddress element faultVa) unused
    (element :: front) back).LruLists)

include page before apart resident unlisted lists

theorem BringsIn.served
    (recency : ((start.envs slot).withLists ((start.envs slot).setAddress element faultVa) unused
      (element :: front) back).recency =
        touch (start.envs slot).pageWSMaxSize faultVa (start.envs slot).recency)
    (mapped : ∀ number, number ≠ pageOf faultVa → (space.entry number ≠ 0 ↔
      start.leaf .user slot number ≠ 0 ∧ (number * pageSize ∈ (start.envs slot).recency →
        number * pageSize ∈ ((start.envs slot).withLists
          ((start.envs slot).setAddress element faultVa) unused (element :: front) back).recency)))
    (brought : BringsIn layout ram slot element (pageOf faultVa) state next) :
    Served layout ram strict tidy slot faultVa start next := by
  obtain ⟨apartFront, apartBack⟩ := not_or.1 (mt List.mem_append.2 apart)
  have leaf := before.leaf
  have unmapped (isTidy : tidy) : state.leaf .user slot (pageOf faultVa) = 0 := by
    rw [leaf]
    by_contra some
    have := resident.listed isTidy _ some
    rw [pageOf_mul_pageSize page] at this
    exact unlisted this
  obtain ⟨after, becomes, brought, keeps, running, env⟩ := brought
  have env : next.envs slot = (start.envs slot).withLists
      ((start.envs slot).setAddress element faultVa) unused (element :: front) back := by
    rw [env, before.env]
    rfl
  obtain ⟨entry, entries, accessible⟩ := brought.entry
  have leafNext : next.leaf .user slot =
      Function.update space.entry (pageOf faultVa) entry :=
    (congrArg Space.entry becomes.space).trans (leaf ▸ entries)
  have mappedNext (number : Nat) : next.leaf .user slot number ≠ 0 ↔ number = pageOf faultVa ∨
      start.leaf .user slot number ≠ 0 ∧ (number * pageSize ∈ (start.envs slot).recency →
        number * pageSize ∈ (next.envs slot).recency) := by
    rw [leafNext]
    by_cases same : number = pageOf faultVa
    · simp only [same, Function.update_self, ne_eq, accessible.2.ne_zero, not_false_eq_true,
        true_or]
    · rw [Function.update_of_ne same, env]
      simp only [same, false_or]
      exact mapped number same
  refine ⟨before.becomes.acts.trans becomes.acts, running,
    ⟨running.live, running.placed, env ▸ lists, ?_⟩, env ▸ recency, ⟨_, _, _, _, env⟩, mappedNext,
    fun isTidy => before.keeps.trans (keeps (.inl (unmapped isTidy))), fun isTidy => ?_,
    fun free backed number some => ?_, fun number different => ?_, fun either => ?_, fun _ free => ?_⟩
  · rw [leafNext, env, Env.activePages_setAddress apartFront, Env.secondPages_setAddress apartBack]
    exact resident.load page unlisted accessible
  · rw [becomes.space]
    exact before.moves.trans (before.becomes.space ▸ brought.moves (unmapped isTidy))
  · rw [becomes.space]
    by_cases same : number = pageOf faultVa
    · exact same ▸ brought.placed (.inr (.inl (before.diskFree ▸ free)))
    · rw [brought.others number same, before.disk]
      rcases (mappedNext number).1 some with equal | ⟨was, -⟩
      · exact absurd equal same
      · exact backed number was
  · exact (becomes.diskFrame number).trans ((brought.others number different).trans (congrFun before.disk number))
  · refine (becomes.diskFrame _).trans ((brought.kept ?_).trans (congrFun before.disk _))
    rwa [before.disk]
  · exact (becomes.diskFrame _).trans_ne (brought.placed (.inr (before.diskFree ▸ free)))

theorem FailsToBringIn.halted (failed : FailsToBringIn layout ram slot faultVa state next) :
    Halted layout ram tidy slot faultVa start next := by
  obtain ⟨apartFront, apartBack⟩ := not_or.1 (mt List.mem_append.2 apart)
  have leaf := before.leaf
  obtain ⟨inv, acts, env, leaves, unchanged⟩ := failed
  have pages : (state.envs slot).activePages = (start.envs slot).addresses front ∧
      (state.envs slot).secondPages = (start.envs slot).addresses back := by
    rw [before.env]
    exact ⟨Env.addresses_setElement apartFront _, Env.addresses_setElement apartBack _⟩
  have listed : (state.envs slot).Listed := by
    rw [before.env]
    exact lists.listed.subset (List.nodup_cons.1 lists.listed.nodup).2
      fun _ member => List.mem_cons_of_mem _ member
  refine ⟨inv, before.becomes.acts.trans acts, ⟨?_, env ▸ before.running.placed, env ▸ listed, ?_⟩,
    fun isTidy legal => ?_, fun _ legal => ?_⟩
  · have live := before.running.live
    simp only [KernelState.root] at live ⊢
    rwa [env]
  · rw [env, pages.1, pages.2]
    rcases leaves with same | ⟨entry, updated⟩
    · rw [same, leaf]
      exact resident.weaken False.elim False.elim
    · rw [updated, leaf]
      exact (resident.elsewhere page unlisted).weaken False.elim False.elim
  · obtain ⟨rfl, -⟩ := unchanged (legal.mono (congrFun before.disk _) (before.tables _ _) before.grows.length_le)
    refine ⟨before.keeps, before.running.live, before.running.placed, listed, ?_⟩
    rw [pages.1, pages.2, leaf]
    exact resident.weaken False.elim fun _ => isTidy
  · obtain ⟨-, noFrames⟩ := unchanged (legal.mono (congrFun before.disk _) (before.tables _ _) before.grows.length_le)
    have grows := before.grows
    rw [noFrames] at grows
    exact List.suffix_nil.1 grows

/-- Bringing the page in ends every branch but one: what is left is that the lists before
it, with the page, are right. -/
theorem bringIn_served (valid : layout.Valid)
    (present : start.dirWord .user slot (pageOf faultVa / 1024) ≠ 0)
    (recency : ((start.envs slot).withLists ((start.envs slot).setAddress element faultVa) unused
      (element :: front) back).recency =
        touch (start.envs slot).pageWSMaxSize faultVa (start.envs slot).recency)
    (mapped : ∀ number, number ≠ pageOf faultVa → (space.entry number ≠ 0 ↔
      start.leaf .user slot number ≠ 0 ∧ (number * pageSize ∈ (start.envs slot).recency →
        number * pageSize ∈ ((start.envs slot).withLists
          ((start.envs slot).setAddress element faultVa) unused (element :: front) back).recency))) :
    wp (bringIn slot element faultVa)
      (fun _ next => Served layout ram strict tidy slot faultVa start next)
      (onPanic (Halted layout ram tidy slot faultVa start)) state :=
  wp_mono (bringIn_spec valid before.running page (before.tables _ _ present))
    (fun _ _ brought => brought.served page before apart resident unlisted lists recency mapped)
    fun _ _ => onPanic.mono fun _ failed => failed.halted page before apart resident unlisted lists

end Arranged

end Fos.Kernel
