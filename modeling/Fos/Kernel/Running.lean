import Fos.Kernel.PageFileProperties
import Fos.Kernel.Paging
import Fos.Kernel.Residency
import Fos.Kernel.Faults

/-! The environment the processor runs, and the steps that rearrange its lists and pages
without losing what it wrote. -/

set_option autoImplicit false

namespace Fos.Kernel

open Foundation

variable {layout : BootLayout} {ram : Nat → Page} {slot : Nat} {state next : KernelState}

theorem wp_modifyEnv {change : Env → Env} {post : Unit → KernelState → Prop}
    {fail : Stop → KernelState → Prop} :
    wp (modifyEnv slot change) post fail state ↔
      post () (state.setEnv slot (change (state.envs slot))) := Iff.rfl

@[simp] theorem KernelState.setEnv_self (state : KernelState) (slot : Nat) (env : Env) :
    (state.setEnv slot env).envs slot = env := if_pos rfl

/-- The environment the processor runs, between kernel operations. -/
structure Running (layout : BootLayout) (ram : Nat → Page) (slot : Nat) (state : KernelState) :
    Prop where
  inv : Inv layout ram state
  curenv : state.curenv = some slot
  active : state.cr3 = toPhysicalAddress (state.root .user slot)
  live : state.root .user slot ≠ 0
  placed : (state.envs slot).diskEnvPgdir ≠ none

theorem Running.becomes {hand hand' : List Nat} {space : Space}
    (running : Running layout ram slot state)
    (becomes : SpaceBecomes layout ram slot hand state hand' next space)
    (root : next.root .user slot = state.root .user slot)
    (disk : (next.envs slot).diskEnvPgdir = (state.envs slot).diskEnvPgdir) :
    Running layout ram slot next where
  inv := becomes.inv
  curenv := becomes.acts.quiet.curenv.trans running.curenv
  active := by
    rw [root]
    exact becomes.acts.quiet.cr3.trans running.active
  live := root ▸ running.live
  placed := disk ▸ running.placed

theorem Running.stable {hand hand' : List Nat} {space : Space}
    (running : Running layout ram slot state)
    (becomes : SpaceBecomes layout ram slot hand state hand' next space)
    (stable : Stable slot state next) : Running layout ram slot next :=
  running.becomes becomes stable.root_user (congrArg Env.diskEnvPgdir (stable.placed running.placed))

/-- Steps of the running environment that keep its frames: what its record and its address
space are after them. -/
structure Stepped (layout : BootLayout) (ram : Nat → Page) (slot : Nat) (state next : KernelState)
    (env : Env) (space : Space) : Prop where
  becomes : SpaceBecomes layout ram slot [] state [] next space
  keeps : Keeps slot [] state [] next
  running : Running layout ram slot next
  env : next.envs slot = env
  words : ∀ side index, state.dirWord side slot index ≠ 0 →
    next.dirWord side slot index = state.dirWord side slot index
  grows : state.freeFrameList <:+ next.freeFrameList

namespace Stepped

variable {start : KernelState} {env : Env} {space change : Space}

theorem refl (running : Running layout ram slot state) :
    Stepped layout ram slot state state (state.envs slot) (state.space slot) :=
  ⟨.refl running.inv slot [], .refl slot [] state, running, rfl, fun _ _ _ => rfl, List.suffix_rfl⟩

/-- Page tables stay. -/
theorem tables (before : Stepped layout ram slot start state env space) (side : Side) (index : Nat)
    (present : start.dirWord side slot index ≠ 0) : state.dirWord side slot index ≠ 0 :=
  (before.words side index present).symm ▸ present

theorem trans {last : KernelState} {env' : Env} {space' : Space}
    (first : Stepped layout ram slot start state env space)
    (second : Stepped layout ram slot state last env' space') :
    Stepped layout ram slot start last env' space' where
  becomes := ⟨second.becomes.inv, first.becomes.acts.trans second.becomes.acts, second.becomes.space⟩
  keeps := first.keeps.trans second.keeps
  running := second.running
  env := second.env
  words side index some := (second.words side index (first.tables side index some)).trans (first.words side index some)
  grows := first.grows.trans second.grows

theorem leaf (before : Stepped layout ram slot start state env space) :
    state.leaf .user slot = space.entry := congrArg Space.entry before.becomes.space

theorem root (before : Stepped layout ram slot start state env space) :
    state.root .user slot = env.envPageDirectory := by
  rw [← before.env]
  rfl

/-- One more step, which leaves the record. -/
theorem step (before : Stepped layout ram slot start state env space)
    (becomes : SpaceBecomes layout ram slot [] state [] next change) (keeps : Keeps slot [] state [] next)
    (stable : Stable slot state next) (grows : state.freeFrameList <:+ next.freeFrameList) :
    Stepped layout ram slot start next env change where
  becomes := ⟨becomes.inv, before.becomes.acts.trans becomes.acts, becomes.space⟩
  keeps := before.keeps.trans keeps
  running := before.running.stable becomes stable
  env := (stable.placed before.running.placed).trans before.env
  words side index some := (stable.tables side index (before.tables side index some)).trans (before.words side index some)
  grows := before.grows.trans grows

/-- The record gets other lists. -/
theorem withLists (before : Stepped layout ram slot start state env space)
    (elements : Nat → WorkingSetElement) (unused active second : List Nat) :
    Stepped layout ram slot start
      (state.setEnv slot (env.withLists elements unused active second))
      (env.withLists elements unused active second) space := by
  obtain ⟨becomes, keeps, dirs⟩ := before.running.inv.setEnv []
    ((state.envs slot).withLists elements unused active second) rfl rfl rfl rfl
  rw [before.env] at becomes keeps dirs
  refine ⟨⟨becomes.inv, before.becomes.acts.trans becomes.acts, becomes.space.trans before.becomes.space⟩,
    before.keeps.trans keeps,
    before.running.becomes becomes (by simp [KernelState.root, Env.withLists, before.env])
      (by simp [Env.withLists, before.env]), state.setEnv_self slot _, fun side index some => ?_,
    before.grows⟩
  rw [dirs]
  exact before.words side index some

end Stepped

/-- Steps of the running environment that lose nothing it has written. -/
structure Shifted (layout : BootLayout) (ram : Nat → Page) (slot : Nat) (state next : KernelState)
    (env : Env) (space : Space) : Prop extends Stepped layout ram slot state next env space where
  diskFree : next.diskFreeFrameList = state.diskFreeFrameList
  moves : Space.Moves (state.space slot) space
  places : space.diskFrame = state.leaf .disk slot

namespace Shifted

variable {start : KernelState} {env : Env} {space : Space}

theorem refl (running : Running layout ram slot state) :
    Shifted layout ram slot state state (state.envs slot) (state.space slot) :=
  ⟨.refl running, rfl, .refl, rfl⟩

theorem disk (before : Shifted layout ram slot start state env space) :
    state.leaf .disk slot = start.leaf .disk slot :=
  (congrArg Space.diskFrame before.becomes.space).trans before.places

/-- One more step that leaves the record. -/
theorem step (before : Shifted layout ram slot start state env space) {change : Space}
    (becomes : SpaceBecomes layout ram slot [] state [] next change) (keeps : Keeps slot [] state [] next)
    (calm : Calm slot state next) (grows : state.freeFrameList <:+ next.freeFrameList)
    (moves : Space.Moves space change) (places : change.diskFrame = space.diskFrame) :
    Shifted layout ram slot start next env change where
  toStepped := before.toStepped.step becomes keeps calm.toStable grows
  diskFree := calm.diskFree.trans before.diskFree
  moves := before.moves.trans moves
  places := places.trans before.places

/-- The record gets other lists. -/
theorem withLists (before : Shifted layout ram slot start state env space)
    (elements : Nat → WorkingSetElement) (unused active second : List Nat) :
    Shifted layout ram slot start
      (state.setEnv slot (env.withLists elements unused active second))
      (env.withLists elements unused active second) space :=
  ⟨before.toStepped.withLists elements unused active second, before.diskFree, before.moves,
    before.places⟩

/-- The rule for list operations. -/
theorem wp_lists (before : Shifted layout ram slot start state env space) {change : Env → Env}
    (elements : Nat → WorkingSetElement) (unused active second : List Nat)
    (changes : change env = env.withLists elements unused active second)
    {post : Unit → KernelState → Prop} {fail : Stop → KernelState → Prop}
    (continues : ∀ next, Shifted layout ram slot start next
      (env.withLists elements unused active second) space → post () next) :
    wp (modifyEnv slot change) post fail state := by
  rw [wp_modifyEnv, before.env, changes]
  exact continues _ (before.withLists elements unused active second)

/-- The rule for changes of the present bit. -/
theorem wp_setPagePermissions (valid : layout.Valid)
    (before : Shifted layout ram slot start state env space) {address set clear : Nat}
    (low : address < userTop) (mapped : space.entry (pageOf address) ≠ 0)
    (some : changePerm (space.entry (pageOf address)) set clear ≠ 0)
    (setLow : set < pageSize) (setClean : set.testBit 6 = false)
    (clearLow : clear < pageSize) (clearClean : clear.testBit 6 = false)
    {post : Unit → KernelState → Prop} {fail : Stop → KernelState → Prop}
    (continues : ∀ next, Shifted layout ram slot start next env
      (space.setEntry (pageOf address) (changePerm (space.entry (pageOf address)) set clear)) →
      post () next) :
    wp (ptSetPagePermissions slot address set clear) post fail state := by
  have leaf := congrFun before.leaf (pageOf address)
  rw [← leaf] at mapped some
  refine wp_mono (ptSetPagePermissions_spec valid before.running.inv low mapped setLow clearLow some)
    (fun _ next changed => ?_) fun _ _ never => never
  obtain ⟨becomes, keeps, calm, free⟩ := changed
  rw [leaf] at becomes mapped some
  rw [before.becomes.space] at becomes
  refine continues next (before.step becomes keeps calm (free ▸ List.suffix_rfl) (.single (.flag mapped some ?_)) rfl)
  rw [testBit_changePerm_low (by decide) clearLow, setClean, clearClean]
  simp

/-- The reads that come before an eviction. -/
theorem wp_getFrameInfo (valid : layout.Valid)
    (before : Shifted layout ram slot start state env space) {address : Nat}
    (low : address < userTop) {post : Option Nat × Option Nat → KernelState → Prop}
    {fail : Stop → KernelState → Prop} :
    wp (getFrameInfo env.envPageDirectory address) post fail state ↔
      post (state.frameAt slot (pageOf address), state.tableAt .user slot (pageOf address)) state := by
  rw [← before.root]
  exact Kernel.wp_getFrameInfo valid before.running.inv before.running.live low

theorem wp_ptGetPagePermissions (valid : layout.Valid)
    (before : Shifted layout ram slot start state env space) {address : Nat}
    (low : address < userTop) (mapped : space.entry (pageOf address) ≠ 0)
    {post : Nat → KernelState → Prop} {fail : Stop → KernelState → Prop} :
    wp (ptGetPagePermissions slot address) post fail state ↔
      post (space.entry (pageOf address) &&& 0xFFF) state := by
  rw [← before.leaf] at mapped ⊢
  exact Kernel.wp_ptGetPagePermissions valid before.running.inv low
    (KernelState.dirWord_ne_zero_of_leaf mapped)

/-- The rule for unmapping a page whose content is saved or not needed. -/
theorem wp_unmapFrame (valid : layout.Valid)
    (before : Shifted layout ram slot start state env space) {address : Nat}
    (low : address < userTop)
    (saved : (space.entry (pageOf address)).testBit 6 = false ∨
      space.stored (pageOf address) = space.content (pageOf address) ∨
      space.diskFrame (pageOf address) = 0)
    {post : Unit → KernelState → Prop} {fail : Stop → KernelState → Prop}
    (continues : ∀ next, Shifted layout ram slot start next env (space.unmap (pageOf address)) →
      post () next) :
    wp (unmapFrame env.envPageDirectory address) post fail state := by
  rw [← before.root]
  refine wp_mono (unmapFrame_spec valid before.running.inv before.running.live low)
    (fun _ next unmapped => ?_) fun _ _ never => never
  obtain ⟨becomes, keeps, calm, free⟩ := unmapped
  rw [before.becomes.space] at becomes
  exact continues next (before.step becomes keeps calm (free ▸ List.suffix_append _ _) (.single (.evict saved)) rfl)

/-- The rule for writing a page back, with the permissions and the frame that were read
before. -/
theorem wp_writeBackIfModified (valid : layout.Valid)
    (before : Shifted layout ram slot start state env space) {address : Nat}
    (low : address < userTop) (mapped : space.entry (pageOf address) ≠ 0)
    {post : Unit → KernelState → Prop} {fail : Stop → KernelState → Prop}
    (continues : ∀ next space', Shifted layout ram slot start next env space' →
      space'.entry = space.entry →
      ((space'.entry (pageOf address)).testBit 6 = false ∨
        space'.stored (pageOf address) = space'.content (pageOf address) ∨
        space'.diskFrame (pageOf address) = 0) → post () next) :
    wp (writeBackIfModified slot address (space.entry (pageOf address) &&& 0xFFF)
      (state.frameAt slot (pageOf address))) post fail state := by
  rw [writeBackIfModified]
  by_cases modified : (space.entry (pageOf address)).testBit 6 = true
  · have leaf := congrFun before.leaf (pageOf address)
    rw [if_pos ((permissions_modified _).2 modified), wp_bind]
    refine wp_mono (pfUpdateEnvPage_spec valid before.running.inv before.running.placed low
      (leaf ▸ mapped)) (fun _ next updated => ?_) fun stop _ never => by cases stop <;> exact never.elim
    obtain ⟨becomes, keeps, calm, free⟩ := updated
    rw [before.becomes.space, before.disk, ← before.places] at becomes
    by_cases unplaced : space.diskFrame (pageOf address) = 0
    · rw [if_pos unplaced] at becomes
      exact continues next space (before.step becomes keeps calm (free ▸ List.suffix_rfl) .refl rfl) rfl
        (.inr (.inr unplaced))
    · rw [if_neg unplaced] at becomes
      refine continues next _ (before.step becomes keeps calm (free ▸ List.suffix_rfl)
        (.single (.save mapped unplaced)) rfl) rfl (.inr (.inl ?_))
      simp only [Space.store, Function.update_self]
  · rw [if_neg (fun some => modified ((permissions_modified _).1 some))]
    exact continues state space before rfl (.inl (Bool.eq_false_iff.2 modified))

end Shifted

end Fos.Kernel
