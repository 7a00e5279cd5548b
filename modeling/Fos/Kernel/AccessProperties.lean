import Fos.Kernel.FaultsProperties
import Fos.Kernel.System

/-! Accesses of the running environment that the processor translates. -/

set_option autoImplicit false

namespace Fos.Kernel

open Foundation

variable {layout : BootLayout} {ram : Nat → Page} {slot address value : Nat} {state next : KernelState}

/-! ### Bytes -/

/-- A page with one of its bytes replaced. -/
def Page.setByte (page : Page) (offset value : Nat) : Page :=
  Function.update page (offset / 4) (Kernel.setByte (page (offset / 4)) (offset % 4) value)

theorem byte_setByte (word value : Nat) {position other : Nat} (inWord : position < 4) (otherInWord : other < 4) :
    setByte word position value / 256 ^ other % 256 =
      if other = position then value % 256 else word / 256 ^ other % 256 := by
  have positions : position = 0 ∨ position = 1 ∨ position = 2 ∨ position = 3 := by omega
  have others : other = 0 ∨ other = 1 ∨ other = 2 ∨ other = 3 := by omega
  rcases positions with rfl | rfl | rfl | rfl <;> rcases others with rfl | rfl | rfl | rfl <;>
    simp only [setByte, Nat.reducePow, if_true, if_false, reduceCtorEq, Nat.reduceEqDiff] <;> omega

theorem Page.byte_setByte (page : Page) (offset value other : Nat) :
    (page.setByte offset value).byte other = if other = offset then value % 256 else page.byte other := by
  simp only [Page.byte, Page.setByte, Function.update_apply]
  by_cases sameWord : other / 4 = offset / 4
  · rw [if_pos sameWord, Kernel.byte_setByte _ _ (Nat.mod_lt _ (by decide)) (Nat.mod_lt _ (by decide)), sameWord]
    have same : other % 4 = offset % 4 ↔ other = offset := by omega
    simp only [same]
  · have different : other ≠ offset := fun same => sameWord (by rw [same])
    rw [if_neg sameWord, if_neg different]

/-! ### Translation -/

theorem accessible_iff (entry : Nat) :
    Accessible entry ↔ hasPerm entry (permPresent ||| permUser ||| permWriteable) = true := by
  rw [hasPerm_iff]
  constructor
  · rintro ⟨present, writeable, user⟩ bit set
    have inside : bit < 3 := by
      by_contra high
      rw [Nat.testBit_lt_two_pow (lt_of_lt_of_le (by decide) (Nat.pow_le_pow_right Nat.two_pos (not_lt.1 high)))] at set
      cases set
    obtain rfl | rfl | rfl : bit = 0 ∨ bit = 1 ∨ bit = 2 := by omega
    · exact present
    · exact writeable
    · exact user
  · intro bits
    exact ⟨bits 0 rfl, bits 1 rfl, bits 2 rfl⟩

/-- The entry of a page table allows what any of its pages allows. -/
theorem dirWord_grants (inv : Inv layout ram state) {index : Nat} (present : state.dirWord .user slot index ≠ 0) :
    Accessible (state.dirWord .user slot index) := by
  refine ⟨?_, ?_, ?_⟩ <;> rw [dirWord_testBit inv present (by decide)] <;> rfl

theorem hasPerm_read {entry : Nat} (accessible : Accessible entry) : hasPerm entry (permPresent ||| permUser) = true := by
  rw [hasPerm_iff]
  intro bit set
  apply (hasPerm_iff _ _).1 ((accessible_iff entry).1 accessible) bit
  rw [Nat.testBit_or, set, Bool.true_or]

/-- A page its environment may write is reached. -/
theorem userTranslate_of_accessible (inv : Inv layout ram state) (live : state.root .user slot ≠ 0)
    (low : address < userTop) (accessible : Accessible (state.leaf .user slot (pageOf address))) (access : Access) :
    state.userTranslate (state.root .user slot) address access = some (frameOf (state.leaf .user slot (pageOf address))) := by
  have mapped : state.leaf .user slot (pageOf address) ≠ 0 := accessible.2.ne_zero
  have present := KernelState.dirWord_ne_zero_of_leaf mapped
  have grants := dirWord_grants inv present
  cases access with
  | read =>
      simp only [KernelState.userTranslate, mem_root live low, hasPerm_read grants, if_true, mem_table present,
        hasPerm_read accessible]
  | write value =>
      simp only [KernelState.userTranslate, mem_root live low, (accessible_iff _).1 grants, if_true, mem_table present,
        (accessible_iff _).1 accessible]

/-- A write reaches only such a page. -/
theorem accessible_of_userTranslate (live : state.root .user slot ≠ 0) (low : address < userTop) {frame : Nat}
    (reaches : state.userTranslate (state.root .user slot) address (.write value) = some frame) :
    Accessible (state.leaf .user slot (pageOf address)) ∧ frame = frameOf (state.leaf .user slot (pageOf address)) := by
  simp only [KernelState.userTranslate, mem_root live low] at reaches
  split at reaches
  · next grants =>
      have present : state.dirWord .user slot (pageOf address / 1024) ≠ 0 :=
        ((accessible_iff _).2 grants).2.ne_zero
      rw [mem_table present] at reaches
      split at reaches
      · next allowed => exact ⟨(accessible_iff _).2 allowed, (Option.some.inj reaches).symm⟩
      · cases reaches
  · cases reaches

/-! ### Accesses -/

theorem userAccess_read {directory : Nat} (accesses : userAccess directory address .read state = some next) :
    next = state := by
  unfold userAccess at accesses
  cases reaches : state.userTranslate directory address .read with
  | none =>
      rw [reaches] at accesses
      cases accesses
  | some frame =>
      rw [reaches] at accesses
      exact (Option.some.inj accesses).symm

/-- The page of the environment as a write leaves it. -/
def Space.writeByte (space : Space) (address value : Nat) : Space :=
  (space.setEntry (pageOf address) (space.entry (pageOf address) ||| permModified)).setContent (pageOf address)
    ((space.content (pageOf address)).setByte (address % pageSize) value).words

/-- Writing one byte of a frame. -/
theorem writeByte_eq_writeFrame (state : KernelState) (frame offset value : Nat) :
    state.writeWord frame (offset / 4) (setByte (state.mem frame (offset / 4)) (offset % 4) value) =
      state.writeFrame frame ((state.mem frame).setByte offset value) :=
  writeWord_eq_writeFrame ..

/-- Bytes beyond the end of a page are not looked at. -/
theorem words_setByte (page : Page) {offset : Nat} (inside : offset < pageSize) (value : Nat) :
    (page.setByte offset value).words = (page.words.setByte offset value).words := by
  have inPage : offset / 4 < 1024 := by
    simp only [pageSize] at inside
    omega
  funext index
  simp only [Page.words, Page.setByte, Function.update_apply, if_pos inPage]
  by_cases low : index < 1024 <;> simp [low]

/-- The flags that do not say what a page allows may change. -/
theorem Resident.reflag {strict tidy : Prop} {entry : Nat → Nat} {active second : List Nat} {page word : Nat}
    (resident : Resident strict tidy entry active second) (mapped : entry page ≠ 0)
    (bits : ∀ bit < 3, word.testBit bit = (entry page).testBit bit) :
    Resident strict tidy (Function.update entry page word) active second := by
  have same (number bit : Nat) (low : bit < 3) :
      (Function.update entry page word number).testBit bit = (entry number).testBit bit := by
    by_cases here : number = page
    · rw [here, Function.update_self, bits bit low]
    · rw [Function.update_of_ne here]
  refine ⟨resident.nodup, resident.pages, fun address member => ?_, fun address member => ?_,
    fun isStrict address member => ?_, fun isTidy number some => ?_⟩
  · simp only [Accessible, Owned, same _ 0 (by decide), same _ 1 (by decide), same _ 2 (by decide)]
    exact resident.accessible address member
  · simp only [Owned, same _ 1 (by decide), same _ 2 (by decide)]
    exact resident.retained address member
  · rw [same _ 0 (by decide)]
    exact resident.hidden isStrict address member
  · apply resident.listed isTidy number
    by_cases here : number = page
    · exact here ▸ mapped
    · rwa [Function.update_of_ne here] at some

/-- A write of the running environment is a write to its page in memory, and to nothing else. -/
theorem userAccess_write (running : Running layout ram slot state) (low : address < userTop)
    (accesses : userAccess (state.root .user slot) address (.write value) state = some next) :
    Accessible (state.leaf .user slot (pageOf address)) ∧
      SpaceBecomes layout ram slot [] state [] next ((state.space slot).writeByte address value) ∧
      Keeps slot [] state [] next ∧ Calm slot state next := by
  cases reaches : state.userTranslate (state.root .user slot) address (.write value) with
  | none =>
      unfold userAccess at accesses
      rw [reaches] at accesses
      cases accesses
  | some frame =>
      obtain ⟨accessible, rfl⟩ := accessible_of_userTranslate running.live low reaches
      have mapped := accessible.2.ne_zero
      have isPresent : hasPerm (state.leaf .user slot (pageOf address)) permPresent = true :=
        (hasPerm_present _).trans accessible.1
      have modifies : wp (modifyMappedPage address fun page => page.setByte (address % pageSize) value) _
          (fun _ _ => False) state := modifyMappedPage_spec running.inv running.active low isPresent _
      simp only [modifyMappedPage, wp_bind, wp_get, running.active, frameOf_toPhysicalAddress,
        translate_eq running.inv running.live low, isPresent, if_true, wp_modify] at modifies
      unfold userAccess at accesses
      rw [reaches] at accesses
      have written := Option.some.inj accesses
      rw [writeByte_eq_writeFrame] at written
      rw [written] at modifies
      obtain ⟨becomes, keeps, calm, -⟩ := modifies
      have content : (state.space slot).content (pageOf address) =
          (state.mem (frameOf (state.leaf .user slot (pageOf address)))).words := if_neg mapped
      refine ⟨accessible, ?_, keeps, calm⟩
      rw [Space.writeByte, content, ← words_setByte _ (Nat.mod_lt _ (by decide))]
      exact becomes

/-- A write leaves the environment able to run. -/
theorem Healthy.writeByte {strict tidy : Prop} (healthy : Healthy strict tidy slot state)
    (running : Running layout ram slot state) (accessible : Accessible (state.leaf .user slot (pageOf address)))
    (becomes : SpaceBecomes layout ram slot [] state [] next ((state.space slot).writeByte address value))
    (calm : Calm slot state next) :
    Running layout ram slot next ∧ Healthy strict tidy slot next := by
  have runningNext := running.stable becomes calm.toStable
  have env := calm.placed running.placed
  have leaf : next.leaf .user slot = Function.update (state.leaf .user slot) (pageOf address)
      (state.leaf .user slot (pageOf address) ||| permModified) := congrArg Space.entry becomes.space
  refine ⟨runningNext, runningNext.live, runningNext.placed, ?_, ?_⟩
  · rw [env]
    exact healthy.lists
  · rw [env, leaf]
    apply healthy.resident.reflag accessible.2.ne_zero
    intro bit low
    rw [Nat.testBit_or]
    obtain rfl | rfl | rfl : bit = 0 ∨ bit = 1 ∨ bit = 2 := by omega
    all_goals exact Bool.or_false _

end Fos.Kernel
