import Fos.Kernel.PageStoreProperties

/-! The page of zeros that `initialize_paging` prepares, and what is stored and read of it. -/

set_option autoImplicit false

namespace Fos.Kernel

open Foundation

variable {layout : BootLayout} {ram : Nat → Page} {slot address page : Nat} {state next : KernelState}

/-- The bytes of a page are in its words. -/
theorem Page.byte_congr {left right : Page} (same : ∀ index < 1024, left index = right index) {offset : Nat}
    (inside : offset < pageSize) : left.byte offset = right.byte offset := by
  have low : offset / 4 < 1024 := by
    simp only [pageSize] at inside
    omega
  rw [byte, byte, same _ low]

/-- Every byte of the page is zero. -/
def Page.IsZero (page : Page) : Prop := ∀ offset < pageSize, page.byte offset = 0

theorem Page.IsZero.congr {left right : Page} (same : ∀ index < 1024, left index = right index) :
    left.IsZero ↔ right.IsZero := by
  refine forall₂_congr fun offset inside => ?_
  rw [byte_congr same inside]

/-- The loop of `initialize_paging` goes over 1024 bytes, and no other boot code writes to the page. -/
theorem BootLayout.bootMem_zeroPage (valid : layout.Valid) (index : Nat) :
    layout.bootMem ram 1 index = if index < 256 then 0 else ram 1 index := by
  have notDirectory : 1 ≠ layout.pageDirectory := by have := valid.directory; omega
  have notStack : 1 ≠ layout.stackTable := by have := valid.stack; omega
  have notEnvs : 1 ≠ layout.envsTable := by have := valid.envs; omega
  have notWindow : (List.range windowTables).find? (fun i => layout.windowTable i = 1) = none := by
    rw [List.find?_eq_none]
    intro i member
    have := (valid.window i (List.mem_range.1 member)).1
    simp
    omega
  rw [bootMem, bootWord, if_neg notDirectory, if_neg fun both => notStack both.1, if_neg fun both => notEnvs both.1, notWindow]
  by_cases low : index < 256 <;> simp [low]

/-- The rest of the page was zero before. -/
def CleanRest (page : Page) : Prop := ∀ offset, 1024 ≤ offset → offset < pageSize → page.byte offset = 0

theorem BootLayout.zeroPage_isZero (valid : layout.Valid) : (layout.bootMem ram 1).IsZero ↔ CleanRest (ram 1) := by
  have word : ∀ index, layout.bootMem ram 1 index = if index < 256 then 0 else ram 1 index := layout.bootMem_zeroPage valid
  constructor
  · intro zero offset above inside
    have high : ¬ offset / 4 < 256 := by omega
    rw [← zero offset inside, Page.byte, Page.byte, word, if_neg high]
  · intro clean offset inside
    cases Nat.lt_or_ge offset 1024 with
    | inl low =>
        have first : offset / 4 < 256 := by omega
        rw [Page.byte, word, if_pos first]
        simp
    | inr above =>
        have high : ¬ offset / 4 < 256 := by omega
        rw [Page.byte, word, if_neg high]
        exact clean offset above inside

/-! ### Storing and reading -/

/-- The operation changes what is stored for the page. -/
def PageFileCall.Touches (slot page : Nat) : PageFileCall → Prop
  | .add other address _ => other = slot ∧ pageOf address = page
  | .update other address _ => other = slot ∧ pageOf address = page
  | .remove other address => other = slot ∧ pageOf address = page
  | .free other => other = slot
  | .read _ _ => False
  | .switch _ => False

/-- Operations of the page file from a state on that leave the page alone. -/
def Filing.Later (layout : BootLayout) (state : KernelState) (slot page : Nat) : Filing → Prop :=
  System.Reaches { pageFile layout with start := fun filing => filing = .found state } fun filing call =>
    call.Proper filing.kernel ∧ ¬ call.Touches slot page

/-- The page is stored with zeros, and brought in with zeros as long as nothing else is stored for it. -/
structure KernelState.ZeroFilled (layout : BootLayout) (state : KernelState) (slot address : Nat) : Prop where
  placed : state.leaf .disk slot (pageOf address) ≠ 0
  stored : (state.diskPage (state.leaf .disk slot (pageOf address))).IsZero
  read : ∀ filing, Filing.Later layout state slot (pageOf address) filing →
    (PageFileCall.read slot address).Proper filing.kernel →
    wp (pfReadEnvPage slot address) (fun result after => result = 0 ∧ ∃ frame,
      after.translate (after.envs slot).envPageDirectory address = some frame ∧ (after.mem frame).IsZero)
      (fun _ _ => False) filing.kernel

/-- What was given for a page stays. -/
theorem PageFileCall.gives_untouched {call : PageFileCall} {given : Given} {result : Int}
    (apart : ¬ call.Touches slot page) : call.gives state given result slot page = given slot page := by
  have elsewhere {other number : Nat} {content : Option Page} (apart : ¬ (other = slot ∧ number = page)) :
      given.set other number content slot page = given slot page := by
    rw [Given.set]
    cases decEq slot other with
    | isFalse different => rw [Function.update_of_ne different]
    | isTrue same =>
        have different : page ≠ number := fun samePage => apart ⟨same.symm, samePage.symm⟩
        rw [same, Function.update_self, Function.update_of_ne different]
  cases call with
  | add other address dataSrc =>
      rw [gives]
      split
      · exact elsewhere apart
      · rfl
  | update other address frame =>
      rw [gives]
      split
      · exact elsewhere apart
      · rfl
  | remove other address => exact elsewhere apart
  | read other address => rfl
  | free other =>
      have different : slot ≠ other := fun same => apart same.symm
      rw [gives, Function.update_of_ne different]
  | switch other => rfl

/-- Later the same is given for the page. -/
theorem Filing.Later.kept (valid : layout.Valid) (inv : Inv layout ram state) {filing : Filing}
    (later : Filing.Later layout state slot page filing) :
    filing.Sound layout ram ∧ filing.given slot page = (Filing.found state).given slot page := by
  apply System.Reaches.invariant (fun filing =>
    filing.Sound layout ram ∧ filing.given slot page = (Filing.found state).given slot page) _ _ later
  · rintro filing rfl
    exact ⟨⟨inv, faithful_found state⟩, rfl⟩
  · rintro filing call last ⟨sound, same⟩ ⟨proper, apart⟩ executes
    refine ⟨sound.exec valid proper executes, ?_⟩
    rw [← same]
    simp only [pageFile, exec] at executes
    split at executes
    · cases executes
      exact PageFileCall.gives_untouched apart
    · cases executes
      rfl
    · cases executes

/-- What is stored is what is read later. -/
theorem zeroFilled_of_stored (valid : layout.Valid) (inv : Inv layout ram state)
    (placed : state.leaf .disk slot (pageOf address) ≠ 0)
    (stored : (state.diskPage (state.leaf .disk slot (pageOf address))).IsZero) : state.ZeroFilled layout slot address where
  placed := placed
  stored := stored
  read := by
    intro filing later proper
    obtain ⟨sound, same⟩ := later.kept valid inv
    have found : (Filing.found state).given slot (pageOf address) =
        some (state.diskPage (state.leaf .disk slot (pageOf address))) := if_neg placed
    apply wp_mono (read_spec valid sound proper) _ fun _ _ never => never
    rintro result after ⟨-, delivered⟩
    rw [same, found] at delivered
    obtain ⟨rfl, frame, translated, content⟩ := delivered
    exact ⟨rfl, frame, translated, (Page.IsZero.congr content).2 stored⟩

/-- The page `pf_add_empty_env_page` stores is the one of frame 1. -/
theorem pfAddEmptyEnvPage_stored (valid : layout.Valid) (inv : Inv layout ram state) (low : address < userTop)
    (added : pfAddEmptyEnvPage slot address true state = .ok 0 next) :
    Inv layout ram next ∧ next.leaf .disk slot (pageOf address) ≠ 0 ∧
      ∀ index < 1024, next.diskPage (next.leaf .disk slot (pageOf address)) index = layout.bootMem ram 1 index := by
  have spec : wp (pfAddEnvPage slot address (state.mem 1)) _ _ state := pfAddEnvPage_spec valid inv low (state.mem 1)
  rw [← wp_pfAddEmptyEnvPage_true, wp_of_ok added, mem_zeroPage valid inv] at spec
  obtain ⟨failed, -⟩ | ⟨-, diskFrame, becomes, -, -, positive, -⟩ := spec
  · cases failed
  · have leaf : next.leaf .disk slot (pageOf address) = diskFrame := by
      rw [becomes.diskFrame]
      exact Function.update_self ..
    have content : (next.space slot).stored (pageOf address) = (layout.bootMem ram 1).words := by
      rw [becomes.space]
      exact Function.update_self ..
    have placed : next.leaf .disk slot (pageOf address) ≠ 0 := leaf ▸ positive
    refine ⟨becomes.inv, placed, Page.words_eq_iff.1 ?_⟩
    rw [← content]
    exact (if_neg placed).symm

/-- A page that was added as a page of zeros is one exactly if the memory behind the first 1024 bytes of frame 1
was zero before boot. -/
theorem zeroFilled_iff (valid : layout.Valid) (inv : Inv layout ram state) (low : address < userTop)
    (added : pfAddEmptyEnvPage slot address true state = .ok 0 next) :
    next.ZeroFilled layout slot address ↔ CleanRest (ram 1) := by
  obtain ⟨invNext, placed, content⟩ := pfAddEmptyEnvPage_stored valid inv low added
  rw [← BootLayout.zeroPage_isZero valid, ← Page.IsZero.congr content]
  constructor
  · exact fun filled => filled.stored
  · exact fun zero => zeroFilled_of_stored valid invNext placed zero

/-- The small machine after boot, over memory that is zero but for the word behind the first 1024 bytes of frame 1. -/
private def bootOver (word : Nat) : KernelState :=
  BootLayout.small.boot (fun frame index => if frame = 1 ∧ index = 256 then word else 0) fun _ => Page.zero

/-- A page is added, over memory that is zero. -/
theorem zeroFilled_iff_zero : ∃ next, pfAddEmptyEnvPage 0 0x800000 true (bootOver 0) = .ok 0 next ∧
    next.ZeroFilled .small 0 0x800000 := by
  have adds : wp (pfAddEmptyEnvPage 0 0x800000 true) (fun result _ => result = 0) (fun _ _ => False) (bootOver 0) := by
    decide +kernel
  cases wp_cases adds with
  | inr failed =>
      obtain ⟨_, _, -, never⟩ := failed
      exact never.elim
  | inl returned =>
      obtain ⟨_, next, added, rfl⟩ := returned
      have inv := boot_inv BootLayout.small_valid (fun frame index => if frame = 1 ∧ index = 256 then 0 else 0)
        fun _ => Page.zero
      refine ⟨next, added, (zeroFilled_iff BootLayout.small_valid inv (by decide) added).2 ?_⟩
      intro offset _ _
      rw [Page.byte, ite_self, Nat.zero_div]

/-- A word that was in the memory before boot is stored as a part of the page of zeros. -/
theorem not_zeroFilled : ∃ next, pfAddEmptyEnvPage 0 0x800000 true (bootOver 0x01010101) = .ok 0 next ∧
    ¬ next.ZeroFilled .small 0 0x800000 := by
  have adds : wp (pfAddEmptyEnvPage 0 0x800000 true) (fun result next => result = 0 ∧
      (next.diskPage (next.leaf .disk 0 0x800)).byte 1024 = 1) (fun _ _ => False) (bootOver 0x01010101) := by
    decide +kernel
  cases wp_cases adds with
  | inr failed =>
      obtain ⟨_, _, -, never⟩ := failed
      exact never.elim
  | inl returned =>
      obtain ⟨_, next, added, rfl, stray⟩ := returned
      refine ⟨next, added, fun filled => ?_⟩
      have zero : (next.diskPage (next.leaf .disk 0 0x800)).byte 1024 = 0 := filled.stored 1024 (by decide)
      rw [zero] at stray
      cases stray

end Fos.Kernel
