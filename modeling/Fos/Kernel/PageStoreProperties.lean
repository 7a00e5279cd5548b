import Fos.Kernel.PageStore
import Fos.Kernel.ProgramImage
import Fos.Kernel.TeardownProperties

/-! What was given to the page file is what is read from it, whatever else is done to the
page file. -/

set_option autoImplicit false

namespace Fos.Kernel

open Foundation

variable {layout : BootLayout} {ram : Nat → Page} {slot address : Nat} {state next : KernelState}

theorem Page.words_eq_iff {left right : Page} :
    left.words = right.words ↔ ∀ index < 1024, left index = right index := by
  constructor
  · intro same index low
    have := congrFun same index
    simpa only [Page.words, if_pos low] using this
  · intro same
    funext index
    by_cases low : index < 1024
    · simp only [Page.words, if_pos low, same index low]
    · simp only [Page.words, if_neg low]

/-! ### One environment -/

/-- An address space has stored what was given for its pages. -/
def Space.Carries (space : Space) (given : Nat → Option Page) : Prop := ∀ page,
  match given page with
  | none => space.diskFrame page = 0
  | some content => space.diskFrame page ≠ 0 ∧ space.stored page = content.words

namespace Space.Carries

variable {space : Space} {given : Nat → Option Page} {page : Nat}

theorem place (carries : space.Carries given) {diskFrame : Nat} (some : diskFrame ≠ 0) (content : Page) :
    (space.place page diskFrame content.words).Carries (Function.update given page (.some content)) := by
  intro other
  by_cases same : other = page
  · subst same
    simpa only [Space.place, Function.update_self] using ⟨some, trivial⟩
  · simpa only [Space.place, Function.update_of_ne same] using carries other

theorem store (carries : space.Carries given) (placed : space.diskFrame page ≠ 0) (content : Page) :
    (space.store page content.words).Carries (Function.update given page (some content)) := by
  intro other
  by_cases same : other = page
  · subst same
    simpa only [Space.store, Function.update_self] using ⟨placed, trivial⟩
  · simpa only [Space.store, Function.update_of_ne same] using carries other

theorem remove (carries : space.Carries given) : (space.remove page).Carries (Function.update given page none) := by
  intro other
  by_cases same : other = page
  · subst same
    simp only [Space.remove, Space.place, Function.update_self]
  · simpa only [Space.remove, Space.place, Function.update_of_ne same] using carries other

end Space.Carries

theorem Filing.faithful_iff {filing : Filing} :
    filing.Faithful ↔ ∀ slot, (filing.kernel.space slot).Carries (filing.given slot) := by
  refine forall_congr' fun slot => forall_congr' fun page => ?_
  cases filing.given slot page with
  | none => rfl
  | some content =>
      refine and_congr_right fun placed => ?_
      have stored : (filing.kernel.space slot).stored page =
          (filing.kernel.diskPage (filing.kernel.leaf .disk slot page)).words := if_neg placed
      rw [stored]
      exact Page.words_eq_iff.symm

/-! ### One operation -/

/-- The invariant of the kernel, with what was given to the page file. -/
structure Filing.Sound (layout : BootLayout) (ram : Nat → Page) (filing : Filing) : Prop where
  inv : Inv layout ram filing.kernel
  faithful : filing.Faithful

/-- An operation for one environment leaves the pages of the others. -/
theorem Filing.Sound.becomes {given : Given} {space : Space} {changed : Nat → Option Page}
    (sound : Filing.Sound layout ram ⟨state, given⟩)
    (becomes : SpaceBecomes layout ram slot [] state [] next space) (carries : space.Carries changed) :
    Filing.Sound layout ram ⟨next, Function.update given slot changed⟩ := by
  refine ⟨becomes.inv, Filing.faithful_iff.2 fun other => ?_⟩
  by_cases same : other = slot
  · subst same
    simp only [Function.update_self, becomes.space]
    exact carries
  · simp only [Function.update_of_ne same]
    rw [becomes.acts.space_other sound.inv.toLedger (by simp) same]
    exact Filing.faithful_iff.1 sound.faithful other

theorem Filing.Sound.unchanged {given : Given} (sound : Filing.Sound layout ram ⟨state, given⟩)
    (becomes : SpaceBecomes layout ram slot [] state [] next (state.space slot)) :
    Filing.Sound layout ram ⟨next, given⟩ := by
  have kept := sound.becomes becomes (Filing.faithful_iff.1 sound.faithful slot)
  rwa [Function.update_eq_self] at kept

/-- What an operation has to leave when it returns or panics. -/
def PageFileCall.Keeps (layout : BootLayout) (ram : Nat → Page) (call : PageFileCall) (filing : Filing) : Prop :=
  wp call.perform
    (fun result next => Filing.Sound layout ram ⟨next, call.gives filing.kernel filing.given result⟩)
    (fun stop next => ∀ message, stop = .panic message → Filing.Sound layout ram ⟨next, filing.given⟩)
    filing.kernel

theorem onPanic.message {stopped : KernelState → Prop} {stop : Stop} {kept : Prop}
    (holds : onPanic stopped stop state) (implied : stopped state → kept) (message : String)
    (_ : stop = .panic message) : kept := by
  cases stop with
  | panic _ => exact implied holds
  | undefined _ => exact holds.elim

theorem keeps_add (valid : layout.Valid) {filing : Filing} (sound : filing.Sound layout ram)
    (low : address < userTop) (dataSrc : Page) :
    (PageFileCall.add slot address dataSrc).Keeps layout ram filing := by
  refine wp_mono (pfAddEnvPage_spec valid sound.inv low dataSrc) (fun result next outcome => ?_)
    fun stop next stopped => stopped.message fun unplaced => sound.unchanged unplaced.1.becomes
  rcases outcome with ⟨rfl, unplaced, -⟩ | ⟨rfl, diskFrame, becomes, -, -, positive, -⟩
  · exact sound.unchanged unplaced.becomes
  · exact sound.becomes becomes ((Filing.faithful_iff.1 sound.faithful slot).place positive dataSrc)

theorem keeps_update (valid : layout.Valid) {filing : Filing} (sound : filing.Sound layout ram)
    (low : address < userTop) {frame : Nat} (bound : frame < filing.kernel.numberOfFrames) :
    (PageFileCall.update slot address frame).Keeps layout ram filing := by
  refine wp_mono (pfUpdateEnvPage_frame valid sound.inv low bound) (fun result next outcome => ?_)
    fun stop next stopped => stopped.message fun same => ?_
  · rcases outcome with ⟨-, rfl, becomes, -⟩ | ⟨placed, rfl, becomes, -⟩
    · exact sound.unchanged becomes
    · exact sound.becomes becomes ((Filing.faithful_iff.1 sound.faithful slot).store placed _)
  · obtain ⟨rfl, -⟩ := same
    exact sound

theorem keeps_remove (valid : layout.Valid) {filing : Filing} (sound : filing.Sound layout ram)
    (low : address < userTop) : (PageFileCall.remove slot address).Keeps layout ram filing := by
  unfold PageFileCall.Keeps PageFileCall.perform
  rw [wp_bind]
  refine wp_mono (pfRemoveEnvPage_spec valid sound.inv (low.trans (by decide)))
    (fun _ next removed => ?_) fun _ _ never => never
  exact sound.becomes removed.1 (Filing.faithful_iff.1 sound.faithful slot).remove

/-- A page that was given is delivered to its address, and there is none exactly where nothing
was given. -/
theorem read_spec (valid : layout.Valid) {filing : Filing} (sound : filing.Sound layout ram)
    (proper : (PageFileCall.read slot address).Proper filing.kernel) :
    wp (pfReadEnvPage slot address) (fun result next =>
      Filing.Sound layout ram ⟨next, filing.given⟩ ∧
      match filing.given slot (pageOf address) with
      | none => result = ePageNotExistInPF
      | some content => result = 0 ∧ ∃ frame,
          next.translate (next.envs slot).envPageDirectory address = some frame ∧
            ∀ index < 1024, next.mem frame index = content index) (fun _ _ => False) filing.kernel := by
  obtain ⟨low, running, cr3, live, translated⟩ := proper
  have inv := sound.inv
  have active : filing.kernel.cr3 = toPhysicalAddress (filing.kernel.root .user slot) :=
    cr3.trans (inv.physical slot)
  have isPresent : hasPerm (filing.kernel.leaf .user slot (pageOf address)) permPresent = true := by
    rw [root_eq, translate_eq inv live low] at translated
    by_contra absent
    rw [if_neg absent] at translated
    cases translated
  have carries := Filing.faithful_iff.1 sound.faithful slot
  have here := carries (pageOf address)
  refine wp_mono (pfReadEnvPage_flags valid inv low running active isPresent)
    (fun result next outcome => ?_) fun _ _ => id
  rcases outcome with ⟨unplaced, rfl, rfl⟩ | ⟨placed, rfl, becomes, -, calm, -⟩
  · refine ⟨sound, ?_⟩
    cases given : filing.given slot (pageOf address) with
    | none => rfl
    | some content =>
        rw [given] at here
        exact absurd unplaced here.1
  · have kept := sound.becomes becomes carries
    rw [Function.update_eq_self] at kept
    refine ⟨kept, ?_⟩
    cases given : filing.given slot (pageOf address) with
    | none =>
        rw [given] at here
        exact absurd here placed
    | some content =>
        rw [given] at here
        have entry : next.leaf .user slot (pageOf address) =
            changePerm (filing.kernel.leaf .user slot (pageOf address) ||| permModified) 0 permModified := by
          rw [becomes.entry]
          exact Function.update_self ..
        have presentNext : (next.leaf .user slot (pageOf address)).testBit 0 = true := by
          rw [hasPerm_present] at isPresent
          rw [entry, testBit_changePerm _ _ _ _ (by decide), Nat.testBit_or, isPresent]
          decide
        have mapped : next.leaf .user slot (pageOf address) ≠ 0 := by
          intro zero
          simp [zero] at presentNext
        have liveNext : next.root .user slot ≠ 0 := by
          rw [calm.root_user]
          exact live
        have translation := translate_eq becomes.inv liveNext low
        rw [if_pos (by rwa [hasPerm_present])] at translation
        refine ⟨rfl, _, translation, Page.words_eq_iff.1 ?_⟩
        have delivered : (next.space slot).content (pageOf address) = content.words := by
          rw [becomes.space, ← here.2]
          exact Function.update_self ..
        rw [← delivered]
        exact (if_neg mapped).symm

theorem keeps_free (valid : layout.Valid) {filing : Filing} (sound : filing.Sound layout ram) :
    (PageFileCall.free slot).Keeps layout ram filing := by
  unfold PageFileCall.Keeps PageFileCall.perform
  rw [wp_bind]
  by_cases placed : (filing.kernel.envs slot).diskEnvPgdir = none
  · unfold pfFreeEnv
    rw [wp_bind, wp_get, placed]
    intro message stopped
    cases stopped
  · refine wp_mono (pfFreeEnv_spec valid sound.inv placed) (fun _ next freed => ?_) fun _ _ never => never
    refine sound.becomes freed.1 fun page => ?_
    change (if page < userPages then 0 else filing.kernel.leaf .disk slot page) = 0
    split
    · rfl
    · next high =>
        by_contra some
        exact high (KernelState.page_lt_of_leaf some)

theorem keeps_switch {filing : Filing} (sound : filing.Sound layout ram) :
    (PageFileCall.switch slot).Keeps layout ram filing :=
  ⟨⟨{ sound.inv.toCore with }, sound.inv.toLedger.congr rfl rfl rfl rfl rfl⟩, sound.faithful⟩

theorem PageFileCall.Proper.keeps (valid : layout.Valid) {filing : Filing} (sound : filing.Sound layout ram)
    {call : PageFileCall} (proper : call.Proper filing.kernel) : call.Keeps layout ram filing := by
  cases call with
  | add slot address dataSrc => exact keeps_add valid sound proper dataSrc
  | update slot address frame => exact keeps_update valid sound proper.1 proper.2
  | remove slot address => exact keeps_remove valid sound proper
  | read slot address =>
      exact wp_mono_returns (read_spec valid sound proper) (fun _ _ read => read.1)
  | free slot => exact keeps_free valid sound
  | switch slot => exact keeps_switch sound

theorem Filing.Sound.exec (valid : layout.Valid) {filing last : Filing} (sound : filing.Sound layout ram)
    {call : PageFileCall} (proper : call.Proper filing.kernel) (executes : filing.exec call = some last) :
    last.Sound layout ram := by
  have keeps := proper.keeps valid sound
  unfold Filing.exec at executes
  split at executes
  · next result next outcome =>
      cases executes
      exact (wp_of_ok outcome).1 keeps
  · next message next outcome =>
      cases executes
      exact (wp_of_error outcome).1 keeps message rfl
  · cases executes

/-! ### Runs -/

/-- The states that operations on user addresses reach. -/
abbrev Filing.Reached (layout : BootLayout) : Filing → Prop :=
  (pageFile layout).Reaches fun filing call => call.Proper filing.kernel

theorem Filing.Reached.sound (valid : layout.Valid) {filing : Filing} (reached : Filing.Reached layout filing) :
    ∃ ram, filing.Sound layout ram := by
  refine Foundation.System.Reaches.invariant (fun filing => ∃ ram, filing.Sound layout ram) ?_ ?_ reached
  · rintro filing ⟨⟨ram, inv⟩, faithful⟩
    exact ⟨ram, inv, faithful⟩
  · rintro filing call last ⟨ram, sound⟩ proper executes
    exact ⟨ram, sound.exec valid proper executes⟩

/-- A page is read as it was given last, and there is none exactly where nothing was given
since the page was removed. -/
theorem Filing.Reached.read (valid : layout.Valid) {filing : Filing} (reached : Filing.Reached layout filing)
    (proper : (PageFileCall.read slot address).Proper filing.kernel) :
    ∃ result next, pfReadEnvPage slot address filing.kernel = .ok result next ∧
      match filing.given slot (pageOf address) with
      | none => result = ePageNotExistInPF
      | some content => result = 0 ∧ ∃ frame,
          next.translate (next.envs slot).envPageDirectory address = some frame ∧
            ∀ index < 1024, next.mem frame index = content index := by
  obtain ⟨ram, sound⟩ := reached.sound valid
  rcases wp_cases (read_spec valid sound proper) with ⟨result, next, outcome, -, delivered⟩ | ⟨_, _, _, never⟩
  · exact ⟨result, next, outcome, delivered⟩
  · exact never.elim

theorem Filing.faithful_found (state : KernelState) : (Filing.found state).Faithful := by
  intro slot page
  by_cases placed : state.leaf .disk slot page = 0
  · simp only [found, if_pos placed]
    exact placed
  · simp only [found, if_neg placed]
    exact ⟨placed, fun _ _ => trivial⟩

/-- A loaded page of a program is read back as the loader gave it. -/
theorem Filing.read_ones : ∃ filing, Filing.Reached BootLayout.small filing ∧
    ∃ result next, pfReadEnvPage 0 0x800000 filing.kernel = .ok result next ∧ result = 0 ∧
      ∃ frame, next.translate (next.envs 0).envPageDirectory 0x800000 = some frame ∧
        next.mem frame 0 = 0x01010101 := by
  have loaded : ∃ last ∈ created (envCreate (some (onesProgram 100 200 0x800000)) 10 3 clearMachine),
      last.1 = 0 ∧ ((last.2.envs 0).envPageDirectory ≠ 0 ∧
        (last.2.translate (last.2.envs 0).envPageDirectory 0x800000).isSome ∧
        last.2.leaf .disk 0 0x800 ≠ 0 ∧ last.2.diskPage (last.2.leaf .disk 0 0x800) 0 = 0x01010101) := by
    decide +kernel
  obtain ⟨state, ran, live, mapped, placed, ones⟩ := of_created (fun next =>
    (next.envs 0).envPageDirectory ≠ 0 ∧
      (next.translate (next.envs 0).envPageDirectory 0x800000).isSome ∧
      next.leaf .disk 0 0x800 ≠ 0 ∧ next.diskPage (next.leaf .disk 0 0x800) 0 = 0x01010101) loaded
  have inv := inv_of_created (by decide) ran
  have reached : Filing.Reached BootLayout.small ⟨{ state with
      curenv := some 0
      cr3 := (state.envs 0).envCr3 }, (Filing.found state).given⟩ :=
    .step (.switch 0) (.start ⟨⟨_, inv⟩, faithful_found state⟩) trivial rfl
  have proper : (PageFileCall.read 0 0x800000).Proper { state with
      curenv := some 0
      cr3 := (state.envs 0).envCr3 } := ⟨by decide, rfl, rfl, live, mapped⟩
  obtain ⟨result, next, read, delivered⟩ := Filing.Reached.read BootLayout.small_valid reached proper
  have given : (Filing.found state).given 0 (pageOf 0x800000) =
      some (state.diskPage (state.leaf .disk 0 0x800)) := if_neg placed
  rw [given] at delivered
  obtain ⟨zero, frame, translated, content⟩ := delivered
  exact ⟨_, reached, result, next, read, zero, frame, translated, (content 0 (by decide)).trans ones⟩

end Fos.Kernel
