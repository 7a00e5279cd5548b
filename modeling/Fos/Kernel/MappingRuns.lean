import Fos.Kernel.BootProperties
import Fos.Kernel.MappingsProperties

/-! Runs of the mapping calls: when the reference counts are right, and that the page tables are a
finite map from pages to frames. -/

set_option autoImplicit false

namespace Fos.Kernel

open Foundation

namespace Mappings

variable {layout : BootLayout} {exact shown : Prop} {state next : Mappings}
  {directory frame address perm slot set clear : Nat} {call : MappingCall}

/-! ### The invariant -/

/-- The tables are right, the last mapped frames are those of the entries, and with `shown` every
nonzero entry is present. -/
structure Sound (layout : BootLayout) (exact shown : Prop) (state : Mappings) : Prop where
  tabular : Tabular layout exact state.directories state.kernel
  recorded : ∀ directory ∈ state.directories, ∀ page < userPages, state.lastMapped directory page =
    if state.kernel.entry directory page = 0 then none else some (frameOf (state.kernel.entry directory page))
  present : shown → ∀ directory ∈ state.directories, ∀ page < userPages, state.kernel.entry directory page ≠ 0 →
    hasPerm (state.kernel.entry directory page) permPresent = true

theorem after_eq_some {Result : Type} {program : KernelM Result} {record : Result → Mappings → Mappings}
    {post : Result → KernelState → Prop} (holds : wp program post (fun _ _ => True) state.kernel)
    (executes : state.after program record = some next) :
    ∃ result kernel, post result kernel ∧ next = record result { state with kernel } := by
  unfold after at executes
  unfold wp at holds
  split at executes
  · next result kernel outcome =>
      rw [outcome] at holds
      cases executes
      exact ⟨result, kernel, holds, rfl⟩
  · cases executes

theorem setLastMapped_same (state : Mappings) (directory page : Nat) (frame : Option Nat) (other number : Nat) :
    (state.setLastMapped directory page frame).lastMapped other number =
      if other = directory ∧ number = page then frame else state.lastMapped other number := rfl

/-- One entry was rewritten, and what was last mapped there is recorded. -/
theorem Sound.rewrite (sound : Sound layout exact shown state) {kernel : KernelState} {page word : Nat}
    {frame : Option Nat} (tabular : Tabular layout exact state.directories kernel)
    (entries : ∀ other ∈ state.directories, ∀ number < userPages, kernel.entry other number =
      if other = directory ∧ number = page then word else state.kernel.entry other number)
    (recorded : frame = if word = 0 then none else some (frameOf word))
    (present : shown → word ≠ 0 → hasPerm word permPresent = true) :
    Sound layout exact shown ({ state with kernel }.setLastMapped directory page frame) where
  tabular := tabular
  recorded other inOther number low := by
    change _ = if kernel.entry other number = 0 then none else _
    rw [setLastMapped_same]
    change _ = if kernel.entry other number = 0 then none else some (frameOf (kernel.entry other number))
    rw [entries other inOther number low]
    split
    · exact recorded
    · exact sound.recorded other inOther number low
  present isShown other inOther number low := by
    change kernel.entry other number ≠ 0 → hasPerm (kernel.entry other number) permPresent = true
    rw [entries other inOther number low]
    split
    · exact present isShown
    · exact sound.present isShown other inOther number low

theorem hasPerm_mappedEntry {permissions : Nat} : hasPerm (mappedEntry frame permissions) permPresent = true := by
  rw [hasPerm_present, mappedEntry, testBit_constructEntry _ (by decide), Nat.testBit_or]
  simp

/-! ### Steps -/

theorem Sound.allocateFrame (sound : Sound layout exact shown state) (executes : exec state .allocateFrame = some next) :
    Sound layout exact shown next := by
  rw [exec] at executes
  obtain ⟨frame, kernel, ⟨kept, -, -, only⟩, rfl⟩ := after_eq_some sound.tabular.wp_allocateFrame executes
  have same (other number : Nat) : kernel.entry other number = state.kernel.entry other number :=
    KernelState.entry_congr (by rw [only.mem]) fun _ => by rw [only.mem]
  constructor
  · exact kept
  · intro other inOther number low
    change _ = if kernel.entry other number = 0 then none else some (frameOf (kernel.entry other number))
    rw [same]
    exact sound.recorded other inOther number low
  · intro isShown other inOther number low
    change kernel.entry other number ≠ 0 → hasPerm (kernel.entry other number) permPresent = true
    rw [same]
    exact sound.present isShown other inOther number low

theorem Sound.createPageDirectory (sound : Sound layout exact shown state) (valid : layout.Valid)
    (executes : exec state (.createPageDirectory slot) = some next) : Sound layout exact shown next := by
  rw [exec] at executes
  obtain ⟨directory, kernel, ⟨kept, founds⟩, rfl⟩ :=
    after_eq_some (sound.tabular.wp_createPageDirectory valid slot) executes
  have ne_of_mem {other : Nat} (member : other ∈ state.directories) : other ≠ directory := fun same =>
    founds.fresh (same ▸ member)
  constructor
  · exact kept
  · intro other inOther number low
    change (if other = directory then none else state.lastMapped other number) =
      if kernel.entry other number = 0 then none else some (frameOf (kernel.entry other number))
    rcases List.mem_cons.1 inOther with rfl | member
    · rw [if_pos rfl, founds.empty number low, if_pos rfl]
    · rw [if_neg (ne_of_mem member), founds.entry other member number low]
      exact sound.recorded other member number low
  · intro isShown other inOther number low
    change kernel.entry other number ≠ 0 → hasPerm (kernel.entry other number) permPresent = true
    rcases List.mem_cons.1 inOther with rfl | member
    · exact fun some => absurd (founds.empty number low) some
    · rw [founds.entry other member number low]
      exact sound.present isShown other member number low

theorem Sound.mapFrame (sound : Sound layout exact shown state) (valid : layout.Valid)
    (may : state.MayMap layout directory frame address perm) (room : state.kernel.references frame + 1 < 0x10000)
    (here : state.kernel.entry directory (pageOf address) ≠ 0 →
      hasPerm (state.kernel.entry directory (pageOf address)) permPresent = true)
    (executes : exec state (.mapFrame directory frame address perm) = some next) :
    Sound layout exact shown next ∧
      MapsFrame layout exact state.directories directory (pageOf address) frame perm state.kernel next.kernel := by
  obtain ⟨⟨member, low⟩, managed, inUse, lowPerm⟩ := may
  rw [exec] at executes
  obtain ⟨_, kernel, done, rfl⟩ :=
    after_eq_some (sound.tabular.wp_mapFrame valid member low managed inUse lowPerm room here) executes
  refine ⟨sound.rewrite done.1 done.2.1.entry ?_ fun _ => ?_, done⟩
  · split
    · next same => rw [if_neg same.1, same.2]
    · rw [if_neg (mappedEntry_ne_zero lowPerm), frameOf_mappedEntry lowPerm]
  · split
    · exact here
    · exact fun _ => hasPerm_mappedEntry

theorem Sound.loadtimeMapFrame (sound : Sound layout False shown state) (valid : layout.Valid)
    (may : state.MayMap layout directory frame address perm) (room : state.kernel.references frame + 1 < 0x10000)
    (executes : exec state (.loadtimeMapFrame directory frame address perm) = some next) :
    Sound layout False shown next := by
  obtain ⟨⟨member, low⟩, managed, inUse, lowPerm⟩ := may
  rw [exec] at executes
  obtain ⟨_, kernel, ⟨kept, maps⟩, rfl⟩ := after_eq_some
    (sound.tabular.wp_loadtimeMapFrame valid member low managed inUse lowPerm room False.elim) executes
  refine sound.rewrite kept maps.entry ?_ fun _ _ => hasPerm_mappedEntry
  rw [if_neg (mappedEntry_ne_zero lowPerm), frameOf_mappedEntry lowPerm]

theorem Sound.unmapFrame (sound : Sound layout exact shown state) (valid : layout.Valid)
    (user : state.UserPageOf directory address) (executes : exec state (.unmapFrame directory address) = some next) :
    Sound layout exact shown next := by
  rw [exec] at executes
  obtain ⟨_, kernel, ⟨kept, unmaps⟩, rfl⟩ :=
    after_eq_some (sound.tabular.wp_unmapFrame valid user.1 user.2) executes
  exact sound.rewrite kept unmaps.edits.entry rfl fun _ some => absurd rfl some

theorem Sound.ptSetPagePermissions (sound : Sound layout exact False state) (valid : layout.Valid)
    (user : state.UserPageOf (state.kernel.envs slot).envPageDirectory address)
    (setLow : set < pageSize) (clearLow : clear < pageSize)
    (mapped : state.kernel.entry (state.kernel.envs slot).envPageDirectory (pageOf address) ≠ 0 ∨
      changePerm 0 set clear = 0)
    (executes : exec state (.ptSetPagePermissions slot address set clear) = some next) :
    Sound layout exact False next := by
  rw [exec] at executes
  obtain ⟨_, kernel, ⟨kept, edits, names⟩, rfl⟩ := after_eq_some
    (sound.tabular.wp_ptSetPagePermissions valid user.1 user.2 setLow clearLow mapped) executes
  constructor
  · exact kept
  · intro other inOther number low
    change state.lastMapped other number =
      if kernel.entry other number = 0 then none else some (frameOf (kernel.entry other number))
    rw [edits.entry other inOther number low, sound.recorded other inOther number low]
    by_cases here : other = (state.kernel.envs slot).envPageDirectory ∧ number = pageOf address
    · obtain ⟨rfl, rfl⟩ := here
      simp only [and_self, if_true]
      by_cases unmapped : state.kernel.entry (state.kernel.envs slot).envPageDirectory (pageOf address) = 0
      · rw [unmapped, mapped.resolve_left (not_not.2 unmapped)]
      · obtain ⟨same, nonzero⟩ := names unmapped
        rw [if_neg unmapped, if_neg nonzero, same]
    · rw [if_neg here]
  · exact False.elim

/-! ### Booting -/

theorem linked_boot (valid : layout.Valid) (ram disk : Nat → Page) :
    Linked layout [layout.pageDirectory] (layout.boot ram disk) := by
  have inside := valid.directory
  have frames := valid.frames
  have notManaged := BootLayout.not_managed inside.1 inside.2
  have zero (index : Nat) (low : index < userTables) : (layout.boot ram disk).mem layout.pageDirectory index = 0 := by
    rw [userTables_eq] at low
    simp only [BootLayout.boot, BootLayout.bootMem, BootLayout.bootWord, if_true, Option.getD_some, BootLayout.directoryWord]
    have vpt' : pdx vpt = 959 := rfl
    have uvpt' : pdx uvpt = 957 := rfl
    have stack : pdx (kernelStackTop - kernelStackSize) = 958 := rfl
    have envs : pdx uenvs = 955 := rfl
    have window : pdx kernelBase = 960 := rfl
    rw [vpt', uvpt', stack, envs, window, if_neg (by omega), if_neg (by omega), if_neg (by omega), if_neg (by omega),
      if_neg (by omega)]
  have absent (directory : Nat) (member : directory ∈ [layout.pageDirectory]) (index : Nat) (low : index < userTables) :
      (layout.boot ram disk).mem directory index = 0 := List.mem_singleton.1 member ▸ zero index low
  constructor
  · rfl
  · intro directory member
    rw [List.mem_singleton.1 member, mem_freeFrameList_boot valid]
    exact ⟨by omega, notManaged⟩
  · exact fun directory member index low present => absurd (absent directory member index low) present
  · exact fun directory member index low present => absurd (absent directory member index low) present
  · exact fun directory member _ _ index low _ _ present => absurd (absent directory member index low) present
  · intro directory member page low mapped
    exact absurd (KernelState.entry_of_absent (absent directory member _ (index_of_page low))) mapped
  · exact nodup_freeFrameList_boot valid
  · exact fun frame member => (mem_freeFrameList_boot valid).1 member

theorem sound_start (valid : layout.Valid) {state : Mappings} (started : (system layout).start state) :
    Sound layout exact shown state := by
  obtain ⟨ram, disk, rfl⟩ := started
  have linked := linked_boot valid ram disk
  have unmapped (directory : Nat) (member : directory ∈ [layout.pageDirectory]) (page : Nat) (low : page < userPages) :
      (layout.boot ram disk).entry directory page = 0 := by
    by_contra mapped
    obtain ⟨managed, notFree⟩ := linked.entries directory member page low mapped
    exact notFree ((mem_freeFrameList_boot valid).2 managed)
  have unused (frame : Nat) (managed : layout.Managed frame) :
      (layout.boot ram disk).pointers [layout.pageDirectory] frame = 0 :=
    linked.pointers_of_free ((mem_freeFrameList_boot valid).2 managed)
  have none (frame : Nat) (managed : layout.Managed frame) : (layout.boot ram disk).references frame = 0 :=
    if_neg fun reserved => reserved.2 managed
  constructor
  · refine ⟨linked, fun frame managed => ?_, fun _ frame managed => ?_, fun frame managed => ?_⟩
    · rw [unused frame managed]
      exact Nat.zero_le _
    · rw [unused frame managed, none frame managed]
    · rw [none frame managed]
      decide
  · intro directory member page low
    change Option.none = if (layout.boot ram disk).entry directory page = 0 then Option.none else _
    rw [unmapped directory member page low, if_pos rfl]
  · exact fun _ directory member page low mapped => absurd (unmapped directory member page low) mapped

/-! ### Reference counts -/

/-- `map_frame`, `unmap_frame` and `pt_set_page_permissions` on user pages, with frames that are in
use and permission bits, and what hands out frames and directories. -/
def MapsAndFlags (layout : BootLayout) (state : Mappings) : MappingCall → Prop
  | .allocateFrame => True
  | .createPageDirectory _ => True
  | .mapFrame directory frame address perm => state.MayMap layout directory frame address perm
  | .loadtimeMapFrame .. => False
  | .unmapFrame directory address => state.UserPageOf directory address
  | .ptSetPagePermissions slot address set clear =>
      state.UserPageOf (state.kernel.envs slot).envPageDirectory address ∧ set < pageSize ∧ clear < pageSize

instance (layout : BootLayout) (state : Mappings) (call : MappingCall) : Decidable (state.MapsAndFlags layout call) :=
  match call with
  | .allocateFrame => inferInstanceAs (Decidable True)
  | .createPageDirectory _ => inferInstanceAs (Decidable True)
  | .mapFrame .. => inferInstanceAs (Decidable (state.MayMap ..))
  | .loadtimeMapFrame .. => inferInstanceAs (Decidable False)
  | .unmapFrame .. => inferInstanceAs (Decidable (state.UserPageOf ..))
  | .ptSetPagePermissions .. => inferInstanceAs (Decidable (_ ∧ _))

/-- The reference count of the mapped frame does not leave its 16 bits. -/
def HasRoom (state : Mappings) (frame : Nat) : Prop := state.kernel.references frame + 1 < 0x10000

/-- `map_frame` finds no entry or a present one, and not the same frame with other flags; flags are
set only where a frame is mapped. -/
def Careful (state : Mappings) : MappingCall → Prop
  | .mapFrame directory frame address perm =>
      state.HasRoom frame ∧
        (state.kernel.entry directory (pageOf address) = 0 ∨
          hasPerm (state.kernel.entry directory (pageOf address)) permPresent = true ∧
            (frameOf (state.kernel.entry directory (pageOf address)) = frame →
              state.kernel.entry directory (pageOf address) = mappedEntry frame perm))
  | .ptSetPagePermissions slot address set clear =>
      state.kernel.entry (state.kernel.envs slot).envPageDirectory (pageOf address) ≠ 0 ∨ changePerm 0 set clear = 0
  | _ => True

instance (state : Mappings) (call : MappingCall) : Decidable (state.Careful call) :=
  match call with
  | .allocateFrame => inferInstanceAs (Decidable True)
  | .createPageDirectory _ => inferInstanceAs (Decidable True)
  | .mapFrame .. => inferInstanceAs (Decidable (_ < _ ∧ (_ = _ ∨ _ = _ ∧ (_ → _))))
  | .loadtimeMapFrame .. => inferInstanceAs (Decidable True)
  | .unmapFrame .. => inferInstanceAs (Decidable True)
  | .ptSetPagePermissions .. => inferInstanceAs (Decidable (_ ∨ _))

/-- Each frame has as many references as nonzero page table entries name it, one more if it is a
directory or a page table itself. -/
def Counted (layout : BootLayout) (state : Mappings) : Prop :=
  ∀ frame, layout.Managed frame → state.kernel.references frame =
    state.kernel.entriesNaming state.directories frame + if state.kernel.Node state.directories frame then 1 else 0

/-- `map_frame` leaves exactly the entry it is asked for, and another frame that the old entry named
has lost a reference and is free if that was its last. -/
def MapsRight (directory frame address perm : Nat) (state next : Mappings) : Prop :=
  next.kernel.entry directory (pageOf address) = mappedEntry frame perm ∧
    (state.kernel.entry directory (pageOf address) ≠ 0 →
      frameOf (state.kernel.entry directory (pageOf address)) ≠ frame →
      Displaces (frameOf (state.kernel.entry directory (pageOf address))) state.kernel next.kernel)

theorem Sound.careful (sound : Sound layout True False state) (valid : layout.Valid)
    (permitted : state.MapsAndFlags layout call ∧ state.Careful call) (executes : exec state call = some next) :
    Sound layout True False next := by
  obtain ⟨proper, careful⟩ := permitted
  cases call with
  | allocateFrame => exact sound.allocateFrame executes
  | createPageDirectory slot => exact sound.createPageDirectory valid executes
  | mapFrame directory frame address perm =>
      refine (sound.mapFrame valid proper careful.1 (fun mapped => ?_) executes).1
      exact (careful.2.resolve_left mapped).1
  | loadtimeMapFrame directory frame address perm => exact proper.elim
  | unmapFrame directory address => exact sound.unmapFrame valid proper executes
  | ptSetPagePermissions slot address set clear =>
      exact sound.ptSetPagePermissions valid proper.1 proper.2.1 proper.2.2 careful executes

theorem Sound.of_careful_reaches (valid : layout.Valid)
    (reached : (system layout).Reaches (fun state call => state.MapsAndFlags layout call ∧ state.Careful call) state) :
    Sound layout True False state :=
  reached.invariant _ (fun _ => sound_start valid) fun _ _ _ sound => sound.careful valid

/-- As long as all calls are careful, the counts are right and `map_frame` does what it promises. -/
theorem counted_of_careful (valid : layout.Valid)
    (reached : (system layout).Reaches (fun state call => state.MapsAndFlags layout call ∧ state.Careful call) state) :
    state.Counted layout ∧ ∀ directory frame address perm next,
      state.MapsAndFlags layout (.mapFrame directory frame address perm) →
      state.Careful (.mapFrame directory frame address perm) →
      exec state (.mapFrame directory frame address perm) = some next →
      MapsRight directory frame address perm state next := by
  have sound := Sound.of_careful_reaches valid reached
  refine ⟨fun frame managed => sound.tabular.accounts.exact trivial frame managed, ?_⟩
  intro directory frame address perm next proper careful executes
  obtain ⟨-, -, maps, displaces⟩ := sound.mapFrame valid proper careful.1
    (fun mapped => (careful.2.resolve_left mapped).1) executes
  obtain ⟨⟨member, low⟩, managed, inUse, lowPerm⟩ := proper
  have tabular := sound.tabular
  have entry : next.kernel.entry directory (pageOf address) = _ :=
    (maps.entry directory member _ (pageOf_lt low)).trans (if_pos ⟨rfl, rfl⟩)
  refine ⟨entry.trans ?_, displaces⟩
  split
  · next same => exact (careful.2.resolve_left same.1).2 same.2
  · rfl

/-- A machine that has just booted. -/
def booted : Mappings :=
  ⟨BootLayout.small.boot (fun _ => Page.zero) fun _ => Page.zero, [BootLayout.small.pageDirectory], fun _ _ => none⟩

theorem exists_attempt (allowed : Mappings → MappingCall → Prop) [∀ state call, Decidable (allowed state call)]
    (calls : List MappingCall) (good : Mappings → Prop)
    (ran : ∃ last ∈ (system .small).attempt allowed booted calls, good last) :
    ∃ last, (system .small).Reaches allowed last ∧ good last := by
  obtain ⟨last, member, holds⟩ := ran
  have initial : (system .small).start booted := ⟨_, _, rfl⟩
  exact ⟨last, (System.Reaches.start initial).attempt member, holds⟩

/-- A frame is mapped at two pages and replaced at one of them. -/
theorem counted_of_careful_shared : ∃ state, (system .small).Reaches
      (fun state call => state.MapsAndFlags .small call ∧ state.Careful call) state ∧
    state.kernel.references 1022 = 1 ∧ state.Counted .small := by
  obtain ⟨state, reached, once⟩ := exists_attempt
    (fun state call => state.MapsAndFlags .small call ∧ state.Careful call)
    [.createPageDirectory 0, .allocateFrame, .allocateFrame, .mapFrame 1023 1022 0x800000 7, .mapFrame 1023 1022 0x801000 7,
      .mapFrame 1023 1021 0x801000 7] (fun state => state.kernel.references 1022 = 1) (by decide +kernel)
  exact ⟨state, reached, once, (counted_of_careful BootLayout.small_valid reached).1⟩

/-- A page whose present bit is off gets another frame: its old frame keeps the reference and is not
free. A page that gets its own frame with other flags keeps the old flags. -/
theorem not_mapsRight : ∃ state, (system .small).Reaches (fun state call => state.MapsAndFlags .small call) state ∧
    (∃ next ∈ exec state (.mapFrame 1023 1021 0x800000 7),
      state.kernel.references 1022 = 1 ∧ frameOf (state.kernel.entry 1023 (pageOf 0x800000)) = 1022 ∧
        next.kernel.references 1022 = 1 ∧ 1022 ∉ next.kernel.freeFrameList ∧
        ¬ MapsRight 1023 1021 0x800000 7 state next) ∧
    ∃ next ∈ exec state (.mapFrame 1023 1021 0x801000 7),
      next.kernel.entry 1023 (pageOf 0x801000) = mappedEntry 1021 5 ∧ ¬ MapsRight 1023 1021 0x801000 7 state next := by
  obtain ⟨state, reached, ⟨next, executes, one, named, kept, notFree⟩, other, executesOther, flags⟩ := exists_attempt
    (fun state call => state.MapsAndFlags .small call)
    [.createPageDirectory 0, .allocateFrame, .allocateFrame, .mapFrame 1023 1022 0x800000 7, .mapFrame 1023 1021 0x801000 5,
      .ptSetPagePermissions 0 0x800000 0 1]
    (fun state => (∃ next ∈ exec state (.mapFrame 1023 1021 0x800000 7),
        state.kernel.references 1022 = 1 ∧ frameOf (state.kernel.entry 1023 (pageOf 0x800000)) = 1022 ∧
          next.kernel.references 1022 = 1 ∧ 1022 ∉ next.kernel.freeFrameList) ∧
      ∃ next ∈ exec state (.mapFrame 1023 1021 0x801000 7),
        next.kernel.entry 1023 (pageOf 0x801000) = mappedEntry 1021 5) (by decide +kernel)
  refine ⟨state, reached, ⟨next, executes, one, named, kept, notFree, fun right => ?_⟩, other, executesOther, flags,
    fun right => ?_⟩
  · have mapped : state.kernel.entry 1023 (pageOf 0x800000) ≠ 0 := by
      intro unmapped
      rw [unmapped] at named
      exact absurd named (by decide)
    have lost := (right.2 mapped (by rw [named]; decide)).lost
    rw [named, one, kept] at lost
    exact absurd lost (by decide)
  · have entry := right.1
    rw [flags] at entry
    exact absurd entry (by decide)

/-! ### A finite map -/

/-- `map_frame`, `loadtime_map_frame` and `unmap_frame` on user pages, with frames that are in use,
and what hands out frames and directories. -/
def MapsAndLoads (layout : BootLayout) (state : Mappings) : MappingCall → Prop
  | .allocateFrame => True
  | .createPageDirectory _ => True
  | .mapFrame directory frame address perm => state.MayMap layout directory frame address perm
  | .loadtimeMapFrame directory frame address perm => state.MayMap layout directory frame address perm
  | .unmapFrame directory address => state.UserPageOf directory address
  | .ptSetPagePermissions .. => False

instance (layout : BootLayout) (state : Mappings) (call : MappingCall) : Decidable (state.MapsAndLoads layout call) :=
  match call with
  | .allocateFrame => inferInstanceAs (Decidable True)
  | .createPageDirectory _ => inferInstanceAs (Decidable True)
  | .mapFrame .. => inferInstanceAs (Decidable (state.MayMap ..))
  | .loadtimeMapFrame .. => inferInstanceAs (Decidable (state.MayMap ..))
  | .unmapFrame .. => inferInstanceAs (Decidable (state.UserPageOf ..))
  | .ptSetPagePermissions .. => inferInstanceAs (Decidable False)

/-- No reference count leaves its 16 bits. -/
def NoOverflow (state : Mappings) : MappingCall → Prop
  | .mapFrame _ frame _ _ => state.HasRoom frame
  | .loadtimeMapFrame _ frame _ _ => state.HasRoom frame
  | _ => True

instance (state : Mappings) (frame : Nat) : Decidable (state.HasRoom frame) := inferInstanceAs (Decidable (_ < _))

instance (state : Mappings) (call : MappingCall) : Decidable (state.NoOverflow call) :=
  match call with
  | .allocateFrame => inferInstanceAs (Decidable True)
  | .createPageDirectory _ => inferInstanceAs (Decidable True)
  | .mapFrame .. => inferInstanceAs (Decidable (state.HasRoom _))
  | .loadtimeMapFrame .. => inferInstanceAs (Decidable (state.HasRoom _))
  | .unmapFrame .. => inferInstanceAs (Decidable True)
  | .ptSetPagePermissions .. => inferInstanceAs (Decidable True)

/-- `get_frame_info` finds the frame last mapped at each user page, and none where there is none. -/
def FindsLastMapped (state : Mappings) : Prop :=
  ∀ directory address, state.UserPageOf directory address →
    ∃ table, getFrameInfo directory address state.kernel =
      .ok (state.lastMapped directory (pageOf address), table) state.kernel

theorem Sound.loads (sound : Sound layout False True state) (valid : layout.Valid)
    (permitted : state.MapsAndLoads layout call ∧ state.NoOverflow call) (executes : exec state call = some next) :
    Sound layout False True next := by
  obtain ⟨proper, room⟩ := permitted
  cases call with
  | allocateFrame => exact sound.allocateFrame executes
  | createPageDirectory slot => exact sound.createPageDirectory valid executes
  | mapFrame directory frame address perm =>
      have present := sound.present trivial directory proper.1.1 _ (pageOf_lt proper.1.2)
      exact (sound.mapFrame valid proper room present executes).1
  | loadtimeMapFrame directory frame address perm => exact sound.loadtimeMapFrame valid proper room executes
  | unmapFrame directory address => exact sound.unmapFrame valid proper executes
  | ptSetPagePermissions slot address set clear => exact proper.elim

theorem Sound.findsLastMapped (sound : Sound layout exact shown state) (valid : layout.Valid) :
    state.FindsLastMapped := by
  intro directory address user
  have found : wp (getFrameInfo directory address) (fun result kernel =>
      result.1 = state.lastMapped directory (pageOf address) ∧ kernel = state.kernel) (fun _ _ => False) state.kernel := by
    rw [sound.tabular.linked.wp_getFrameInfo valid user.1 user.2]
    exact ⟨(sound.recorded directory user.1 _ (pageOf_lt user.2)).symm, rfl⟩
  rcases wp_cases found with ⟨result, kernel, outcome, same, rfl⟩ | ⟨_, _, -, never⟩
  · refine ⟨result.2, ?_⟩
    rw [outcome, ← same]
  · exact never.elim

/-- As long as no count overflows, the page tables are a finite map. -/
theorem findsLastMapped_of_noOverflow (valid : layout.Valid)
    (reached : (system layout).Reaches (fun state call => state.MapsAndLoads layout call ∧ state.NoOverflow call) state) :
    state.FindsLastMapped := by
  have sound : Sound layout False True state :=
    reached.invariant _ (fun _ => sound_start valid) fun _ _ _ sound => sound.loads valid
  exact sound.findsLastMapped valid

/-- A frame is loaded over another one, and a page is unmapped. -/
theorem findsLastMapped_of_noOverflow_loaded : ∃ state, (system .small).Reaches
      (fun state call => state.MapsAndLoads .small call ∧ state.NoOverflow call) state ∧
    state.lastMapped 1023 (pageOf 0x800000) = some 1021 ∧ state.lastMapped 1023 (pageOf 0xC00000) = none ∧
    state.FindsLastMapped := by
  obtain ⟨state, reached, loaded, unmapped⟩ := exists_attempt
    (fun state call => state.MapsAndLoads .small call ∧ state.NoOverflow call)
    [.createPageDirectory 0, .allocateFrame, .allocateFrame, .mapFrame 1023 1022 0x800000 7,
      .loadtimeMapFrame 1023 1021 0x800000 7, .mapFrame 1023 1022 0xC00000 7, .unmapFrame 1023 0xC00000]
    (fun state => state.lastMapped 1023 (pageOf 0x800000) = some 1021 ∧
      state.lastMapped 1023 (pageOf 0xC00000) = none) (by decide +kernel)
  exact ⟨state, reached, loaded, unmapped, findsLastMapped_of_noOverflow BootLayout.small_valid reached⟩

/-- The reference count of a frame is another one. -/
def withCount (state : Mappings) (frame count : Nat) : Mappings :=
  { state with kernel := state.kernel.setReferences frame count }

/-- Loading a frame where it is loaded already changes its count and nothing else. -/
theorem load_again (count : Nat) {table : Nat} (word : state.kernel.mem directory (pdx address) = table)
    (some : table ≠ 0) (inside : frameOf table < state.kernel.numberOfFrames)
    (loaded : state.kernel.mem (frameOf table) (ptx address) = mappedEntry frame perm)
    (last : state.lastMapped directory (pageOf address) = Option.some frame) :
    exec (state.withCount frame count) (.loadtimeMapFrame directory frame address perm) =
      Option.some (state.withCount frame ((count + 1) % 0x10000)) := by
  have bound : frameOf (extractAddress table) < (state.kernel.setReferences frame count).numberOfFrames := by
    rwa [frameOf_extractAddress]
  have kept : wp (Kernel.loadtimeMapFrame directory frame address perm) (fun _ next =>
      next = state.kernel.setReferences frame ((count + 1) % 0x10000)) (fun _ _ => False)
      (state.kernel.setReferences frame count) := by
    generalize goal : (count + 1) % 0x10000 = gained
    simp only [Kernel.loadtimeMapFrame, bindFrame, incrementReferences, wp_bind, wp_get, wp_modify,
      KernelState.setReferences_mem, word, wp_staticKernelVirtualAddress bound, frameOf_extractAddress, if_neg some,
      KernelState.setReferences_references, if_true, KernelState.setReferences_twice, goal]
    have same := KernelState.writeWord_self (state.kernel.setReferences frame gained) (frameOf table) (ptx address)
    rw [KernelState.setReferences_mem, loaded] at same
    exact same
  rw [exec, after]
  rcases wp_cases kept with ⟨_, next, outcome, rfl⟩ | ⟨_, _, -, never⟩
  · have sameMap : (fun other number => if other = directory ∧ number = pageOf address then Option.some frame
        else state.lastMapped other number) = state.lastMapped := by
      funext other number
      split
      · next here => rw [here.1, here.2, last]
      · rfl
    simp only [withCount, outcome, setLastMapped, sameMap]
  · exact never.elim

/-- The counts a run of such loads goes through. -/
theorem reaches_withCount {allowed : Mappings → MappingCall → Prop} {table : Nat} (start : Nat)
    (reached : (system layout).Reaches allowed state) (count : state.kernel.references frame = start % 0x10000)
    (permitted : ∀ count, allowed (state.withCount frame count) (.loadtimeMapFrame directory frame address perm))
    (word : state.kernel.mem directory (pdx address) = table)
    (some : table ≠ 0) (inside : frameOf table < state.kernel.numberOfFrames)
    (loaded : state.kernel.mem (frameOf table) (ptx address) = mappedEntry frame perm)
    (last : state.lastMapped directory (pageOf address) = Option.some frame) (loads : Nat) :
    (system layout).Reaches allowed (state.withCount frame ((start + loads) % 0x10000)) := by
  induction loads with
  | zero =>
      have same : state.withCount frame ((start + 0) % 0x10000) = state := by
        rw [Nat.add_zero, ← count]
        have references : (fun other => if other = frame then state.kernel.references frame
            else state.kernel.references other) = state.kernel.references := by
          funext other
          split
          · next here => rw [here]
          · rfl
        unfold withCount KernelState.setReferences
        rw [references]
      rwa [same]
  | succ loads ih =>
      have next := load_again ((start + loads) % 0x10000) word some inside loaded last
      rw [Nat.mod_add_mod, Nat.add_assoc] at next
      exact ih.step _ (permitted _) next

/-- The frame that `get_frame_info` finds. -/
def frameFound (state : Mappings) (directory address : Nat) : Option (Option Nat) :=
  match getFrameInfo directory address state.kernel with
  | .ok result _ => some result.1
  | .error _ _ => none

theorem FindsLastMapped.frameFound (finds : state.FindsLastMapped) (user : state.UserPageOf directory address) :
    state.frameFound directory address = some (state.lastMapped directory (pageOf address)) := by
  obtain ⟨table, outcome⟩ := finds directory address user
  unfold Mappings.frameFound
  rw [outcome]

/-- A frame is loaded at a page once and at another page 65536 times. Its count is 1 again, so the
first unmapping frees it while it is mapped; it becomes a page table, is freed once more by the second
unmapping, and becomes another page table, which loses what was mapped in the first. -/
theorem not_findsLastMapped : ∃ state, (system .small).Reaches (fun state call => state.MapsAndLoads .small call) state ∧
    state.lastMapped 1023 (pageOf 0xC00000) = some 1021 ∧ state.frameFound 1023 0xC00000 = some none ∧
    ¬ state.FindsLastMapped := by
  obtain ⟨twice, reached, ⟨isDirectory, notFree, count, word, inside, loaded, last⟩, final, member, lost⟩ := exists_attempt
    (fun state call => state.MapsAndLoads .small call)
    [.createPageDirectory 0, .allocateFrame, .allocateFrame, .loadtimeMapFrame 1023 1022 0x800000 7,
      .loadtimeMapFrame 1023 1022 0x801000 7]
    (fun state => (1023 ∈ state.directories ∧ 1022 ∉ state.kernel.freeFrameList ∧ state.kernel.references 1022 = 2 ∧
        state.kernel.mem 1023 (pdx 0x801000) = 1020 * 4096 + 7 ∧ frameOf (1020 * 4096 + 7) < state.kernel.numberOfFrames ∧
        state.kernel.mem (frameOf (1020 * 4096 + 7)) (ptx 0x801000) = mappedEntry 1022 7 ∧
        state.lastMapped 1023 (pageOf 0x801000) = some 1022) ∧
      ∃ final ∈ (system .small).attempt (fun state call => state.MapsAndLoads .small call) (state.withCount 1022 1)
        [.unmapFrame 1023 0x800000, .mapFrame 1023 1021 0xC00000 7, .unmapFrame 1023 0x801000,
          .mapFrame 1023 1021 0x1001000 7],
        1023 ∈ final.directories ∧ final.lastMapped 1023 (pageOf 0xC00000) = some 1021 ∧
          final.frameFound 1023 0xC00000 = some none) (by decide +kernel)
  have permitted (count : Nat) : (twice.withCount 1022 count).MapsAndLoads .small
      (.loadtimeMapFrame 1023 1022 0x801000 7) :=
    ⟨⟨isDirectory, by decide⟩, by decide, notFree, by decide⟩
  have wrapped := reaches_withCount 2 reached count permitted word (by decide) inside loaded last 65535
  obtain ⟨stillDirectory, recorded, found⟩ := lost
  refine ⟨final, wrapped.attempt member, recorded, found, fun finds => ?_⟩
  rw [finds.frameFound ⟨stillDirectory, by decide⟩, recorded] at found
  cases found

end Mappings

end Fos.Kernel
