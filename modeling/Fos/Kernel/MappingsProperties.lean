import Fos.Kernel.ReferenceCounts

/-! What the mapping calls do to the entries and the reference counts of any number of directories. -/

set_option autoImplicit false

namespace Fos.Kernel

open Foundation

variable {layout : BootLayout} {exact : Prop} {directories : List Nat} {state next : KernelState}
  {directory page address frame permissions word : Nat}

/-! ### Looking an entry up -/

theorem Linked.wp_getPageTable (linked : Linked layout directories state) (valid : layout.Valid)
    (member : directory ∈ directories) (low : address < userTop) {post : Option Nat → KernelState → Prop}
    {fail : Stop → KernelState → Prop} :
    wp (getPageTable directory address) post fail state ↔
      post (if state.mem directory (pageOf address / 1024) = 0 then none
        else some (state.tableFrame directory (pageOf address))) state := by
  have index := index_lt low
  simp only [getPageTable, wp_bind, wp_get, pdx_user low]
  by_cases absent : state.mem directory (pageOf address / 1024) = 0
  · have positive : frameOf (extractAddress 0) < state.numberOfFrames := by
      rw [linked.size]
      exact (Nat.zero_le _).trans_lt (linked.roots directory member).1
    rw [absent, wp_staticKernelVirtualAddress positive]
    simp only [hasPerm_zero, Bool.false_eq_true, if_false, ne_eq, not_true_eq_false, if_true, wp_pure]
  · have bound : frameOf (extractAddress (state.mem directory (pageOf address / 1024))) < state.numberOfFrames := by
      rw [linked.size, frameOf_extractAddress]
      exact ((linked.tables directory member _ index absent).1.pos valid).2
    rw [wp_staticKernelVirtualAddress bound]
    simp only [linked.words directory member _ index absent, if_true, if_neg absent, wp_pure, frameOf_extractAddress,
      KernelState.tableFrame]

theorem Linked.wp_getFrameInfo (linked : Linked layout directories state) (valid : layout.Valid)
    (member : directory ∈ directories) (low : address < userTop) {post : Option Nat × Option Nat → KernelState → Prop}
    {fail : Stop → KernelState → Prop} :
    wp (getFrameInfo directory address) post fail state ↔
      post (if state.entry directory (pageOf address) = 0 then none
          else some (frameOf (state.entry directory (pageOf address))),
        if state.mem directory (pageOf address / 1024) = 0 then none
          else some (state.tableFrame directory (pageOf address))) state := by
  simp only [getFrameInfo, wp_bind, linked.wp_getPageTable valid member low]
  by_cases absent : state.mem directory (pageOf address / 1024) = 0
  · simp only [if_pos absent, KernelState.entry_of_absent absent, if_true, wp_pure]
  · have entry := KernelState.entry_eq_mem absent
    simp only [if_neg absent, wp_bind, wp_get, ptx_eq, ← entry]
    by_cases unmapped : state.entry directory (pageOf address) = 0
    · simp only [unmapped, ne_eq, not_true_eq_false, if_false, if_true, wp_pure]
    · have bound : frameOf (extractAddress (state.entry directory (pageOf address))) < state.numberOfFrames := by
        rw [linked.size, frameOf_extractAddress]
        exact ((linked.entries directory member _ (pageOf_lt low) unmapped).1.pos valid).2
      simp only [ne_eq, unmapped, not_false_eq_true, if_true, if_false, wp_bind, wp_toFrameInfo bound, wp_pure,
        frameOf_extractAddress]

/-! ### Unmapping -/

/-- An entry is cleared, and the frame it named has one reference less. -/
structure Unmaps (directories : List Nat) (directory page : Nat) (state next : KernelState) : Prop where
  edits : Edits directories directory page 0 state next
  words : ∀ other ∈ directories, next.mem other = state.mem other
  envs : next.envs = state.envs
  drops : state.entry directory page ≠ 0 → Drops (frameOf (state.entry directory page)) state next
  nothing : state.entry directory page = 0 → next = state

theorem KernelState.writeWord_congr {state other : KernelState} (same : other.mem = state.mem) (frame index word : Nat) :
    (other.writeWord frame index word).mem = (state.writeWord frame index word).mem := by
  simp only [writeWord, same]

theorem Tabular.clear (tabular : Tabular layout exact directories state) (member : directory ∈ directories)
    (low : page < userPages) (mapped : state.entry directory page ≠ 0)
    (drops : Drops (frameOf (state.entry directory page)) state next) (only : CountsOnly state next) :
    Tabular layout exact directories (next.writeWord (state.tableFrame directory page) (page % 1024) 0) ∧
      Unmaps directories directory page state (next.writeWord (state.tableFrame directory page) (page % 1024) 0) := by
  obtain ⟨linked, accounts⟩ := tabular
  have present := KernelState.word_ne_zero_of_entry mapped
  have sameMem := KernelState.writeWord_congr only.mem (state.tableFrame directory page) (page % 1024) 0
  have edits : Edits directories directory page 0 state (next.writeWord (state.tableFrame directory page) (page % 1024) 0) :=
    linked.edits member low present only.size sameMem
  have dropped : Drops (frameOf (state.entry directory page)) state
      (next.writeWord (state.tableFrame directory page) (page % 1024) 0) :=
    ⟨drops.lost, drops.others, drops.free, drops.inUse⟩
  have counted := accounts.drop linked member low mapped edits dropped
  have cleared : Linked layout directories (state.writeWord (state.tableFrame directory page) (page % 1024) 0) :=
    linked.writeEntry member low present fun some => absurd rfl some
  have edited : Edits directories directory page 0 state (state.writeWord (state.tableFrame directory page) (page % 1024) 0) :=
    linked.edits member low present rfl rfl
  obtain ⟨managed, inUse⟩ := linked.entries directory member page low mapped
  refine ⟨⟨?_, counted⟩, edits, ?_, only.envs, fun _ => dropped, fun unmapped => absurd unmapped mapped⟩
  · by_cases last : state.references (frameOf (state.entry directory page)) = 1
    · -- the last use is gone with the entry
      have inside := (linked.roots directory member).1
      rw [← linked.size] at inside
      have uses := accounts.covered _ managed
      have moved := edited.pointers member inside low (frameOf (state.entry directory page))
      simp only [ne_eq, mapped, not_false_eq_true, and_self, if_true, not_true_eq_false, false_and, if_false] at moved
      have unused : (state.writeWord (state.tableFrame directory page) (page % 1024) 0).pointers directories
          (frameOf (state.entry directory page)) = 0 := by omega
      obtain ⟨unnamed, notNode⟩ := KernelState.pointers_eq_zero unused
      exact cleared.put managed inUse notNode (cleared.unnamed_of_zero unnamed) only.size sameMem (drops.free last)
    · exact cleared.congr only.size sameMem (drops.inUse last)
  · intro other inOther
    funext position
    rw [sameMem, linked.mem_writeEntry member low present inOther]

theorem Tabular.wp_unmapFrame (tabular : Tabular layout exact directories state) (valid : layout.Valid)
    (member : directory ∈ directories) (low : address < userTop) {fail : Stop → KernelState → Prop} :
    wp (unmapFrame directory address) (fun _ next => Tabular layout exact directories next ∧
      Unmaps directories directory (pageOf address) state next) fail state := by
  have inPages := pageOf_lt low
  simp only [unmapFrame, wp_bind, tabular.linked.wp_getFrameInfo valid member low]
  by_cases unmapped : state.entry directory (pageOf address) = 0
  · simp only [if_pos unmapped, wp_pure]
    refine ⟨tabular, ⟨rfl, ?_, fun _ => Iff.rfl⟩, fun _ _ => rfl, rfl, fun mapped => absurd unmapped mapped, fun _ => rfl⟩
    intro other _ number _
    split
    · next same =>
        obtain ⟨rfl, rfl⟩ := same
        exact unmapped
    · rfl
  · have present := KernelState.word_ne_zero_of_entry unmapped
    have managed := (tabular.linked.entries directory member _ inPages unmapped).1
    have positive := tabular.linked.entriesNaming_pos member inPages unmapped
    have covered := tabular.accounts.covered _ managed
    have some : 0 < state.references (frameOf (state.entry directory (pageOf address))) := by
      unfold KernelState.pointers at covered
      omega
    obtain ⟨drops, only⟩ := KernelState.drops some (tabular.accounts.bound _ managed)
    simp only [if_neg unmapped, if_neg present, wp_bind, wp_dropReference, wp_modify, ptx_eq]
    exact tabular.clear member inPages unmapped drops only

/-! ### Mapping -/

/-- The entry of a page comes to name a frame, which has one reference more. -/
structure Binds (directories : List Nat) (directory page frame word : Nat) (state next : KernelState) : Prop where
  edits : Edits directories directory page word state next
  envs : next.envs = state.envs
  free : next.freeFrameList = state.freeFrameList
  gained : next.references frame = state.references frame + 1
  others : ∀ other, other ≠ frame → next.references other = state.references other

theorem Tabular.bind (tabular : Tabular layout exact directories state) (member : directory ∈ directories)
    (low : page < userPages) (present : state.mem directory (page / 1024) ≠ 0) (managed : layout.Managed frame)
    (inUse : frame ∉ state.freeFrameList) (room : state.references frame + 1 < 0x10000)
    (unmapped : exact → state.entry directory page = 0) (names : frameOf word = frame) (some : word ≠ 0) :
    Tabular layout exact directories ((state.setReferences frame (state.references frame + 1)).writeWord
        (state.tableFrame directory page) (page % 1024) word) ∧
      Binds directories directory page frame word state ((state.setReferences frame (state.references frame + 1)).writeWord
        (state.tableFrame directory page) (page % 1024) word) := by
  obtain ⟨linked, accounts⟩ := tabular
  have edits : Edits directories directory page word state ((state.setReferences frame
      (state.references frame + 1)).writeWord (state.tableFrame directory page) (page % 1024) word) :=
    linked.edits member low present rfl rfl
  have gained : ((state.setReferences frame (state.references frame + 1)).writeWord (state.tableFrame directory page)
      (page % 1024) word).references frame = state.references frame + 1 := by simp
  have others (other : Nat) (different : other ≠ frame) : ((state.setReferences frame
      (state.references frame + 1)).writeWord (state.tableFrame directory page) (page % 1024) word).references other =
        state.references other := by simp [different]
  have written : Linked layout directories (state.writeWord (state.tableFrame directory page) (page % 1024) word) :=
    linked.writeEntry member low present fun _ => names ▸ ⟨managed, inUse⟩
  constructor
  · exact ⟨written.congr rfl rfl rfl, accounts.add linked member low names some unmapped room edits gained others⟩
  · exact ⟨edits, rfl, rfl, gained, others⟩

theorem KernelState.entriesNaming_congr {state next : KernelState} (size : next.numberOfFrames = state.numberOfFrames)
    (same : ∀ directory ∈ directories, ∀ page < userPages, next.entry directory page = state.entry directory page) :
    next.entriesNaming directories frame = state.entriesNaming directories frame := by
  unfold entriesNaming
  rw [entryPlaces, size]
  apply namings_congr
  rintro ⟨other, number⟩ inPlaces
  have low : number < userPages := by simpa using (Finset.mem_product.1 inPlaces).2
  unfold entryNames
  by_cases member : other ∈ directories
  · simp [member, same other member number low]
  · simp [member]

theorem Linked.pointers_of_free (linked : Linked layout directories state) (free : frame ∈ state.freeFrameList) :
    state.pointers directories frame = 0 := by
  unfold KernelState.pointers KernelState.entriesNaming
  rw [namings_eq_zero fun place inside => linked.unnamed_of_free free inside, if_neg (linked.not_node_of_free free)]

/-- A page table was made for an address that had none. -/
structure Tables (directories : List Nat) (directory index table : Nat) (state next : KernelState) : Prop where
  present : next.mem directory index ≠ 0
  frame : frameOf (next.mem directory index) = table
  entry : ∀ other ∈ directories, ∀ page < userPages, next.entry other page = state.entry other page
  envs : next.envs = state.envs
  inUse : ∀ frame, frame ∉ state.freeFrameList → frame ∉ next.freeFrameList ∧ next.references frame = state.references frame

theorem frameOf_tableEntry (frame : Nat) :
    frameOf (constructEntry (toPhysicalAddress frame) (permPresent ||| permUser ||| permWriteable)) = frame :=
  frameOf_constructEntry frame (by decide)

theorem Tabular.wp_staticCpt (tabular : Tabular layout exact directories state) (valid : layout.Valid)
    (member : directory ∈ directories) (low : address < userTop)
    (absent : state.mem directory (pageOf address / 1024) = 0) :
    wp (staticCpt directory address) (fun table next => Tabular layout exact directories next ∧
      Tables directories directory (pageOf address / 1024) table state next) (fun _ _ => True) state := by
  obtain ⟨linked, accounts⟩ := tabular
  simp only [staticCpt, createTable, allocateFrame, wp_bind, wp_get]
  cases free : state.freeFrameList with
  | nil => exact trivial
  | cons frame rest =>
      have inFree : frame ∈ state.freeFrameList := free ▸ List.mem_cons_self ..
      have managed := linked.managedFree frame inFree
      have notNode := linked.not_node_of_free inFree
      have nodup := List.nodup_cons.1 (free ▸ linked.nodup)
      have bound : frameOf (toPhysicalAddress frame) < state.numberOfFrames := by
        rw [frameOf_toPhysicalAddress, linked.size]
        exact (managed.pos valid).2
      have notDirectory : directory ≠ frame := fun same => notNode (.inl (same ▸ member))
      simp only [wp_bind, wp_modify, wp_pure, pdx_user low]
      rw [wp_staticKernelVirtualAddress (by exact bound)]
      simp only [frameOf_toPhysicalAddress, KernelState.setReferences_twice]
      have taken : Linked layout directories ((state.setFreeFrameList rest).setReferences frame 1) :=
        linked.take free rfl rfl rfl
      generalize reached : ((((state.setFreeFrameList rest).setReferences frame 1).writeWord directory
        (pageOf address / 1024) (constructEntry (toPhysicalAddress frame)
          (permPresent ||| permUser ||| permWriteable))).writeFrame frame Page.zero) = next
      have references (other : Nat) : next.references other = if other = frame then 1 else state.references other := by
        rw [← reached]
        rfl
      have attached : Attached directories directory (pageOf address / 1024) frame (constructEntry (toPhysicalAddress frame)
          (permPresent ||| permUser ||| permWriteable)) ((state.setFreeFrameList rest).setReferences frame 1) next := by
        rw [← reached]
        constructor
        · rfl
        · rfl
        · simp [notDirectory]
        · simp [Page.zero]
        · intro position different
          simp [notDirectory, different]
        · intro other notOther notFrame
          funext position
          simp [notOther, notFrame]
      have names := frameOf_tableEntry frame
      have some : constructEntry (toPhysicalAddress frame) (permPresent ||| permUser ||| permWriteable) ≠ 0 :=
        constructEntry_ne_zero frame (by decide) (by decide)
      have granted : hasPerm (constructEntry (toPhysicalAddress frame) (permPresent ||| permUser ||| permWriteable))
          permPresent = true := by
        rw [hasPerm_present, testBit_constructEntry _ (by decide)]
        decide
      have entries := fun other inOther page pageLow => @Attached.entry layout directories
        ((state.setFreeFrameList rest).setReferences frame 1) next directory (pageOf address / 1024) frame _ attached taken
        member notNode absent names other page inOther pageLow
      have naming (other : Nat) : next.entriesNaming directories other = state.entriesNaming directories other :=
        KernelState.entriesNaming_congr attached.size entries
      have node := attached.node member (index_lt low) notNode absent names some
      refine ⟨⟨attached.linked taken member notNode absent names managed nodup.1 granted, ?_⟩, ?_⟩
      · -- the table frame was used by nothing, and is used by the directory now
        have unused := linked.pointers_of_free inFree
        have uses (other : Nat) : next.pointers directories other =
            if other = frame then 1 else state.pointers directories other := by
          unfold KernelState.pointers at unused ⊢
          simp only [naming, node]
          by_cases same : other = frame
          · subst same
            simp only [true_or, if_true]
            omega
          · simp only [same, false_or, if_false]
            rfl
        constructor
        · intro other isManaged
          rw [uses, references]
          split
          · exact le_rfl
          · exact accounts.covered other isManaged
        · intro isExact other isManaged
          rw [uses, references]
          split
          · rfl
          · exact accounts.exact isExact other isManaged
        · intro other isManaged
          rw [references]
          split
          · decide
          · exact accounts.bound other isManaged
      · constructor
        · rw [attached.written]
          exact some
        · rw [attached.written, names]
        · exact entries
        · rw [← reached]
          rfl
        · intro other inUse
          rw [free, List.mem_cons, not_or] at inUse
          refine ⟨?_, ?_⟩
          · rw [attached.free]
            exact inUse.2
          · rw [references, if_neg inUse.1]

/-- The entry `map_frame` makes. -/
def mappedEntry (frame permissions : Nat) : Nat := constructEntry (toPhysicalAddress frame) (permissions ||| permPresent)

theorem frameOf_mappedEntry (low : permissions < pageSize) : frameOf (mappedEntry frame permissions) = frame :=
  frameOf_constructEntry frame (present_lt low)

theorem mappedEntry_ne_zero (low : permissions < pageSize) : mappedEntry frame permissions ≠ 0 :=
  pageEntry_ne_zero frame low

/-- A frame was mapped at a page: `word` is the entry now, and the frame the page had before has
one reference less, unless it is the same frame. -/
structure Maps (directories : List Nat) (directory page frame word : Nat) (state next : KernelState) : Prop where
  entry : ∀ other ∈ directories, ∀ number < userPages, next.entry other number =
    if other = directory ∧ number = page then word else state.entry other number
  envs : next.envs = state.envs
  inUse : frame ∉ next.freeFrameList

/-- What became of the frame that an entry named before the page got another one. -/
structure Displaces (frame : Nat) (state next : KernelState) : Prop where
  lost : next.references frame + 1 = state.references frame
  free : state.references frame = 1 → frame ∈ next.freeFrameList

theorem Tabular.wp_bindFrame (tabular : Tabular layout exact directories state) (member : directory ∈ directories)
    (low : address < userTop) (present : state.mem directory (pageOf address / 1024) ≠ 0) (managed : layout.Managed frame)
    (inUse : frame ∉ state.freeFrameList) (lowPermissions : permissions < pageSize)
    (room : state.references frame + 1 < 0x10000) (unmapped : exact → state.entry directory (pageOf address) = 0)
    {fail : Stop → KernelState → Prop} :
    wp (bindFrame (state.tableFrame directory (pageOf address)) frame address permissions)
      (fun _ next => Tabular layout exact directories next ∧
        Binds directories directory (pageOf address) frame (mappedEntry frame permissions) state next) fail state := by
  have count : (state.references frame + 1) % 0x10000 = state.references frame + 1 := Nat.mod_eq_of_lt room
  simp only [bindFrame, incrementReferences, wp_bind, wp_modify, count, ptx_eq]
  exact tabular.bind member (pageOf_lt low) present managed inUse room unmapped (frameOf_mappedEntry lowPermissions)
    (mappedEntry_ne_zero lowPermissions)

/-- `map_frame` in a table: the same frame is left alone, another one is unmapped first if its
entry is present. -/
theorem Tabular.wp_mapInTable (tabular : Tabular layout exact directories state) (valid : layout.Valid)
    (member : directory ∈ directories) (low : address < userTop)
    (present : state.mem directory (pageOf address / 1024) ≠ 0) (managed : layout.Managed frame)
    (inUse : frame ∉ state.freeFrameList) (lowPermissions : permissions < pageSize)
    (room : state.references frame + 1 < 0x10000)
    (shown : state.entry directory (pageOf address) ≠ 0 →
      hasPerm (state.entry directory (pageOf address)) permPresent = true)
    {fail : Stop → KernelState → Prop} :
    wp (mapInTable directory (state.tableFrame directory (pageOf address)) frame address permissions)
      (fun _ next => Tabular layout exact directories next ∧
        Maps directories directory (pageOf address) frame
          (if state.entry directory (pageOf address) ≠ 0 ∧ frameOf (state.entry directory (pageOf address)) = frame then
            state.entry directory (pageOf address) else mappedEntry frame permissions) state next ∧
        (state.entry directory (pageOf address) ≠ 0 → frameOf (state.entry directory (pageOf address)) ≠ frame →
          Displaces (frameOf (state.entry directory (pageOf address))) state next)) fail state := by
  have inPages := pageOf_lt low
  have entry := KernelState.entry_eq_mem present
  simp only [mapInTable, wp_bind, wp_get, ptx_eq, ← entry, extractAddress_eq, toPhysicalAddress_inj]
  by_cases unmapped : state.entry directory (pageOf address) = 0
  · simp only [unmapped, hasPerm_zero, Bool.false_eq_true, false_and, if_false, ne_eq, not_true_eq_false]
    apply wp_mono (tabular.wp_bindFrame member low present managed inUse lowPermissions room fun _ => unmapped)
    · rintro _ next ⟨kept, binds⟩
      exact ⟨kept, ⟨binds.edits.entry, binds.envs, binds.free ▸ inUse⟩, False.elim⟩
    · exact fun _ _ => id
  · have granted := shown unmapped
    simp only [granted, true_and, ne_eq, unmapped, not_false_eq_true, if_true, true_implies]
    by_cases same : frameOf (state.entry directory (pageOf address)) = frame
    · simp only [same, if_true, wp_pure, not_true_eq_false, false_implies, and_true]
      refine ⟨tabular, ⟨fun other _ number _ => ?_, rfl, inUse⟩⟩
      split
      · next here => rw [here.1, here.2]
      · rfl
    · simp only [same, if_false, not_false_eq_true, true_implies, wp_bind]
      apply wp_mono (tabular.wp_unmapFrame valid member low)
      · rintro _ middle ⟨kept, unmaps⟩
        obtain ⟨lost, others, last, notLast⟩ := unmaps.drops unmapped
        have stillPresent : middle.mem directory (pageOf address / 1024) ≠ 0 := by rwa [unmaps.words directory member]
        have sameTable : middle.tableFrame directory (pageOf address) = state.tableFrame directory (pageOf address) := by
          unfold KernelState.tableFrame
          rw [unmaps.words directory member]
        have cleared : middle.entry directory (pageOf address) = 0 := by
          rw [unmaps.edits.entry directory member _ inPages, if_pos ⟨rfl, rfl⟩]
        have sameCount := others frame fun equal => same equal.symm
        have freeMiddle : middle.freeFrameList = state.freeFrameList ∨
            state.references (frameOf (state.entry directory (pageOf address))) = 1 ∧
              middle.freeFrameList = frameOf (state.entry directory (pageOf address)) :: state.freeFrameList := by
          by_cases one : state.references (frameOf (state.entry directory (pageOf address))) = 1
          · exact .inr ⟨one, last one⟩
          · exact .inl (notLast one)
        have stillInUse : frame ∉ middle.freeFrameList := by
          rcases freeMiddle with unchanged | ⟨-, grown⟩
          · exact unchanged ▸ inUse
          · rw [grown, List.mem_cons, not_or]
            exact ⟨fun equal => same equal.symm, inUse⟩
        rw [← sameTable]
        apply wp_mono (kept.wp_bindFrame member low stillPresent managed stillInUse lowPermissions (sameCount ▸ room)
          fun _ => cleared)
        · rintro _ next ⟨done, binds⟩
          refine ⟨done, ⟨fun other inOther number numberLow => ?_, binds.envs.trans unmaps.envs, binds.free ▸ stillInUse⟩, ?_, ?_⟩
          · rw [binds.edits.entry other inOther number numberLow]
            split
            · rfl
            · next elsewhere => rw [unmaps.edits.entry other inOther number numberLow, if_neg elsewhere]
          · rw [binds.others _ same]
            exact lost
          · intro one
            rw [binds.free, last one]
            exact List.mem_cons_self ..
        · exact fun _ _ => id
      · exact fun _ _ => id

/-- What `map_frame` does at a page whose entry is zero or present. -/
def MapsFrame (layout : BootLayout) (exact : Prop) (directories : List Nat) (directory page frame permissions : Nat)
    (state next : KernelState) : Prop :=
  Tabular layout exact directories next ∧
    Maps directories directory page frame
      (if state.entry directory page ≠ 0 ∧ frameOf (state.entry directory page) = frame then state.entry directory page
        else mappedEntry frame permissions) state next ∧
    (state.entry directory page ≠ 0 → frameOf (state.entry directory page) ≠ frame →
      Displaces (frameOf (state.entry directory page)) state next)

theorem Tabular.wp_mapFrame (tabular : Tabular layout exact directories state) (valid : layout.Valid)
    (member : directory ∈ directories) (low : address < userTop) (managed : layout.Managed frame)
    (inUse : frame ∉ state.freeFrameList) (lowPermissions : permissions < pageSize)
    (room : state.references frame + 1 < 0x10000)
    (shown : state.entry directory (pageOf address) ≠ 0 →
      hasPerm (state.entry directory (pageOf address)) permPresent = true) :
    wp (mapFrame directory frame address permissions)
      (fun _ next => MapsFrame layout exact directories directory (pageOf address) frame permissions state next)
      (fun _ _ => True) state := by
  have inPages := pageOf_lt low
  rw [mapFrame, wp_bind, tabular.linked.wp_getPageTable valid member low]
  by_cases absent : state.mem directory (pageOf address / 1024) = 0
  · have unmapped := KernelState.entry_of_absent absent
    rw [if_pos absent]
    dsimp only
    rw [wp_bind]
    apply wp_mono (tabular.wp_staticCpt valid member low absent)
    · rintro table middle ⟨kept, tables⟩
      obtain ⟨stillInUse, sameCount⟩ := tables.inUse frame inUse
      have zero : middle.entry directory (pageOf address) = 0 := by
        rw [tables.entry directory member _ inPages, unmapped]
      have sameTable : table = middle.tableFrame directory (pageOf address) := tables.frame.symm
      rw [sameTable]
      apply wp_mono (kept.wp_mapInTable valid member low tables.present managed stillInUse lowPermissions
        (sameCount ▸ room) fun some => absurd zero some)
      · rintro _ next ⟨done, maps, -⟩
        simp only [zero, ne_eq, not_true_eq_false, false_and, if_false] at maps
        refine ⟨done, ⟨fun other inOther number numberLow => ?_, maps.envs.trans tables.envs, maps.inUse⟩,
          fun some => absurd unmapped some⟩
        rw [maps.entry other inOther number numberLow, tables.entry other inOther number numberLow]
        simp [unmapped]
      · exact fun _ _ => id
    · exact fun _ _ => id
  · rw [if_neg absent]
    exact tabular.wp_mapInTable valid member low absent managed inUse lowPermissions room shown

/-- `loadtime_map_frame` overwrites the entry; the frame it named keeps its references. -/
theorem Tabular.wp_loadtimeMapFrame (tabular : Tabular layout exact directories state) (valid : layout.Valid)
    (member : directory ∈ directories) (low : address < userTop) (managed : layout.Managed frame)
    (inUse : frame ∉ state.freeFrameList) (lowPermissions : permissions < pageSize)
    (room : state.references frame + 1 < 0x10000) (unmapped : exact → state.entry directory (pageOf address) = 0) :
    wp (loadtimeMapFrame directory frame address permissions) (fun _ next => Tabular layout exact directories next ∧
      Maps directories directory (pageOf address) frame (mappedEntry frame permissions) state next)
      (fun _ _ => True) state := by
  have inPages := pageOf_lt low
  have index := index_lt low
  simp only [loadtimeMapFrame, wp_bind, wp_get, pdx_user low]
  by_cases absent : state.mem directory (pageOf address / 1024) = 0
  · have positive : frameOf (extractAddress 0) < state.numberOfFrames := by
      rw [tabular.linked.size]
      exact (Nat.zero_le _).trans_lt (tabular.linked.roots directory member).1
    rw [absent, wp_staticKernelVirtualAddress positive, if_pos rfl, wp_bind]
    apply wp_mono (tabular.wp_staticCpt valid member low absent)
    · rintro table middle ⟨kept, tables⟩
      obtain ⟨stillInUse, sameCount⟩ := tables.inUse frame inUse
      have sameEntry := tables.entry directory member _ inPages
      have sameTable : table = middle.tableFrame directory (pageOf address) := tables.frame.symm
      rw [sameTable]
      apply wp_mono (kept.wp_bindFrame member low tables.present managed stillInUse lowPermissions (sameCount ▸ room)
        fun isExact => sameEntry.trans (unmapped isExact))
      · rintro _ next ⟨done, binds⟩
        refine ⟨done, fun other inOther number numberLow => ?_, binds.envs.trans tables.envs, binds.free ▸ stillInUse⟩
        rw [binds.edits.entry other inOther number numberLow, tables.entry other inOther number numberLow]
      · exact fun _ _ => id
    · exact fun _ _ => id
  · have bound : frameOf (extractAddress (state.mem directory (pageOf address / 1024))) < state.numberOfFrames := by
      rw [tabular.linked.size, frameOf_extractAddress]
      exact ((tabular.linked.tables directory member _ index absent).1.pos valid).2
    rw [wp_staticKernelVirtualAddress bound, if_neg absent, frameOf_extractAddress]
    apply wp_mono (tabular.wp_bindFrame member low absent managed inUse lowPermissions room unmapped)
    · rintro _ next ⟨done, binds⟩
      exact ⟨done, binds.edits.entry, binds.envs, binds.free ▸ inUse⟩
    · exact fun _ _ => id

/-! ### Taking frames -/

theorem Tabular.wp_allocateFrame (tabular : Tabular layout exact directories state) :
    wp allocateFrame (fun frame next => Tabular layout exact directories next ∧
      state.freeFrameList = frame :: next.freeFrameList ∧ next.references = (fun other =>
        if other = frame then 0 else state.references other) ∧ CountsOnly state next) (fun _ _ => True) state := by
  obtain ⟨linked, accounts⟩ := tabular
  simp only [allocateFrame, wp_bind, wp_get]
  cases free : state.freeFrameList with
  | nil => exact trivial
  | cons frame rest =>
      have inFree : frame ∈ state.freeFrameList := free ▸ List.mem_cons_self ..
      have unused := linked.pointers_of_free inFree
      simp only [wp_bind, wp_modify, wp_pure]
      refine ⟨⟨linked.take free rfl rfl rfl, ?_⟩, rfl, rfl, rfl, rfl, rfl⟩
      have uses (other : Nat) : ((state.setFreeFrameList rest).setReferences frame 0).pointers directories other =
          state.pointers directories other := rfl
      constructor
      · intro other managed
        rw [uses, KernelState.setReferences_references]
        split
        · next same => exact same ▸ unused.le
        · exact accounts.covered other managed
      · intro isExact other managed
        rw [uses, KernelState.setReferences_references]
        split
        · next same => exact same ▸ unused.symm
        · exact accounts.exact isExact other managed
      · intro other managed
        rw [KernelState.setReferences_references]
        split
        · decide
        · exact accounts.bound other managed

/-- A directory is made of a free frame; the pages of the others stay, and it has none. -/
structure Founds (directories : List Nat) (directory : Nat) (state next : KernelState) : Prop where
  fresh : directory ∉ directories
  entry : ∀ other ∈ directories, ∀ page < userPages, next.entry other page = state.entry other page
  empty : ∀ page < userPages, next.entry directory page = 0

theorem Founded.entriesNaming {other : Nat} (founded : Founded frame state next) (notNode : ¬ state.Node directories frame) :
    next.entriesNaming (frame :: directories) other = state.entriesNaming directories other := by
  unfold KernelState.entriesNaming
  rw [KernelState.entryPlaces, founded.size]
  apply namings_congr
  rintro ⟨holder, number⟩ inPlaces
  have low : number < userPages := by simpa using (Finset.mem_product.1 inPlaces).2
  have notRoot : frame ∉ directories := fun inside => notNode (.inl inside)
  unfold KernelState.entryNames
  by_cases same : holder = frame
  · subst same
    simp [founded.entry_self low, notRoot]
  · by_cases member : holder ∈ directories
    · simp [member, founded.entry_of_mem notNode member low]
    · simp [same, member]

theorem Tabular.wp_createPageDirectory (tabular : Tabular layout exact directories state) (valid : layout.Valid)
    (slot : Nat) :
    wp (createPageDirectory slot) (fun directory next => Tabular layout exact (directory :: directories) next ∧
      Founds directories directory state next) (fun _ _ => True) state := by
  rw [createPageDirectory, wp_bind]
  apply wp_mono tabular.wp_allocateFrame
  · rintro frame taken ⟨⟨linked, accounts⟩, free, counts, only⟩
    have inFree : frame ∈ state.freeFrameList := free ▸ List.mem_cons_self ..
    have managed := tabular.linked.managedFree frame inFree
    have inUse : frame ∉ taken.freeFrameList := (List.nodup_cons.1 (free ▸ tabular.linked.nodup)).1
    have notNode : ¬ taken.Node directories frame := fun node =>
      tabular.linked.not_node_of_free inFree ((KernelState.node_congr (fun _ _ _ _ => by rw [only.mem]) frame).1 node)
    have bound : frameOf (toPhysicalAddress frame) < taken.numberOfFrames := by
      rw [frameOf_toPhysicalAddress, linked.size]
      exact (managed.pos valid).2
    have unused : taken.pointers directories frame = 0 := by
      have covered := accounts.covered frame managed
      simp only [counts, if_true] at covered
      omega
    simp only [wp_bind, wp_modify, modifyEnv, wp_pure]
    rw [wp_staticKernelVirtualAddress (by exact bound)]
    simp only [frameOf_toPhysicalAddress]
    generalize reached : KernelState.writeFrame _ frame _ = next
    have references (other : Nat) : next.references other = if other = frame then 1 else taken.references other := by
      rw [← reached]
      rfl
    have founded : Founded frame taken next := by
      rw [← reached]
      constructor
      · rfl
      · rfl
      · intro index low
        exact (congrFun (if_pos rfl) index).trans (if_pos low)
      · intro other different
        exact if_neg different
    have entries {other page : Nat} (inOther : other ∈ directories) (low : page < userPages) :
        next.entry other page = state.entry other page := by
      rw [founded.entry_of_mem notNode inOther low]
      exact KernelState.entry_congr (by rw [only.mem]) fun _ => by rw [only.mem]
    refine ⟨⟨founded.linked valid linked notNode managed inUse, ?_⟩, fun isRoot => notNode (.inl isRoot),
      fun other inOther page low => entries inOther low, fun page low => founded.entry_self low⟩
    -- the frame was used by nothing, and is a directory now
    have uses (other : Nat) : next.pointers (frame :: directories) other =
        if other = frame then 1 else taken.pointers directories other := by
      unfold KernelState.pointers at unused ⊢
      simp only [founded.entriesNaming notNode, founded.node notNode]
      by_cases same : other = frame
      · subst same
        simp only [true_or, if_true]
        omega
      · simp only [same, false_or, if_false]
    constructor
    · intro other isManaged
      rw [uses, references]
      split
      · exact le_rfl
      · exact accounts.covered other isManaged
    · intro isExact other isManaged
      rw [uses, references]
      split
      · rfl
      · exact accounts.exact isExact other isManaged
    · intro other isManaged
      rw [references]
      split
      · decide
      · exact accounts.bound other isManaged
  · exact fun _ _ => id

/-! ### Flags -/

theorem Tabular.wp_ptSetPagePermissions (tabular : Tabular layout exact directories state) (valid : layout.Valid)
    {slot set clear : Nat} (member : (state.envs slot).envPageDirectory ∈ directories) (low : address < userTop)
    (setLow : set < pageSize) (clearLow : clear < pageSize)
    (mapped : state.entry (state.envs slot).envPageDirectory (pageOf address) ≠ 0 ∨ changePerm 0 set clear = 0) :
    wp (ptSetPagePermissions slot address set clear) (fun _ next => Tabular layout exact directories next ∧
      Edits directories (state.envs slot).envPageDirectory (pageOf address)
        (changePerm (state.entry (state.envs slot).envPageDirectory (pageOf address)) set clear) state next ∧
      (state.entry (state.envs slot).envPageDirectory (pageOf address) ≠ 0 →
        frameOf (changePerm (state.entry (state.envs slot).envPageDirectory (pageOf address)) set clear) =
            frameOf (state.entry (state.envs slot).envPageDirectory (pageOf address)) ∧
          changePerm (state.entry (state.envs slot).envPageDirectory (pageOf address)) set clear ≠ 0))
      (fun _ _ => True) state := by
  obtain ⟨linked, accounts⟩ := tabular
  generalize root : (state.envs slot).envPageDirectory = directory at *
  have inPages := pageOf_lt low
  have index := index_lt low
  simp only [ptSetPagePermissions, pageTableForFlags, wp_bind, wp_get, root, pdx_user low]
  by_cases absent : state.mem directory (pageOf address / 1024) = 0
  · simp only [absent, hasPerm_zero, Bool.false_eq_true, if_false, ne_eq, not_true_eq_false]
    exact trivial
  · have bound : frameOf (extractAddress (state.mem directory (pageOf address / 1024))) < state.numberOfFrames := by
      rw [linked.size, frameOf_extractAddress]
      exact ((linked.tables directory member _ index absent).1.pos valid).2
    have entry := KernelState.entry_eq_mem absent
    unfold KernelState.tableFrame at entry
    simp only [linked.words directory member _ index absent, if_true, wp_staticKernelVirtualAddress bound,
      frameOf_extractAddress, wp_modify, ptx_eq, ← entry]
    have names (some : state.entry directory (pageOf address) ≠ 0) :
        frameOf (changePerm (state.entry directory (pageOf address)) set clear) =
            frameOf (state.entry directory (pageOf address)) ∧
          changePerm (state.entry directory (pageOf address)) set clear ≠ 0 := by
      have managed := (linked.entries directory member _ inPages some).1
      have same := frameOf_changePerm (lt_wordSize_of_frameOf_lt (managed.lt valid)) setLow clearLow
      refine ⟨same, fun zero => ?_⟩
      have positive := (managed.pos valid).1
      rw [← same, zero] at positive
      exact absurd positive (by decide)
    have edits : Edits directories directory (pageOf address) (changePerm (state.entry directory (pageOf address)) set clear)
        state (state.writeWord (state.tableFrame directory (pageOf address)) (pageOf address % 1024)
          (changePerm (state.entry directory (pageOf address)) set clear)) :=
      linked.edits member inPages absent rfl rfl
    have inside := (linked.roots directory member).1
    rw [← linked.size] at inside
    have kept (other : Nat) : (state.writeWord (state.tableFrame directory (pageOf address)) (pageOf address % 1024)
        (changePerm (state.entry directory (pageOf address)) set clear)).pointers directories other =
          state.pointers directories other := by
      have moved := edits.pointers member inside inPages other
      by_cases unmapped : state.entry directory (pageOf address) = 0
      · have zero : changePerm 0 set clear = 0 := mapped.resolve_left (not_not.2 unmapped)
        simpa [unmapped, zero] using moved
      · obtain ⟨same, nonzero⟩ := names unmapped
        simp only [same, ne_eq, unmapped, nonzero, not_false_eq_true, true_and] at moved
        omega
    refine ⟨⟨linked.writeEntry member inPages absent fun some => ?_, accounts.congr kept fun _ => rfl⟩, edits, names⟩
    by_cases unmapped : state.entry directory (pageOf address) = 0
    · rw [unmapped, mapped.resolve_left (not_not.2 unmapped)] at some
      exact absurd rfl some
    · rw [(names unmapped).1]
      exact linked.entries directory member _ inPages unmapped

end Fos.Kernel
