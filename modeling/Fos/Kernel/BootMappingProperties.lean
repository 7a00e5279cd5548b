import Fos.Foundation.Weakest
import Fos.Kernel.BootMapping
import Mathlib.Data.List.Induction
import Mathlib.Data.List.Nodup
import Mathlib.Data.List.Perm.Subperm

/-! The page tables of `boot_map_range` hold what was requested and, elsewhere, what was in memory before. -/

set_option autoImplicit false

namespace Fos.Kernel

open Foundation

variable {start state next : BootState} {endOfKernel directory first page entry region : Nat} {requested : Requested}

/-! ### Requests -/

theorem Requested.note_mem (present : region ∈ requested.regions) : requested.note region = requested := by
  rw [note, if_pos present]

theorem Requested.note_new (missing : region ∉ requested.regions) :
    requested.note region = { requested with regions := requested.regions ++ [region] } := by
  rw [note, if_neg missing]

/-- Regions that were noted keep their places. -/
theorem Requested.note_prefix : requested.regions <+: (requested.note region).regions := by
  cases Classical.em (region ∈ requested.regions) with
  | inl present =>
      exact (note_mem present).symm ▸ List.prefix_refl _
  | inr missing =>
      rw [note_new missing]
      exact List.prefix_append ..

theorem Requested.mapAll_regions_prefix (steps : List (Nat × Nat)) :
    requested.regions <+: (requested.mapAll steps).regions := by
  induction steps generalizing requested with
  | nil => exact List.prefix_refl _
  | cons step rest ih =>
      have noted : requested.regions <+: (requested.map step.1 step.2).regions := note_prefix
      exact noted.trans ih

private theorem getElem?_snoc {list : List Nat} {last value index : Nat} (found : (list ++ [last])[index]? = some value) :
    list[index]? = some value ∨ index = list.length ∧ value = last := by
  rw [List.getElem?_append] at found
  split at found
  · exact .inl found
  · obtain ⟨bound, same⟩ := List.getElem?_eq_some_iff.1 found
    rw [List.length_singleton] at bound
    exact .inr ⟨by omega, by simpa using same.symm⟩

/-! ### Memory -/

/-- Before the calls: the directory is empty and lies in front of the free memory, which has room for all
page tables there can be. -/
structure BootState.Ready (start : BootState) (endOfKernel directory first : Nat) : Prop where
  free : roundUp (start.freeMem endOfKernel) = kernelBase + first * pageSize
  room : first + 1024 < 65536
  allocated : directory < first
  zero : ∀ index < 1024, start.mem directory index = 0

/-- The frames of the page tables exist. -/
def BootState.Fits (start : BootState) (first : Nat) (requested : Requested) : Prop :=
  ∀ index < requested.regions.length, first + index < start.numberOfFrames

/-- The page tables lie behind each other in the order of their regions, and what was not requested is as it
was at the start. -/
structure BootState.Stands (state start : BootState) (endOfKernel directory first : Nat) (requested : Requested) :
    Prop where
  frames : state.numberOfFrames = start.numberOfFrames
  free : roundUp (state.freeMem endOfKernel) = kernelBase + (first + requested.regions.length) * pageSize
  nodup : requested.regions.Nodup
  regions : ∀ region ∈ requested.regions, region < 1024
  missing : ∀ region < 1024, region ∉ requested.regions → state.mem directory region = 0
  table : ∀ index region, requested.regions[index]? = some region → state.mem directory region =
    constructEntry (toPhysicalAddress (first + index)) (permPresent ||| permWriteable)
  words : ∀ index region, requested.regions[index]? = some region → ∀ place < 1024,
    state.mem (first + index) place = (requested.entries (region * 1024 + place)).getD (start.mem (first + index) place)
  fresh : ∀ frame, first + requested.regions.length ≤ frame → state.mem frame = start.mem frame
  noted : ∀ page, requested.entries page ≠ none → page / 1024 ∈ requested.regions

namespace BootState

theorem Ready.stands (ready : start.Ready endOfKernel directory first) :
    start.Stands start endOfKernel directory first .none where
  frames := rfl
  free := ready.free
  nodup := List.nodup_nil
  regions := fun _ member => absurd member List.not_mem_nil
  missing := fun region bound _ => ready.zero region bound
  table := nofun
  words := nofun
  fresh := fun _ _ => rfl
  noted := fun _ some => absurd rfl some

theorem Fits.of_prefix {more : Requested} (fits : start.Fits first more)
    (extends_ : requested.regions <+: more.regions) : start.Fits first requested :=
  fun index bound => fits index (bound.trans_le extends_.length_le)

namespace Stands

variable (stands : state.Stands start endOfKernel directory first requested)
include stands

/-- There are at most as many page tables as regions. -/
theorem length_lt (bound : region < 1024) (new : region ∉ requested.regions) : requested.regions.length < 1024 := by
  have nodup : (region :: requested.regions).Nodup := List.nodup_cons.2 ⟨new, stands.nodup⟩
  have within : region :: requested.regions ⊆ List.range 1024 := by
    intro other member
    cases List.mem_cons.1 member with
    | inl same => exact List.mem_range.2 (same ▸ bound)
    | inr noted => exact List.mem_range.2 (stands.regions other noted)
  have short := (List.Nodup.subperm nodup within).length_le
  rwa [List.length_range] at short

/-- The next page table is taken from the free memory, with what is in it. -/
theorem addRegion (ready : start.Ready endOfKernel directory first) (bound : region < 1024) (new : region ∉ requested.regions) :
    ((state.setPtrFreeMem (kernelBase + (first + requested.regions.length + 1) * pageSize)).writeWord directory region
      (constructEntry (toPhysicalAddress (first + requested.regions.length)) (permPresent ||| permWriteable))).Stands
      start endOfKernel directory first { requested with regions := requested.regions ++ [region] } := by
  have short := stands.length_lt bound new
  have before := ready.allocated
  have room := ready.room
  have apart (index : Nat) : first + index ≠ directory := by omega
  constructor
  · exact stands.frames
  · simp only [freeMem, writeWord_ptrFreeMem, setPtrFreeMem_ptrFreeMem, List.length_append, List.length_singleton, roundUp,
      roundDown, wordSize, kernelBase, pageSize]
    rw [if_neg (by omega)]
    omega
  · rw [List.nodup_append]
    refine ⟨stands.nodup, List.nodup_singleton _, fun other member another single => ?_⟩
    rw [List.mem_singleton.1 single]
    exact fun same => new (same ▸ member)
  · intro other member
    cases List.mem_append.1 member with
    | inl noted => exact stands.regions other noted
    | inr single => exact (List.mem_singleton.1 single) ▸ bound
  · intro other inDirectory absent
    rw [List.mem_append, not_or, List.mem_singleton] at absent
    simp only [writeWord_mem, setPtrFreeMem_mem, absent.2, and_false, if_false]
    exact stands.missing other inDirectory absent.1
  · intro index other found
    simp only [writeWord_mem, setPtrFreeMem_mem, true_and]
    cases getElem?_snoc found with
    | inl noted =>
        have different : other ≠ region := fun same => new (same ▸ List.mem_of_getElem? noted)
        rw [if_neg different]
        exact stands.table index other noted
    | inr added => rw [added.2, if_pos rfl, added.1]
  · intro index other found place inTable
    simp only [writeWord_mem, setPtrFreeMem_mem, apart index, false_and, if_false]
    cases getElem?_snoc found with
    | inl noted => exact stands.words index other noted place inTable
    | inr added =>
        obtain ⟨rfl, rfl⟩ := added
        have unmapped : requested.entries (other * 1024 + place) = .none := by
          by_contra some
          have noted := stands.noted _ some
          rw [show (other * 1024 + place) / 1024 = other by omega] at noted
          exact new noted
        rw [unmapped, stands.fresh _ le_rfl]
        rfl
  · intro frame above
    funext place
    rw [List.length_append, List.length_singleton] at above
    have different : frame ≠ directory := by omega
    simp only [writeWord_mem, setPtrFreeMem_mem, different, false_and, if_false]
    rw [stands.fresh frame (by omega)]
  · exact fun page some => List.mem_append_left _ (stands.noted page some)

/-- An entry is written to the page table of its region. -/
theorem writeEntry (ready : start.Ready endOfKernel directory first) {index : Nat}
    (noted : requested.regions[index]? = some (page / 1024)) :
    (state.writeWord (first + index) (page % 1024) entry).Stands start endOfKernel directory first
      { requested with entries := Function.update requested.entries page entry } := by
  have before := ready.allocated
  have apart : directory ≠ first + index := by omega
  have short : index < requested.regions.length := (List.getElem?_eq_some_iff.1 noted).1
  constructor
  · exact stands.frames
  · exact stands.free
  · exact stands.nodup
  · exact stands.regions
  · intro region bound absent
    simp only [writeWord_mem, apart, false_and, if_false]
    exact stands.missing region bound absent
  · intro other region found
    simp only [writeWord_mem, apart, false_and, if_false]
    exact stands.table other region found
  · intro other region found place inTable
    simp only [writeWord_mem]
    cases decEq (region * 1024 + place) page with
    | isTrue same =>
        have isRegion : region = page / 1024 := by omega
        have isPlace : place = page % 1024 := by omega
        have isIndex : other = index := by
          rw [isRegion, ← noted] at found
          exact ((List.getElem?_inj short stands.nodup).1 found.symm).symm
        rw [isIndex, isPlace, if_pos ⟨rfl, rfl⟩, ← isPlace, same, Function.update_self]
        rfl
    | isFalse different =>
        have elsewhere : ¬ (first + other = first + index ∧ place = page % 1024) := by
          rintro ⟨sameTable, samePlace⟩
          have sameIndex : other = index := by omega
          rw [sameIndex, noted, Option.some.injEq] at found
          omega
        rw [if_neg elsewhere, Function.update_of_ne different]
        exact stands.words other region found place inTable
  · intro frame above
    funext place
    have different : frame ≠ first + index := fun same => absurd (same ▸ above) (by simp [short])
    simp only [writeWord_mem, different, false_and, if_false]
    rw [stands.fresh frame above]
  · intro other some
    cases decEq other page with
    | isTrue same =>
        subst same
        exact List.mem_of_getElem? (l := requested.regions) noted
    | isFalse different =>
        apply stands.noted other
        simpa [Function.update_of_ne different] using some

end Stands

end BootState

/-! ### Calls -/

private theorem frameOf_bootEntry (frame : Nat) :
    frameOf (constructEntry (toPhysicalAddress frame) (permPresent ||| permWriteable)) = frame :=
  frameOf_constructEntry frame (by decide)

private theorem extractAddress_tableEntry (frame : Nat) :
    extractAddress (constructEntry (toPhysicalAddress frame) (permPresent ||| permWriteable)) = frame * pageSize := by
  rw [extractAddress_eq, frameOf_bootEntry, toPhysicalAddress_eq]

private theorem hasPerm_tableEntry (frame : Nat) :
    hasPerm (constructEntry (toPhysicalAddress frame) (permPresent ||| permWriteable)) permPresent = true := by
  rw [hasPerm_present, testBit_constructEntry _ (by decide)]
  decide

/-- The free memory is rounded up and taken. -/
theorem bootAllocateSpace_spec (stands : state.Stands start endOfKernel directory first requested)
    (ready : start.Ready endOfKernel directory first) (short : requested.regions.length < 1024) :
    Boot.bootAllocateSpace endOfKernel pageSize pageSize state =
      .ok (kernelBase + (first + requested.regions.length) * pageSize)
        (state.setPtrFreeMem (kernelBase + (first + requested.regions.length + 1) * pageSize)) := by
  have free := stands.free
  have room := ready.room
  rw [roundUp, roundDown] at free
  have wraps : (kernelBase + (first + requested.regions.length) * pageSize + pageSize) % wordSize =
      kernelBase + (first + requested.regions.length + 1) * pageSize := by
    simp only [kernelBase, pageSize, wordSize]
    omega
  apply eq_ok_of_wp
  simp only [Boot.bootAllocateSpace, wp_bind, wp_get, wp_modify, wp_pure, free, wraps]
  exact ⟨trivial, trivial⟩

/-- The page table of an address, which is taken from the free memory if there is none. -/
theorem bootGetPageTable_spec (stands : state.Stands start endOfKernel directory first requested)
    (ready : start.Ready endOfKernel directory first) {address : Nat} (word : address < wordSize) :
    wp (Boot.bootGetPageTable endOfKernel directory address true)
      (fun table next => ∃ index, (requested.note (pageOf address / 1024)).regions[index]? = some (pageOf address / 1024) ∧
        table = some (first + index) ∧
        next.Stands start endOfKernel directory first (requested.note (pageOf address / 1024)))
      (fun _ _ => ¬ start.Fits first (requested.note (pageOf address / 1024))) state := by
  have bound : pageOf address / 1024 < 1024 := by
    simp only [pageOf, wordSize, pageSize] at word ⊢
    omega
  have before := ready.allocated
  simp only [Boot.bootGetPageTable, Boot.kernelVirtualAddress, wp_bind, wp_get, wp_ite, wp_throw, pdx_of_lt word,
    frameOf_extractAddress, stands.frames]
  cases Classical.em (pageOf address / 1024 ∈ requested.regions) with
  | inl present =>
      obtain ⟨index, noted⟩ := List.mem_iff_getElem?.1 present
      rw [Requested.note_mem present, stands.table index _ noted, frameOf_bootEntry, extractAddress_tableEntry]
      constructor
      · intro outside fits
        exact absurd (fits index (List.getElem?_eq_some_iff.1 noted).1) (not_lt.2 outside)
      · intro _
        have some : (first + index) * pageSize ≠ 0 := by
          simp only [pageSize]
          omega
        simp only [wp_pure, some, false_implies, not_false_eq_true, true_implies, true_and]
        exact ⟨index, noted, rfl, stands⟩
  | inr new =>
      have short := stands.length_lt bound new
      rw [Requested.note_new new, stands.missing _ bound new]
      constructor
      · intro none fits
        have one := fits 0 (by simp)
        exact absurd one (not_lt.2 (none.trans (Nat.zero_le _)))
      · intro _
        have physical : kernelBase + (first + requested.regions.length) * pageSize - kernelBase =
            toPhysicalAddress (first + requested.regions.length) := by
          rw [toPhysicalAddress_eq, Nat.add_sub_cancel_left]
        have above : ¬ kernelBase + (first + requested.regions.length) * pageSize < kernelBase := by omega
        simp only [wp_pure, extractAddress, Nat.zero_sub, Nat.zero_mod, true_implies, not_true_eq_false, false_implies,
          and_true, wp_of_ok (bootAllocateSpace_spec stands ready short), Boot.kernelPhysicalAddress, wp_ite, wp_throw, above,
          physical, frameOf_toPhysicalAddress, wp_modify, true_and]
        exact fun _ => ⟨requested.regions.length, by simp, rfl, stands.addRegion ready bound new⟩

/-- One step of `boot_map_range` maps one page. -/
theorem bootMapPage_spec (stands : state.Stands start endOfKernel directory first requested)
    (ready : start.Ready endOfKernel directory first) {address physical perm : Nat} (word : address < wordSize) :
    wp (Boot.bootMapPage endOfKernel directory address physical perm)
      (fun _ next => next.Stands start endOfKernel directory first
        (requested.map (pageOf address) (constructEntry physical (perm ||| permPresent))))
      (fun _ _ => ¬ start.Fits first (requested.map (pageOf address) (constructEntry physical (perm ||| permPresent))))
      state := by
  simp only [Boot.bootMapPage, wp_bind]
  apply wp_mono (bootGetPageTable_spec stands ready word)
  · rintro _ next ⟨index, noted, rfl, stands⟩
    simp only [wp_modify, ptx_eq]
    exact stands.writeEntry ready noted
  · exact fun _ _ narrow => narrow

/-- The loop of `boot_map_range`. -/
theorem bootMapFrom_spec (ready : start.Ready endOfKernel directory first) (range : BootRange) :
    ∀ steps done (state : BootState) requested, state.Stands start endOfKernel directory first requested →
      wp (Boot.bootMapFrom endOfKernel directory range.perm steps ((range.virtualAddress + done * pageSize) % wordSize)
          ((range.physicalAddress + done * pageSize) % wordSize))
        (fun _ next => next.Stands start endOfKernel directory first
          (requested.mapAll ((List.range' done steps).map range.step)))
        (fun _ _ => ¬ start.Fits first (requested.mapAll ((List.range' done steps).map range.step))) state := by
  intro steps
  induction steps with
  | zero => exact fun _ _ _ stands => stands
  | succ steps ih =>
      intro done state requested stands
      have further (base : Nat) : ((base + done * pageSize) % wordSize + pageSize) % wordSize =
          (base + (done + 1) * pageSize) % wordSize := by
        rw [Nat.mod_add_mod, Nat.add_assoc, ← Nat.succ_mul]
      rw [Boot.bootMapFrom, wp_bind, List.range'_succ, List.map_cons, further, further]
      apply wp_mono (bootMapPage_spec stands ready (Nat.mod_lt _ (by decide)))
      · exact fun _ next stands => ih (done + 1) next _ stands
      · exact fun _ _ narrow fits => narrow (fits.of_prefix (Requested.mapAll_regions_prefix _))

theorem bootMapRange_spec (stands : state.Stands start endOfKernel directory first requested)
    (ready : start.Ready endOfKernel directory first) (range : BootRange) :
    wp (Boot.bootMapRange endOfKernel directory range.virtualAddress range.size range.physicalAddress range.perm)
      (fun _ next => next.Stands start endOfKernel directory first (requested.mapAll range.steps))
      (fun _ _ => ¬ start.Fits first (requested.mapAll range.steps)) state := by
  have aligned := range.aligned.2.1
  have count : (range.size + (pageSize - 1)) / pageSize = range.size / pageSize := by
    simp only [pageSize] at *
    omega
  have run := bootMapFrom_spec ready range (range.size / pageSize) 0 state requested stands
  rw [Nat.zero_mul, Nat.add_zero, Nat.mod_eq_of_lt range.words.1, Nat.add_zero, Nat.mod_eq_of_lt range.words.2.2,
    ← List.range_eq_range'] at run
  rw [Boot.bootMapRange, count]
  exact run

theorem Requested.mapAll_append (first second : List (Nat × Nat)) :
    requested.mapAll (first ++ second) = (requested.mapAll first).mapAll second := List.foldl_append ..

/-- A sequence of calls. -/
theorem bootMapRanges_spec (ready : start.Ready endOfKernel directory first) (ranges : List BootRange) :
    ∀ (state : BootState) requested, state.Stands start endOfKernel directory first requested →
      wp (bootMapRanges endOfKernel directory ranges)
        (fun _ next => next.Stands start endOfKernel directory first (requested.mapAll (ranges.flatMap BootRange.steps)))
        (fun _ _ => ¬ start.Fits first (requested.mapAll (ranges.flatMap BootRange.steps))) state := by
  induction ranges with
  | nil => exact fun _ _ stands => stands
  | cons range rest ih =>
      intro state requested stands
      rw [List.flatMap_cons, Requested.mapAll_append]
      rw [bootMapRanges, List.forM_eq_forM, List.forM_cons, wp_bind]
      apply wp_mono (bootMapRange_spec stands ready range)
      · exact fun _ next stands => ih next _ stands
      · exact fun _ _ narrow fits => narrow (fits.of_prefix (Requested.mapAll_regions_prefix _))

/-! ### What the entries are -/

private theorem mod_wordSize {number offset : Nat} (inside : offset < pageSize) :
    (number * pageSize + offset) % wordSize = number % 1048576 * pageSize + offset := by
  simp only [pageSize, wordSize] at *
  omega

private theorem pageOf_lt_words {address : Nat} (word : address < wordSize) : pageOf address < 1048576 := by
  simp only [pageOf, wordSize, pageSize] at *
  omega

private theorem eq_mul_add (address : Nat) : address = pageOf address * pageSize + address % pageSize := by
  simp only [pageOf, pageSize]
  omega

/-- How far a page lies behind the first one of the range. -/
def BootRange.distance (range : BootRange) (page : Nat) : Nat :=
  (page + 1048576 - pageOf range.virtualAddress) % 1048576

theorem BootRange.offset_eq (range : BootRange) (address : Nat) :
    range.offset address = range.distance (pageOf address) * pageSize + address % pageSize := by
  have start := eq_mul_of_aligned range.aligned.1
  have low := pageOf_lt_words range.words.1
  have inside : address % pageSize < pageSize := Nat.mod_lt _ (by decide)
  have sum : address + wordSize - range.virtualAddress =
      (pageOf address + 1048576 - pageOf range.virtualAddress) * pageSize + address % pageSize := by
    have whole := eq_mul_add address
    generalize pageOf address = page at *
    generalize pageOf range.virtualAddress = first at *
    generalize address % pageSize = rest at *
    simp only [wordSize, pageSize] at *
    omega
  rw [offset, sum, mod_wordSize inside, distance]

theorem BootRange.contains_iff (range : BootRange) (address : Nat) :
    range.Contains address ↔ range.distance (pageOf address) < range.size / pageSize := by
  have whole := eq_mul_of_aligned range.aligned.2.1
  have inside : address % pageSize < pageSize := Nat.mod_lt _ (by decide)
  rw [Contains, offset_eq]
  simp only [pageOf, pageSize] at *
  omega

/-- The pages of the steps are those the range contains, each once. -/
theorem BootRange.step_page (range : BootRange) {index : Nat} (few : index < 1048576) (bound : page < 1048576) :
    (range.step index).1 = page ↔ range.distance page = index := by
  have low := pageOf_lt_words range.words.1
  have sum : range.virtualAddress + index * pageSize = (pageOf range.virtualAddress + index) * pageSize + 0 := by
    rw [Nat.add_mul, ← eq_mul_of_aligned range.aligned.1, Nat.add_zero]
  rw [step, sum, mod_wordSize (by decide), Nat.add_zero, pageOf_mul, distance]
  omega

/-- The entry a page gets from a range that contains it, and any other page keeps its own. -/
theorem Requested.mapAll_steps_entries (range : BootRange) (bound : page < 1048576) :
    (requested.mapAll range.steps).entries page =
      if range.distance page < range.size / pageSize then some (range.step (range.distance page)).2
      else requested.entries page := by
  have sized : range.size / pageSize ≤ 1048576 := (pageOf_lt_words range.words.2.1).le
  have loop : ∀ steps, steps ≤ 1048576 → (requested.mapAll ((List.range steps).map range.step)).entries page =
      if range.distance page < steps then some (range.step (range.distance page)).2 else requested.entries page := by
    intro steps
    induction steps with
    | zero =>
        intro _
        rw [if_neg (Nat.not_lt_zero _)]
        rfl
    | succ steps ih =>
        intro few
        have isPage := range.step_page (Nat.lt_of_succ_le few) bound
        rw [List.range_succ, List.map_append, List.map_singleton, mapAll_append]
        change Function.update (requested.mapAll ((List.range steps).map range.step)).entries (range.step steps).1
          (some (range.step steps).2) page = _
        cases decEq (range.step steps).1 page with
        | isTrue same =>
            rw [same, Function.update_self, isPage.1 same, if_pos (Nat.lt_succ_self _)]
        | isFalse different =>
            have notLast : range.distance page ≠ steps := fun last => different (isPage.2 last)
            rw [Function.update_of_ne (Ne.symm different), ih (by omega)]
            split
            · rw [if_pos (by omega)]
            · rw [if_neg (by omega)]
  exact loop _ sized

theorem requestedBy_snoc (ranges : List BootRange) (range : BootRange) :
    requestedBy (ranges ++ [range]) = (requestedBy ranges).mapAll range.steps := by
  unfold requestedBy
  rw [List.flatMap_append, List.flatMap_singleton, Requested.mapAll_append]

theorem lastRange_none {ranges : List BootRange} {address : Nat} :
    lastRange ranges address = none ↔ ∀ range ∈ ranges, ¬ range.Contains address := by
  simp [lastRange, List.find?_eq_none]

theorem lastRange_snoc (ranges : List BootRange) (range : BootRange) (address : Nat) :
    lastRange (ranges ++ [range]) address = if range.Contains address then some range else lastRange ranges address := by
  unfold lastRange
  rw [List.reverse_append, List.reverse_singleton, List.singleton_append]
  cases Classical.em (range.Contains address) with
  | inl inRange => rw [List.find?_cons_of_pos (by exact decide_eq_true inRange), if_pos inRange]
  | inr outside => rw [List.find?_cons_of_neg (by simpa using outside), if_neg outside]

/-- The entry of a page is the one from the last range that contains it. -/
theorem requestedBy_entries (ranges : List BootRange) {address : Nat} (word : address < wordSize) :
    (requestedBy ranges).entries (pageOf address) =
      (lastRange ranges address).map fun range => (range.step (range.distance (pageOf address))).2 := by
  induction ranges using List.reverseRecOn with
  | nil => rfl
  | append_singleton ranges range ih =>
      rw [requestedBy_snoc, Requested.mapAll_steps_entries range (pageOf_lt_words word), lastRange_snoc, ih]
      cases Classical.em (range.Contains address) with
      | inl inRange => rw [if_pos ((range.contains_iff address).1 inRange), if_pos inRange, Option.map_some]
      | inr outside => rw [if_neg fun near => outside ((range.contains_iff address).2 near), if_neg outside]

/-- The entry is present and names the physical address of the page. -/
theorem BootRange.step_entry (range : BootRange) (address : Nat) :
    hasPerm (range.step (range.distance (pageOf address))).2 permPresent = true ∧
      extractAddress (range.step (range.distance (pageOf address))).2 = range.image address := by
  have inside : address % pageSize < pageSize := Nat.mod_lt _ (by decide)
  have low : range.perm ||| permPresent < pageSize := Nat.or_lt_two_pow (n := 12) range.bits (by decide)
  have image : range.image address =
      toPhysicalAddress ((pageOf range.physicalAddress + range.distance (pageOf address)) % 1048576) := by
    have sum : range.physicalAddress + range.distance (pageOf address) * pageSize =
        (pageOf range.physicalAddress + range.distance (pageOf address)) * pageSize + 0 := by
      rw [Nat.add_mul, ← eq_mul_of_aligned range.aligned.2.2, Nat.add_zero]
    rw [BootRange.image, offset_eq, roundDown_eq, pageOf_mul_add inside, sum, mod_wordSize (by decide), Nat.add_zero,
      toPhysicalAddress_eq]
  have entry : (range.step (range.distance (pageOf address))).2 =
      constructEntry (range.image address) (range.perm ||| permPresent) := by
    rw [BootRange.image, offset_eq, roundDown_eq, pageOf_mul_add inside]
    rfl
  rw [entry, image]
  constructor
  · rw [hasPerm_present, testBit_constructEntry _ (by decide), Nat.testBit_or]
    simp
  · rw [extractAddress_eq, frameOf_constructEntry _ low]

/-! ### The walk -/

theorem checkVa2pa_missing (stands : state.Stands start endOfKernel directory first requested) {address : Nat}
    (word : address < wordSize) (absent : pageOf address / 1024 ∉ requested.regions) :
    Boot.checkVa2pa directory address state = .ok (wordSize - 1) state := by
  have bound := pageOf_lt_words word
  apply eq_ok_of_wp
  simp only [Boot.checkVa2pa, wp_bind, wp_get, pdx_of_lt word, stands.missing _ (by omega) absent]
  simp [hasPerm]

/-- The walk through a page table that exists. -/
theorem checkVa2pa_table (stands : state.Stands start endOfKernel directory first requested) {address : Nat}
    (word : address < wordSize) (index : Nat) (noted : requested.regions[index]? = some (pageOf address / 1024))
    (inside : first + index < start.numberOfFrames) :
    Boot.checkVa2pa directory address state =
      .ok (if hasPerm ((requested.entries (pageOf address)).getD (start.mem (first + index) (pageOf address % 1024))) permPresent
        then extractAddress ((requested.entries (pageOf address)).getD (start.mem (first + index) (pageOf address % 1024)))
        else wordSize - 1) state := by
  have content := stands.words index _ noted (pageOf address % 1024) (Nat.mod_lt _ (by decide))
  rw [Nat.div_add_mod'] at content
  apply eq_ok_of_wp
  simp only [Boot.checkVa2pa, Boot.kernelVirtualAddress, wp_bind, wp_get, wp_ite, wp_throw, wp_pure, pdx_of_lt word, ptx_eq,
    stands.table index _ noted, frameOf_extractAddress, frameOf_bootEntry, content, stands.frames, hasPerm_tableEntry,
    not_true_eq_false, false_implies, not_false_eq_true, true_implies, true_and]
  refine ⟨fun outside => absurd inside (not_lt.2 outside), fun _ => ?_⟩
  constructor
  · intro unmapped
    simp [unmapped]
  · intro mapped
    simp [not_not.1 mapped]

/-- The walk through a page table behind the end of the memory. -/
theorem checkVa2pa_outside (stands : state.Stands start endOfKernel directory first requested) {address : Nat}
    (word : address < wordSize) (index : Nat) (noted : requested.regions[index]? = some (pageOf address / 1024))
    (outside : start.numberOfFrames ≤ first + index) :
    ∃ stop after, Boot.checkVa2pa directory address state = .error stop after := by
  apply eq_error_of_wp
  simp [Boot.checkVa2pa, Boot.kernelVirtualAddress, wp_ite, pdx_of_lt word, stands.table index _ noted, frameOf_bootEntry,
    stands.frames, hasPerm_tableEntry, outside]

/-! ### The mappings that were requested, and no others -/

/-- After the calls every address is mapped as the last range that contains it says, or not at all. -/
def BootState.MapsRequested (start : BootState) (endOfKernel directory : Nat) (ranges : List BootRange) : Prop :=
  wp (bootMapRanges endOfKernel directory ranges)
    (fun _ next => ∀ address < wordSize,
      Boot.checkVa2pa directory address next = .ok (requestedAddress ranges address) next)
    (fun _ _ => False) start

/-- Memory in which the entries of a page table that no range asks for are not present. -/
def BootState.Clean (start : BootState) (first : Nat) (ranges : List BootRange) : Prop :=
  ∀ index region, (requestedBy ranges).regions[index]? = some region → ∀ place < 1024,
    (∀ range ∈ ranges, ¬ range.Contains ((region * 1024 + place) * pageSize)) →
    hasPerm (start.mem (first + index) place) permPresent = false

private theorem extractAddress_ne_max (entry : Nat) : extractAddress entry ≠ wordSize - 1 := by
  simp only [extractAddress, pageSize, wordSize]
  omega

/-- A range contains all addresses of a page or none. -/
theorem BootRange.contains_page (range : BootRange) (address : Nat) :
    range.Contains (pageOf address * pageSize) ↔ range.Contains address := by
  rw [contains_iff, contains_iff, pageOf_mul]

/-- The walk finds what was requested. -/
theorem checkVa2pa_requested {ranges : List BootRange}
    (stands : state.Stands start endOfKernel directory first (requestedBy ranges)) (fits : start.Fits first (requestedBy ranges))
    (clean : start.Clean first ranges) {address : Nat} (word : address < wordSize) :
    Boot.checkVa2pa directory address state = .ok (requestedAddress ranges address) state := by
  have entries := requestedBy_entries ranges word
  cases Classical.em (pageOf address / 1024 ∈ (requestedBy ranges).regions) with
  | inr absent =>
      rw [checkVa2pa_missing stands word absent, requestedAddress]
      cases found : lastRange ranges address with
      | none => rfl
      | some range =>
          rw [found, Option.map_some] at entries
          exact absurd (stands.noted _ (entries ▸ Option.some_ne_none _)) absent
  | inl present =>
      obtain ⟨index, noted⟩ := List.mem_iff_getElem?.1 present
      rw [checkVa2pa_table stands word _ noted (fits index (List.getElem?_eq_some_iff.1 noted).1), entries, requestedAddress]
      cases found : lastRange ranges address with
      | some range =>
          obtain ⟨isPresent, image⟩ := range.step_entry address
          rw [Option.map_some, Option.getD_some, if_pos isPresent, image]
      | none =>
          have same : pageOf address / 1024 * 1024 + pageOf address % 1024 = pageOf address := Nat.div_add_mod' ..
          have lacks := clean index _ noted (pageOf address % 1024) (Nat.mod_lt _ (by decide))
          rw [same] at lacks
          have outside : ∀ range ∈ ranges, ¬ range.Contains (pageOf address * pageSize) := by
            intro range member inPage
            exact lastRange_none.1 found range member ((range.contains_page address).1 inPage)
          simp only [Option.map_none, Option.getD_none, lacks outside, Bool.false_eq_true, if_false]

/-- Exactly the requested mappings are made if the page tables fit into the memory and no entry that happens
to be in them looks present. -/
theorem mapsRequested_iff (ready : start.Ready endOfKernel directory first) (ranges : List BootRange) :
    start.MapsRequested endOfKernel directory ranges ↔
      start.Fits first (requestedBy ranges) ∧ start.Clean first ranges := by
  have run : wp (bootMapRanges endOfKernel directory ranges)
      (fun _ next => next.Stands start endOfKernel directory first (requestedBy ranges))
      (fun _ _ => ¬ start.Fits first (requestedBy ranges)) start := bootMapRanges_spec ready ranges start .none ready.stands
  constructor
  · intro maps
    cases wp_cases run with
    | inr failed =>
        obtain ⟨stop, next, outcome, -⟩ := failed
        rw [BootState.MapsRequested, wp_of_error outcome] at maps
        exact maps.elim
    | inl returned =>
        obtain ⟨⟨⟩, next, outcome, stands⟩ := returned
        rw [BootState.MapsRequested, wp_of_ok outcome] at maps
        have fits : start.Fits first (requestedBy ranges) := by
          intro index short
          by_contra outside
          have noted := List.getElem?_eq_getElem short
          have bound := stands.regions _ (List.getElem_mem short)
          have word : (requestedBy ranges).regions[index] * 1024 * pageSize < wordSize := by
            simp only [pageSize, wordSize]
            omega
          obtain ⟨stop, after, failed⟩ := checkVa2pa_outside stands word index
            (by rw [pageOf_mul, Nat.mul_div_cancel _ (by decide)]; exact noted) (not_lt.1 outside)
          rw [maps _ word] at failed
          cases failed
        refine ⟨fits, fun index region noted place inTable apart => ?_⟩
        have bound := stands.regions region (List.mem_of_getElem? noted)
        have word : (region * 1024 + place) * pageSize < wordSize := by
          simp only [pageSize, wordSize]
          omega
        have page : pageOf ((region * 1024 + place) * pageSize) = region * 1024 + place := pageOf_mul _
        have place_eq : (region * 1024 + place) % 1024 = place := by omega
        have walked := checkVa2pa_table stands word index
          (by rw [page, show (region * 1024 + place) / 1024 = region by omega]; exact noted)
          (fits index (List.getElem?_eq_some_iff.1 noted).1)
        have unmapped : (requestedBy ranges).entries (pageOf ((region * 1024 + place) * pageSize)) = none := by
          rw [requestedBy_entries ranges word, lastRange_none.2 apart, Option.map_none]
        rw [maps _ word, requestedAddress, lastRange_none.2 apart, unmapped, page, place_eq,
          Option.getD_none] at walked
        cases looks : hasPerm (start.mem (first + index) place) permPresent with
        | false => rfl
        | true =>
            rw [looks, if_pos rfl] at walked
            injection walked with same
            exact absurd same.symm (extractAddress_ne_max _)
  · rintro ⟨fits, clean⟩
    apply wp_mono run
    · exact fun _ next stands address word => checkVa2pa_requested stands fits clean word
    · exact fun _ _ narrow => narrow fits

/-- Memory of 4 MB with one directory, and a word in the frame behind it. -/
private def bootState (word : Nat) : BootState where
  mem := fun frame place => if frame = 301 ∧ place = 5 then word else 0
  numberOfFrames := 1024
  ptrFreeMem := kernelBase + 301 * pageSize

/-- The first page of the memory at its kernel address. -/
private def firstPage : BootRange := ⟨kernelBase, pageSize, 0, permWriteable, by decide, by decide, by decide⟩

private theorem bootState_ready (word : Nat) : (bootState word).Ready 0 300 301 where
  free := by
    have some : kernelBase + 301 * pageSize ≠ 0 := by decide
    have taken : (bootState word).freeMem 0 = kernelBase + 301 * pageSize := if_neg some
    rw [taken]
    decide
  room := by decide
  allocated := by decide
  zero := fun _ _ => rfl

/-- Four pages on both sides of a border of 4 MB, of which the second call maps the two in the middle again. -/
private def overlapping : List BootRange :=
  [⟨kernelBase + 0x3FE000, 0x4000, 0x3FE000, permWriteable, by decide, by decide, by decide⟩,
    ⟨kernelBase + 0x3FF000, 0x2000, 0x100000, permUser, by decide, by decide, by decide⟩]

private theorem overlapping_regions : (requestedBy overlapping).regions = [960, 961] := by decide

/-- Over memory that is zero these pages are mapped, as the later call says, and no other one. -/
theorem mapsRequested_iff_overlapping : (bootState 0).MapsRequested 0 300 overlapping := by
  refine (mapsRequested_iff (bootState_ready 0) overlapping).2 ⟨?_, ?_⟩
  · intro index short
    rw [overlapping_regions, List.length_cons, List.length_singleton] at short
    have frames : (bootState 0).numberOfFrames = 1024 := rfl
    omega
  · intro index region _ place _ _
    have zero : (bootState 0).mem (301 + index) place = 0 := ite_self 0
    rw [zero]
    rfl

/-- A word that was in the memory is taken for an entry. -/
theorem not_mapsRequested : (bootState 7).Ready 0 300 301 ∧ ¬ (bootState 7).MapsRequested 0 300 [firstPage] := by
  refine ⟨bootState_ready 7, fun maps => ?_⟩
  have stray : wp (bootMapRanges 0 300 [firstPage])
      (fun _ next => wp (Boot.checkVa2pa 300 (kernelBase + 5 * pageSize)) (fun value _ => value = 0) (fun _ _ => False) next)
      (fun _ _ => False) (bootState 7) := by decide +kernel
  cases wp_cases stray with
  | inr failed =>
      obtain ⟨_, _, -, never⟩ := failed
      exact never
  | inl returned =>
      obtain ⟨⟨⟩, next, outcome, walked⟩ := returned
      rw [BootState.MapsRequested, wp_of_ok outcome] at maps
      rw [wp_of_ok (maps _ (by decide))] at walked
      revert walked
      decide

end Fos.Kernel
