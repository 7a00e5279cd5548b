import Fos.Kernel.FramesProperties
import Fos.Kernel.Mappings

/-! The page tables of any number of directories: they do not overlap, and what each change of them
does to the entries. Frames of pages may be shared. -/

set_option autoImplicit false

namespace Fos.Kernel

open Foundation

variable {layout : BootLayout} {directories : List Nat} {state next : KernelState}
  {directory page index frame word : Nat}

namespace KernelState

/-- The entry of a page depends on the word of its table and on the word in it. -/
theorem entry_congr (sameWord : next.mem directory (page / 1024) = state.mem directory (page / 1024))
    (sameEntry : state.mem directory (page / 1024) ≠ 0 →
      next.mem (state.tableFrame directory page) (page % 1024) = state.mem (state.tableFrame directory page) (page % 1024)) :
    next.entry directory page = state.entry directory page := by
  unfold entry tableFrame at *
  rw [sameWord]
  split
  · rfl
  · next present => exact sameEntry present

theorem entry_eq_mem (present : state.mem directory (page / 1024) ≠ 0) :
    state.entry directory page = state.mem (state.tableFrame directory page) (page % 1024) :=
  if_neg present

theorem entry_of_absent (absent : state.mem directory (page / 1024) = 0) : state.entry directory page = 0 :=
  if_pos absent

theorem word_ne_zero_of_entry (mapped : state.entry directory page ≠ 0) : state.mem directory (page / 1024) ≠ 0 :=
  fun absent => mapped (entry_of_absent absent)

theorem node_congr (same : ∀ directory ∈ directories, ∀ index < userTables,
    next.mem directory index = state.mem directory index) (frame : Nat) :
    next.Node directories frame ↔ state.Node directories frame := by
  unfold Node
  apply or_congr_right
  constructor
  · rintro ⟨directory, member, index, low, present, names⟩
    rw [same directory member index low] at present names
    exact ⟨directory, member, index, low, present, names⟩
  · rintro ⟨directory, member, index, low, present, names⟩
    rw [← same directory member index low] at present names
    exact ⟨directory, member, index, low, present, names⟩

end KernelState

/-! ### Tables that do not overlap -/

/-- Directories and page tables are in use, each for itself, and entries name frames in use. -/
structure Linked (layout : BootLayout) (directories : List Nat) (state : KernelState) : Prop where
  size : state.numberOfFrames = layout.numberOfFrames
  roots : ∀ directory ∈ directories, directory < layout.numberOfFrames ∧ directory ∉ state.freeFrameList
  words : ∀ directory ∈ directories, ∀ index < userTables, state.mem directory index ≠ 0 →
    hasPerm (state.mem directory index) permPresent = true
  tables : ∀ directory ∈ directories, ∀ index < userTables, state.mem directory index ≠ 0 →
    layout.Managed (frameOf (state.mem directory index)) ∧
      frameOf (state.mem directory index) ∉ state.freeFrameList ∧ frameOf (state.mem directory index) ∉ directories
  apart : ∀ directory ∈ directories, ∀ other ∈ directories, ∀ index < userTables, ∀ position < userTables,
    state.mem directory index ≠ 0 → state.mem other position ≠ 0 →
    frameOf (state.mem directory index) = frameOf (state.mem other position) → directory = other ∧ index = position
  entries : ∀ directory ∈ directories, ∀ page < userPages, state.entry directory page ≠ 0 →
    layout.Managed (frameOf (state.entry directory page)) ∧ frameOf (state.entry directory page) ∉ state.freeFrameList
  nodup : state.freeFrameList.Nodup
  managedFree : ∀ frame ∈ state.freeFrameList, layout.Managed frame

theorem index_of_page (low : page < userPages) : page / 1024 < userTables := by
  rw [userPages_eq] at low
  rw [userTables_eq]
  omega

namespace Linked

/-- A frame that is on the free list is neither a table nor named by an entry. -/
theorem not_node_of_free (linked : Linked layout directories state) (free : frame ∈ state.freeFrameList) :
    ¬ state.Node directories frame := by
  rintro (isRoot | ⟨directory, member, index, low, present, rfl⟩)
  · exact (linked.roots frame isRoot).2 free
  · exact (linked.tables directory member index low present).2.1 free

theorem unnamed_of_free (linked : Linked layout directories state) (free : frame ∈ state.freeFrameList)
    {place : Nat × Nat} (inside : place ∈ state.entryPlaces) : state.entryNames directories place ≠ some frame := by
  intro named
  unfold KernelState.entryNames at named
  split at named
  · next mapped =>
      cases named
      have low : place.2 < userPages := by simpa using (Finset.mem_product.1 inside).2
      exact (linked.entries place.1 mapped.1 place.2 low mapped.2).2 free
  · cases named

/-- Memory and the free list are the same. -/
theorem congr (linked : Linked layout directories state) (size : next.numberOfFrames = state.numberOfFrames)
    (mem : next.mem = state.mem) (free : next.freeFrameList = state.freeFrameList) :
    Linked layout directories next where
  size := size.trans linked.size
  roots := free ▸ linked.roots
  words := mem ▸ linked.words
  tables := free ▸ mem ▸ linked.tables
  apart := mem ▸ linked.apart
  entries directory member page low := by
    have same : next.entry directory page = state.entry directory page :=
      KernelState.entry_congr (by rw [mem]) fun _ => by rw [mem]
    rw [same, free]
    exact linked.entries directory member page low
  nodup := free ▸ linked.nodup
  managedFree := free ▸ linked.managedFree

/-- The first free frame is taken. -/
theorem take (linked : Linked layout directories state) {rest : List Nat} (free : state.freeFrameList = frame :: rest)
    (size : next.numberOfFrames = state.numberOfFrames) (mem : next.mem = state.mem) (left : next.freeFrameList = rest) :
    Linked layout directories next := by
  have fewer {other : Nat} (member : other ∈ rest) : other ∈ state.freeFrameList := free ▸ List.mem_cons_of_mem _ member
  have nodup := linked.nodup
  rw [free] at nodup
  constructor
  · exact size.trans linked.size
  · intro directory member
    rw [left]
    exact ⟨(linked.roots directory member).1, fun inRest => (linked.roots directory member).2 (fewer inRest)⟩
  · exact mem ▸ linked.words
  · intro directory member index low present
    rw [mem] at present ⊢
    obtain ⟨managed, notFree, notRoot⟩ := linked.tables directory member index low present
    rw [left]
    exact ⟨managed, fun inRest => notFree (fewer inRest), notRoot⟩
  · exact mem ▸ linked.apart
  · intro directory member page low
    have same : next.entry directory page = state.entry directory page :=
      KernelState.entry_congr (by rw [mem]) fun _ => by rw [mem]
    rw [same, left]
    intro mapped
    obtain ⟨managed, notFree⟩ := linked.entries directory member page low mapped
    exact ⟨managed, fun inRest => notFree (fewer inRest)⟩
  · exact left ▸ (List.nodup_cons.1 nodup).2
  · intro other member
    rw [left] at member
    exact linked.managedFree other (fewer member)

/-- A frame nothing names becomes free. -/
theorem put (linked : Linked layout directories state) (managed : layout.Managed frame)
    (inUse : frame ∉ state.freeFrameList) (notNode : ¬ state.Node directories frame)
    (unnamed : ∀ directory ∈ directories, ∀ page < userPages, state.entry directory page ≠ 0 →
      frameOf (state.entry directory page) ≠ frame)
    (size : next.numberOfFrames = state.numberOfFrames) (mem : next.mem = state.mem)
    (more : next.freeFrameList = frame :: state.freeFrameList) : Linked layout directories next := by
  constructor
  · exact size.trans linked.size
  · intro directory member
    rw [more, List.mem_cons, not_or]
    refine ⟨(linked.roots directory member).1, ?_, (linked.roots directory member).2⟩
    rintro rfl
    exact notNode (.inl member)
  · exact mem ▸ linked.words
  · intro directory member index low present
    rw [mem] at present ⊢
    obtain ⟨isManaged, notFree, notRoot⟩ := linked.tables directory member index low present
    rw [more, List.mem_cons, not_or]
    exact ⟨isManaged, ⟨fun same => notNode (.inr ⟨directory, member, index, low, present, same⟩), notFree⟩, notRoot⟩
  · exact mem ▸ linked.apart
  · intro directory member page low
    have same : next.entry directory page = state.entry directory page :=
      KernelState.entry_congr (by rw [mem]) fun _ => by rw [mem]
    rw [same, more, List.mem_cons, not_or]
    intro mapped
    obtain ⟨isManaged, notFree⟩ := linked.entries directory member page low mapped
    exact ⟨isManaged, unnamed directory member page low mapped, notFree⟩
  · exact more ▸ List.nodup_cons.2 ⟨inUse, linked.nodup⟩
  · intro other member
    rw [more] at member
    rcases List.mem_cons.1 member with rfl | inFree
    · exact managed
    · exact linked.managedFree other inFree

/-! ### Writing an entry -/

/-- The directory entries stay when an entry of a page table is written. -/
theorem mem_writeEntry (linked : Linked layout directories state) (member : directory ∈ directories)
    (low : page < userPages) (present : state.mem directory (page / 1024) ≠ 0) {other : Nat} (inOther : other ∈ directories)
    (position : Nat) :
    (state.writeWord (state.tableFrame directory page) (page % 1024) word).mem other position = state.mem other position := by
  rw [KernelState.writeWord_mem, if_neg]
  rintro ⟨rfl, -⟩
  exact (linked.tables directory member _ (index_of_page low) present).2.2 inOther

/-- The entry of the page is written, and all others stay. -/
theorem entry_writeEntry (linked : Linked layout directories state) (member : directory ∈ directories)
    (low : page < userPages) (present : state.mem directory (page / 1024) ≠ 0) {other number : Nat}
    (inOther : other ∈ directories) (numberLow : number < userPages) :
    (state.writeWord (state.tableFrame directory page) (page % 1024) word).entry other number =
      if other = directory ∧ number = page then word else state.entry other number := by
  have words {some : Nat} (inside : some ∈ directories) (position : Nat) :=
    @mem_writeEntry _ _ _ _ _ word linked member low present some inside position
  split
  · next same =>
      obtain ⟨rfl, rfl⟩ := same
      have sameTable : (state.writeWord (state.tableFrame other number) (number % 1024) word).tableFrame other number =
          state.tableFrame other number := congrArg frameOf (words inOther _)
      rw [KernelState.entry_eq_mem (by rwa [words inOther]), sameTable, KernelState.writeWord_mem, if_pos ⟨rfl, rfl⟩]
  · next different =>
      apply KernelState.entry_congr (words inOther _)
      intro otherPresent
      rw [KernelState.writeWord_mem, if_neg]
      rintro ⟨sameTable, sameIndex⟩
      obtain ⟨sameDirectory, samePosition⟩ := linked.apart other inOther directory member _ (index_of_page numberLow) _
        (index_of_page low) otherPresent present sameTable
      refine different ⟨sameDirectory, ?_⟩
      rw [← Nat.div_add_mod number 1024, ← Nat.div_add_mod page 1024, samePosition, sameIndex]

theorem writeEntry (linked : Linked layout directories state) (member : directory ∈ directories)
    (low : page < userPages) (present : state.mem directory (page / 1024) ≠ 0)
    (names : word ≠ 0 → layout.Managed (frameOf word) ∧ frameOf word ∉ state.freeFrameList) :
    Linked layout directories (state.writeWord (state.tableFrame directory page) (page % 1024) word) := by
  have words {some : Nat} (inside : some ∈ directories) (position : Nat) :=
    @mem_writeEntry _ _ _ _ _ word linked member low present some inside position
  constructor
  · exact linked.size
  · exact linked.roots
  · intro other inOther index inside
    rw [words inOther]
    exact linked.words other inOther index inside
  · intro other inOther index inside
    rw [words inOther]
    exact linked.tables other inOther index inside
  · intro left inLeft right inRight index inside position insideToo
    rw [words inLeft, words inRight]
    exact linked.apart left inLeft right inRight index inside position insideToo
  · intro other inOther number numberLow
    rw [linked.entry_writeEntry member low present inOther numberLow]
    split
    · exact names
    · exact linked.entries other inOther number numberLow
  · exact linked.nodup
  · exact linked.managedFree

end Linked

/-! ### New tables and directories -/

/-- A frame of zeros that nothing names becomes the table of an address. -/
structure Attached (directories : List Nat) (directory index frame word : Nat) (state next : KernelState) : Prop where
  size : next.numberOfFrames = state.numberOfFrames
  free : next.freeFrameList = state.freeFrameList
  written : next.mem directory index = word
  zero : ∀ position, next.mem frame position = 0
  rest : ∀ position, position ≠ index → next.mem directory position = state.mem directory position
  others : ∀ other, other ≠ directory → other ≠ frame → next.mem other = state.mem other

namespace Attached

variable (attached : Attached directories directory index frame word state next)

include attached

theorem mem (notNode : ¬ state.Node directories frame) {other : Nat} (inOther : other ∈ directories) (position : Nat) :
    next.mem other position =
      if other = directory ∧ position = index then word else state.mem other position := by
  have different : other ≠ frame := fun same => notNode (.inl (same ▸ inOther))
  split
  · next same =>
      obtain ⟨rfl, rfl⟩ := same
      exact attached.written
  · next notSame =>
      by_cases same : other = directory
      · subst same
        exact attached.rest position fun equal => notSame ⟨rfl, equal⟩
      · rw [attached.others other same different]

/-- No entry changes: the entries of the new table are zero. -/
theorem entry (linked : Linked layout directories state) (member : directory ∈ directories)
    (notNode : ¬ state.Node directories frame) (absent : state.mem directory index = 0) (names : frameOf word = frame)
    {other page : Nat} (inOther : other ∈ directories) (pageLow : page < userPages) :
    next.entry other page = state.entry other page := by
  have word' := attached.mem notNode inOther (page / 1024)
  by_cases here : other = directory ∧ page / 1024 = index
  · obtain ⟨rfl, rfl⟩ := here
    rw [if_pos ⟨rfl, rfl⟩] at word'
    rw [KernelState.entry_of_absent absent]
    unfold KernelState.entry KernelState.tableFrame
    rw [word', names, attached.zero]
    simp
  · rw [if_neg here] at word'
    apply KernelState.entry_congr word'
    intro present
    have index := index_of_page pageLow
    have notDirectory : state.tableFrame other page ≠ directory := fun same =>
      (linked.tables other inOther _ index present).2.2 (by rwa [← same] at member)
    have notFrame : state.tableFrame other page ≠ frame := fun same =>
      notNode (.inr ⟨other, inOther, _, index, present, same⟩)
    rw [attached.others _ notDirectory notFrame]

theorem node (member : directory ∈ directories) (low : index < userTables) (notNode : ¬ state.Node directories frame)
    (absent : state.mem directory index = 0) (names : frameOf word = frame) (some : word ≠ 0) (other : Nat) :
    next.Node directories other ↔ other = frame ∨ state.Node directories other := by
  unfold KernelState.Node
  constructor
  · rintro (isRoot | ⟨holder, inHolder, position, inside, present, same⟩)
    · exact .inr (.inl isRoot)
    · rw [attached.mem notNode inHolder] at present same
      split at same
      · exact .inl (same.symm.trans names)
      · next elsewhere =>
          rw [if_neg elsewhere] at present
          exact .inr (.inr ⟨holder, inHolder, position, inside, present, same⟩)
  · rintro (rfl | isRoot | ⟨holder, inHolder, position, inside, present, same⟩)
    · refine .inr ⟨directory, member, index, low, ?_⟩
      rw [attached.written]
      exact ⟨some, names⟩
    · exact .inl isRoot
    · have elsewhere : ¬ (holder = directory ∧ position = index) := by
        rintro ⟨rfl, rfl⟩
        exact present absent
      refine .inr ⟨holder, inHolder, position, inside, ?_⟩
      rw [attached.mem notNode inHolder, if_neg elsewhere]
      exact ⟨present, same⟩

theorem linked (linked : Linked layout directories state) (member : directory ∈ directories)
    (notNode : ¬ state.Node directories frame) (absent : state.mem directory index = 0) (names : frameOf word = frame)
    (managed : layout.Managed frame) (inUse : frame ∉ state.freeFrameList)
    (granted : hasPerm word permPresent = true) : Linked layout directories next := by
  have words {other : Nat} (inOther : other ∈ directories) (position : Nat) := attached.mem notNode inOther position
  have notRoot : frame ∉ directories := fun inside => notNode (.inl inside)
  have notTable {other position : Nat} (inOther : other ∈ directories) (inside : position < userTables)
      (present : state.mem other position ≠ 0) : frameOf (state.mem other position) ≠ frame := fun same =>
    notNode (.inr ⟨other, inOther, position, inside, present, same⟩)
  constructor
  · exact attached.size.trans linked.size
  · exact attached.free ▸ linked.roots
  · intro other inOther position inside
    rw [words inOther]
    split
    · exact fun _ => granted
    · exact linked.words other inOther position inside
  · intro other inOther position inside
    rw [words inOther, attached.free]
    split
    · rw [names]
      exact fun _ => ⟨managed, inUse, notRoot⟩
    · exact linked.tables other inOther position inside
  · intro left inLeft right inRight position inside position' inside'
    rw [words inLeft, words inRight]
    split
    · next here =>
        split
        · next there => exact fun _ _ _ => ⟨here.1.trans there.1.symm, here.2.trans there.2.symm⟩
        · intro _ present same
          exact absurd (same.symm.trans names) (notTable inRight inside' present)
    · split
      · intro present _ same
        exact absurd (same.trans names) (notTable inLeft inside present)
      · exact linked.apart left inLeft right inRight position inside position' inside'
  · intro other inOther page pageLow
    rw [attached.entry linked member notNode absent names inOther pageLow, attached.free]
    exact linked.entries other inOther page pageLow
  · exact attached.free ▸ linked.nodup
  · exact attached.free ▸ linked.managedFree

end Attached

/-- A frame that nothing names becomes a directory without user tables. -/
structure Founded (frame : Nat) (state next : KernelState) : Prop where
  size : next.numberOfFrames = state.numberOfFrames
  free : next.freeFrameList = state.freeFrameList
  empty : ∀ index < userTables, next.mem frame index = 0
  others : ∀ other, other ≠ frame → next.mem other = state.mem other

namespace Founded

variable (founded : Founded frame state next)

include founded

theorem mem (notNode : ¬ state.Node directories frame) {other : Nat} (inOther : other ∈ directories) :
    next.mem other = state.mem other := founded.others other fun same => notNode (.inl (same ▸ inOther))

theorem entry_of_mem (notNode : ¬ state.Node directories frame) {other page : Nat} (inOther : other ∈ directories)
    (low : page < userPages) : next.entry other page = state.entry other page := by
  have same := founded.mem notNode inOther
  apply KernelState.entry_congr (by rw [same])
  intro present
  have notFrame : state.tableFrame other page ≠ frame := fun equal =>
    notNode (.inr ⟨other, inOther, _, index_of_page low, present, equal⟩)
  rw [founded.others _ notFrame]

theorem entry_self (low : page < userPages) : next.entry frame page = 0 :=
  KernelState.entry_of_absent (founded.empty _ (index_of_page low))

theorem node (notNode : ¬ state.Node directories frame) (other : Nat) :
    next.Node (frame :: directories) other ↔ other = frame ∨ state.Node directories other := by
  unfold KernelState.Node
  constructor
  · rintro (isRoot | ⟨holder, inHolder, index, low, present, same⟩)
    · exact (List.mem_cons.1 isRoot).imp_right .inl
    · rcases List.mem_cons.1 inHolder with rfl | inHolder
      · exact absurd (founded.empty index low) present
      · rw [founded.mem notNode inHolder] at present same
        exact .inr (.inr ⟨holder, inHolder, index, low, present, same⟩)
  · rintro (rfl | isRoot | ⟨holder, inHolder, index, low, present, same⟩)
    · exact .inl (List.mem_cons_self ..)
    · exact .inl (List.mem_cons_of_mem _ isRoot)
    · refine .inr ⟨holder, List.mem_cons_of_mem _ inHolder, index, low, ?_⟩
      rw [founded.mem notNode inHolder]
      exact ⟨present, same⟩

theorem linked (valid : layout.Valid) (linked : Linked layout directories state) (notNode : ¬ state.Node directories frame)
    (managed : layout.Managed frame) (inUse : frame ∉ state.freeFrameList) :
    Linked layout (frame :: directories) next := by
  have words {other : Nat} (inOther : other ∈ directories) := founded.mem notNode inOther
  constructor
  · exact founded.size.trans linked.size
  · rw [founded.free]
    exact List.forall_mem_cons.2 ⟨⟨(managed.pos valid).2, inUse⟩, linked.roots⟩
  · intro other inOther index low
    rcases List.mem_cons.1 inOther with rfl | inOther
    · exact fun present => absurd (founded.empty index low) present
    · rw [words inOther]
      exact linked.words other inOther index low
  · intro other inOther index low
    rcases List.mem_cons.1 inOther with rfl | inOther
    · exact fun present => absurd (founded.empty index low) present
    · rw [words inOther, founded.free]
      intro present
      obtain ⟨isManaged, notFree, notRoot⟩ := linked.tables other inOther index low present
      refine ⟨isManaged, notFree, fun isRoot => ?_⟩
      rcases List.mem_cons.1 isRoot with same | isRoot
      · exact notNode (.inr ⟨other, inOther, index, low, present, same⟩)
      · exact notRoot isRoot
  · intro left inLeft right inRight index low position low' present present'
    rcases List.mem_cons.1 inLeft with rfl | inLeft
    · exact absurd (founded.empty index low) present
    · rcases List.mem_cons.1 inRight with rfl | inRight
      · exact absurd (founded.empty position low') present'
      · rw [words inLeft] at present ⊢
        rw [words inRight] at present' ⊢
        exact linked.apart left inLeft right inRight index low position low' present present'
  · intro other inOther page low
    rcases List.mem_cons.1 inOther with rfl | inOther
    · exact fun mapped => absurd (founded.entry_self low) mapped
    · rw [founded.entry_of_mem notNode inOther low, founded.free]
      exact linked.entries other inOther page low
  · exact founded.free ▸ linked.nodup
  · exact founded.free ▸ linked.managedFree

end Founded

end Fos.Kernel
