import Fos.Kernel.FreeMemProperties

/-! `allocateMem` and `__sys_allocate_page`: frames are mapped without an element of the
working set. -/

set_option autoImplicit false

namespace Fos.Kernel

open Foundation

variable {layout : BootLayout} {ram : Nat → Page} {slot address : Nat}
  {strict tidy : Prop} {start state next : KernelState} {env : Env} {space : Space}

/-- A page gets another entry, and the lists stay. -/
theorem Resident.remap {entry : Nat → Nat} {active second : List Nat} {page value : Nat}
    (resident : Resident strict tidy entry active second)
    (granted : page * pageSize ∈ active ++ second → Accessible value) :
    Resident (strict ∧ page * pageSize ∉ second) (tidy ∧ page * pageSize ∈ active ++ second)
      (Function.update entry page value) active second where
  nodup := resident.nodup
  pages := resident.pages
  accessible address member := by
    by_cases same : pageOf address = page
    · subst same
      rw [Function.update_self]
      rw [pageOf_mul_pageSize (resident.pages address (List.mem_append_left _ member))] at granted
      exact granted (List.mem_append_left _ member)
    · rw [Function.update_of_ne same]
      exact resident.accessible address member
  retained address member := by
    by_cases same : pageOf address = page
    · subst same
      rw [Function.update_self]
      rw [pageOf_mul_pageSize (resident.pages address (List.mem_append_right _ member))] at granted
      exact (granted (List.mem_append_right _ member)).2
    · rw [Function.update_of_ne same]
      exact resident.retained address member
  hidden isStrict address member := by
    have different : pageOf address ≠ page := by
      rintro rfl
      rw [pageOf_mul_pageSize (resident.pages address (List.mem_append_right _ member))] at isStrict
      exact isStrict.2 member
    rw [Function.update_of_ne different]
    exact resident.hidden isStrict.1 address member
  listed isTidy number some := by
    by_cases same : number = page
    · exact same ▸ isTidy.2
    · rw [Function.update_of_ne same] at some
      exact resident.listed isTidy.1 number some

/-! ### malloc -/

/-- Pages of a range were given frames and disk frames. -/
structure Allocated (layout : BootLayout) (ram : Nat → Page) (strict tidy : Prop) (slot : Nat)
    (addresses : List Nat) (state next : KernelState) : Prop where
  acts : Acts slot [] state [] next
  running : Running layout ram slot next
  env : next.envs slot = state.envs slot
  healthy : Healthy (strict ∧ ∀ address ∈ addresses, roundDown address ∉ (state.envs slot).secondPages)
    (tidy ∧ ∀ address ∈ addresses, roundDown address ∈ (state.envs slot).recency) slot next
  keeps : (∀ address ∈ addresses, state.leaf .user slot (pageOf address) = 0 ∨
    hasPerm (state.leaf .user slot (pageOf address)) permPresent = true) → Keeps slot [] state [] next
  mapped : ∀ address ∈ addresses, Accessible (next.leaf .user slot (pageOf address))
  placed : ∀ address ∈ addresses, next.leaf .disk slot (pageOf address) ≠ 0
  others : ∀ page, page ∉ addresses.map pageOf → next.leaf .user slot page = state.leaf .user slot page ∧
    next.leaf .disk slot page = state.leaf .disk slot page
  diskKept : ∀ page, state.leaf .disk slot page ≠ 0 →
    next.leaf .disk slot page = state.leaf .disk slot page

/-- A system call for some pages panicked: the running environment keeps its lists and its pages in them. -/
structure Panicked (layout : BootLayout) (ram : Nat → Page) (tidy : Prop) (slot : Nat) (addresses : List Nat)
    (state next : KernelState) : Prop where
  inv : Inv layout ram next
  acts : Acts slot [] state [] next
  loaded : Loaded False (tidy ∧ ∀ address ∈ addresses, roundDown address ∈ (state.envs slot).recency) slot next
  keeps : (∀ address ∈ addresses, roundDown address ∈ (state.envs slot).activePages) → Keeps slot [] state [] next

/-- A panic that leaves the record and the table entries. -/
theorem Panicked.of_unchanged {addresses : List Nat} (healthy : Healthy strict tidy slot state)
    (inv : Inv layout ram next) (acts : Acts slot [] state [] next)
    (env : next.envs slot = state.envs slot) (leaf : next.leaf .user slot = state.leaf .user slot)
    (keeps : (∀ address ∈ addresses, roundDown address ∈ (state.envs slot).activePages) → Keeps slot [] state [] next) :
    Panicked layout ram tidy slot addresses state next where
  inv := inv
  acts := acts
  loaded := by
    refine ⟨?_, env ▸ healthy.placed, env ▸ healthy.lists.listed, ?_⟩
    · have live := healthy.live
      simp only [KernelState.root] at live ⊢
      rwa [env]
    · rw [env, leaf]
      exact healthy.resident.weaken False.elim And.left
  keeps := keeps

/-- A page of `ActiveList` has an entry. -/
theorem Healthy.active_present (healthy : Healthy strict tidy slot state)
    (active : roundDown address ∈ (state.envs slot).activePages) :
    hasPerm (state.leaf .user slot (pageOf address)) permPresent = true := by
  have accessible := healthy.resident.accessible _ active
  rw [pageOf_roundDown] at accessible
  exact (hasPerm_present _).trans accessible.1

/-- The table of a page of `ActiveList` is there. -/
theorem Healthy.active_table (healthy : Healthy strict tidy slot state)
    (leaf : next.leaf .user slot = state.leaf .user slot)
    (active : roundDown address ∈ (state.envs slot).activePages) :
    next.dirWord .user slot (pageOf address / 1024) ≠ 0 := by
  apply KernelState.dirWord_ne_zero_of_leaf
  have accessible := healthy.resident.accessible _ active
  rw [pageOf_roundDown] at accessible
  rw [leaf]
  exact accessible.2.ne_zero

theorem allocateMemPage_spec (valid : layout.Valid) (running : Running layout ram slot state)
    (healthy : Healthy strict tidy slot state) (low : address < userTop) :
    wp (allocateMemPage slot address)
      (fun _ next => Allocated layout ram strict tidy slot [address] state next)
      (onPanic (Panicked layout ram tidy slot [address] state)) state := by
  simp only [allocateMemPage, wp_bind]
  refine wp_mono (pfAddEmptyEnvPage_spec valid running.inv low) (fun result first outcome => ?_)
    fun stop next => onPanic.mono fun _ stopped => ?_
  swap
  · obtain ⟨unplaced, -⟩ := stopped
    exact .of_unchanged healthy unplaced.becomes.inv unplaced.becomes.acts
      (unplaced.stable.placed running.placed) (congrArg Space.entry unplaced.becomes.space) fun _ => unplaced.keeps
  rcases outcome with ⟨rfl, unplaced, -⟩ | ⟨rfl, diskFrame, placed⟩
  · rw [if_pos rfl, wp_panic]
    exact .of_unchanged healthy unplaced.becomes.inv unplaced.becomes.acts
      (unplaced.stable.placed running.placed) (congrArg Space.entry unplaced.becomes.space) fun _ => unplaced.keeps
  obtain ⟨stored, becomesPlace, kept⟩ := placed.becomes
  have found : ¬ (0 : Int) = eNoPageFileSpace := by decide
  have envPlace := placed.stable.placed running.placed
  have runningPlace := running.stable becomesPlace placed.stable
  have leafPlace : first.leaf .user slot = state.leaf .user slot :=
    congrArg Space.entry becomesPlace.space
  rw [if_neg found, wp_bind]
  refine wp_mono (allocateFrame_spec becomesPlace.inv slot) (fun frame second taken => ?_)
    fun stop next => onPanic.mono fun _ stopped => ?_
  swap
  · obtain ⟨rfl, -⟩ := stopped
    exact .of_unchanged healthy becomesPlace.inv becomesPlace.acts envPlace leafPlace fun _ => placed.keeps
  obtain ⟨becomesTake, keepsTake, calmTake, fresh, managed, unreferenced, -, -⟩ := taken
  have runningTake := runningPlace.stable becomesTake calmTake.toStable
  have envTake := (calmTake.placed runningPlace.placed).trans envPlace
  have leafTake : second.leaf .user slot = state.leaf .user slot :=
    (congrArg Space.entry becomesTake.space).trans leafPlace
  simp only [wp_bind, wp_get, root_eq]
  refine wp_mono (mapFrame_spec valid becomesTake.inv runningTake.live low fresh managed unreferenced
    (by decide)) (fun _ third mapped => ?_) fun stop next => onPanic.mono fun _ stopped => ?_
  swap
  · obtain ⟨rfl, -, untabled⟩ := stopped
    apply Panicked.of_unchanged healthy becomesTake.inv (becomesPlace.acts.trans becomesTake.drop.acts) envTake leafTake
    intro active
    exact absurd untabled (healthy.active_table leafTake (active address (List.mem_singleton_self _)))
  obtain ⟨becomesMap, keepsMap, calmMap, -⟩ := mapped
  have envMap := (calmMap.placed runningTake.placed).trans envTake
  have runningMap := runningTake.stable becomesMap calmMap.toStable
  let entry := pageEntry frame (permWriteable ||| permPresent ||| permUser)
  have accessible : Accessible entry := accessible_pageEntry frame
  have leaf : third.leaf .user slot = Function.update (state.leaf .user slot) (pageOf address) entry := by
    rw [← leafTake]
    exact congrArg Space.entry becomesMap.space
  have disk : third.leaf .disk slot =
      Function.update (state.leaf .disk slot) (pageOf address) diskFrame := by
    have spaceMap := becomesMap.space
    rw [becomesTake.space, becomesPlace.space] at spaceMap
    exact congrArg Space.diskFrame spaceMap
  have resident := (healthy.resident.remap fun _ => accessible :
    Resident _ _ (Function.update (state.leaf .user slot) (pageOf address) entry) _ _)
  refine ⟨becomesPlace.acts.trans (becomesTake.acts.trans becomesMap.acts), runningMap, envMap,
    ⟨runningMap.live, runningMap.placed, envMap ▸ healthy.lists, ?_⟩, fun either => ?_,
    fun other member => ?_, fun other member => ?_, fun page apart => ?_, fun page some => ?_⟩
  · rw [envMap, leaf]
    refine resident.weaken (fun strictly => ⟨strictly.1, ?_⟩) fun tidily => ⟨tidily.1, ?_⟩
    · rw [← roundDown_eq]
      exact strictly.2 address (List.mem_singleton_self _)
    · rw [← roundDown_eq, ← Env.recency_eq]
      exact tidily.2 address (List.mem_singleton_self _)
  · refine placed.keeps.trans (keepsTake.trans (keepsMap ?_))
    rw [leafTake]
    exact either address (List.mem_singleton_self _)
  · obtain rfl := List.mem_singleton.1 member
    rw [leaf, Function.update_self]
    exact accessible
  · obtain rfl := List.mem_singleton.1 member
    rw [disk, Function.update_self]
    exact placed.positive
  · have different : page ≠ pageOf address := fun same => apart (by simp [same])
    rw [leaf, disk, Function.update_of_ne different, Function.update_of_ne different]
    exact ⟨rfl, rfl⟩
  · rw [disk]
    by_cases same : page = pageOf address
    · subst same
      rw [Function.update_self]
      exact (kept some).1
    · rw [Function.update_of_ne same]

theorem Allocated.empty (running : Running layout ram slot state)
    (healthy : Healthy strict tidy slot state) :
    Allocated layout ram strict tidy slot [] state state where
  acts := .refl slot [] state
  running := running
  env := rfl
  healthy := { healthy with resident := healthy.resident.weaken And.left And.left }
  keeps _ := .refl slot [] state
  mapped _ member := by cases member
  placed _ member := by cases member
  others _ _ := ⟨rfl, rfl⟩
  diskKept _ _ := rfl

theorem Allocated.trans {first second : List Nat} {last : KernelState}
    {strict' tidy' : Prop} (before : Allocated layout ram strict tidy slot first state next)
    (after : Allocated layout ram strict' tidy' slot second next last)
    (isStrict : strict' ↔ (strict ∧ ∀ address ∈ first,
      roundDown address ∉ (state.envs slot).secondPages))
    (isTidy : tidy' ↔ (tidy ∧ ∀ address ∈ first, roundDown address ∈ (state.envs slot).recency)) :
    Allocated layout ram strict tidy slot (first ++ second) state last where
  acts := before.acts.trans after.acts
  running := after.running
  env := after.env.trans before.env
  healthy := by
    refine { after.healthy with resident := after.healthy.resident.weaken (fun both => ?_) fun both => ?_ }
    · rw [before.env, isStrict]
      exact ⟨⟨both.1, fun address member => both.2 address (List.mem_append_left _ member)⟩,
        fun address member => both.2 address (List.mem_append_right _ member)⟩
    · rw [before.env, isTidy]
      exact ⟨⟨both.1, fun address member => both.2 address (List.mem_append_left _ member)⟩,
        fun address member => both.2 address (List.mem_append_right _ member)⟩
  keeps either := by
    refine (before.keeps fun address member => either address (List.mem_append_left _ member)).trans
      (after.keeps fun address member => ?_)
    by_cases again : pageOf address ∈ first.map pageOf
    · obtain ⟨other, inFirst, same⟩ := List.mem_map.1 again
      rw [← same, hasPerm_present]
      exact .inr (before.mapped other inFirst).1
    · rw [(before.others _ again).1]
      exact either address (List.mem_append_right _ member)
  mapped address member := by
    by_cases again : pageOf address ∈ second.map pageOf
    · obtain ⟨other, inSecond, same⟩ := List.mem_map.1 again
      exact same ▸ after.mapped other inSecond
    · rw [(after.others _ again).1]
      refine before.mapped address ((List.mem_append.1 member).resolve_right fun inSecond => ?_)
      exact again (List.mem_map_of_mem inSecond)
  placed address member := by
    by_cases again : pageOf address ∈ second.map pageOf
    · obtain ⟨other, inSecond, same⟩ := List.mem_map.1 again
      exact same ▸ after.placed other inSecond
    · rw [(after.others _ again).2]
      refine before.placed address ((List.mem_append.1 member).resolve_right fun inSecond => ?_)
      exact again (List.mem_map_of_mem inSecond)
  others page apart := by
    rw [List.map_append, List.mem_append, not_or] at apart
    rw [(after.others page apart.2).1, (after.others page apart.2).2]
    exact before.others page apart.1
  diskKept page some := by
    have first := before.diskKept page some
    rw [after.diskKept page (first.symm ▸ some), first]

/-- Pages of `ActiveList` get other frames, and theirs are free. -/
theorem Allocated.keeps_of_active {addresses : List Nat} (healthy : Healthy strict tidy slot state)
    (allocated : Allocated layout ram strict tidy slot addresses state next)
    (active : ∀ address ∈ addresses, roundDown address ∈ (state.envs slot).activePages) : Keeps slot [] state [] next :=
  allocated.keeps fun address member => .inr (healthy.active_present (active address member))

theorem Panicked.after {rest : List Nat} (healthy : Healthy strict tidy slot state)
    (before : Allocated layout ram strict tidy slot [address] state next) {last : KernelState}
    (panicked : Panicked layout ram (tidy ∧ ∀ other ∈ [address], roundDown other ∈ (state.envs slot).recency) slot rest
      next last) : Panicked layout ram tidy slot (address :: rest) state last where
  inv := panicked.inv
  acts := before.acts.trans panicked.acts
  loaded := by
    refine { panicked.loaded with resident := panicked.loaded.resident.weaken False.elim fun tidily => ?_ }
    obtain ⟨first, others⟩ := List.forall_mem_cons.1 tidily.2
    rw [before.env]
    exact ⟨⟨tidily.1, List.forall_mem_singleton.2 first⟩, others⟩
  keeps active := by
    obtain ⟨first, others⟩ := List.forall_mem_cons.1 active
    have kept := before.keeps_of_active healthy (List.forall_mem_singleton.2 first)
    rw [← before.env] at others
    exact kept.trans (panicked.keeps others)

theorem Panicked.weaken {rest : List Nat} (panicked : Panicked layout ram tidy slot [address] state next) :
    Panicked layout ram tidy slot (address :: rest) state next where
  inv := panicked.inv
  acts := panicked.acts
  loaded := by
    refine { panicked.loaded with resident := panicked.loaded.resident.weaken False.elim fun tidily => ?_ }
    exact ⟨tidily.1, List.forall_mem_singleton.2 (List.forall_mem_cons.1 tidily.2).1⟩
  keeps active := panicked.keeps (List.forall_mem_singleton.2 (List.forall_mem_cons.1 active).1)

/-- `allocateMem` on pages below `USER_TOP`. -/
theorem allocatePages_spec (valid : layout.Valid) (running : Running layout ram slot state)
    (healthy : Healthy strict tidy slot state) (count : Nat)
    (low : ∀ page ∈ rangeOf address count, page < userTop) :
    wp (allocatePages slot address count)
      (fun _ next => Allocated layout ram strict tidy slot (rangeOf address count) state next)
      (onPanic (Panicked layout ram tidy slot (rangeOf address count) state)) state := by
  induction count generalizing state address strict tidy with
  | zero => exact .empty running healthy
  | succ count ih =>
      rw [rangeOf] at low ⊢
      obtain ⟨lowFirst, lowRest⟩ := List.forall_mem_cons.1 low
      simp only [allocatePages, wp_bind]
      refine wp_mono (allocateMemPage_spec valid running healthy lowFirst) (fun _ next first => ?_)
        fun stop last => onPanic.mono fun _ => .weaken
      refine wp_mono (ih first.running first.healthy lowRest) (fun _ last rest => ?_)
        fun stop last => onPanic.mono fun _ => .after healthy first
      exact first.trans rest Iff.rfl Iff.rfl

/-! ### A single page -/

/-- The check `__sys_allocate_page` makes of its flags. -/
def AcceptedPerm (perm : Nat) : Prop :=
  perm &&& (wordSize - 1 - (permAvailable ||| permWriteable)) = permUser

/-- The frame of `__sys_allocate_page` was mapped at its address, or the call was refused and
the frame is lost. -/
structure Granted (layout : BootLayout) (ram : Nat → Page) (strict tidy : Prop) (slot address perm : Nat)
    (state next : KernelState) : Prop where
  acts : Acts slot [] state [] next
  running : Running layout ram slot next
  env : next.envs slot = state.envs slot
  healthy : Healthy (strict ∧ address ∉ (state.envs slot).secondPages)
    (tidy ∧ address ∈ (state.envs slot).recency) slot next
  disk : next.leaf .disk slot = state.leaf .disk slot
  keeps : address ∈ (state.envs slot).activePages → AcceptedPerm perm → Keeps slot [] state [] next

/-- The flags that are accepted: those of a user page, writeable or not. -/
theorem permissions_accepted {perm : Nat} (word : perm < wordSize)
    (accepted : AcceptedPerm perm) :
    perm < pageSize ∧ perm.testBit 2 = true := by
  have bits (bit : Nat) : (perm.testBit bit && (wordSize - 1 - (permAvailable ||| permWriteable)).testBit bit) =
      permUser.testBit bit := by
    rw [← Nat.testBit_and, accepted]
  constructor
  · refine Nat.lt_pow_two_of_testBit (n := 12) perm fun bit high => ?_
    by_cases inside : bit < 32
    · have here := bits bit
      have both : ∀ bit < 32, 12 ≤ bit →
          (wordSize - 1 - (permAvailable ||| permWriteable)).testBit bit = true ∧
            permUser.testBit bit = false := by
        decide
      rw [(both bit inside high).1, (both bit inside high).2, Bool.and_true] at here
      exact here
    · exact Nat.testBit_lt_two_pow (word.trans_le (Nat.pow_le_pow_right Nat.two_pos (not_lt.1 inside)))
  · have here := bits 2
    exact (Bool.and_eq_true_iff.1 here).1

/-- `__sys_allocate_page`. A page that is in a list stays writeable. -/
theorem sysAllocatePage_spec (valid : layout.Valid) (running : Running layout ram slot state)
    (healthy : Healthy strict tidy slot state) {perm : Nat} (word : perm < wordSize)
    (writeable : address ∈ (state.envs slot).recency → perm.testBit 1 = true) :
    wp (sysAllocatePage slot address perm)
      (fun _ next => Granted layout ram strict tidy slot address perm state next)
      (onPanic (Panicked layout ram tidy slot [address] state)) state := by
  unfold sysAllocatePage
  rw [wp_bind]
  refine wp_mono (allocateFrame_spec running.inv slot) (fun frame first taken => ?_)
    fun stop next => onPanic.mono fun _ stopped => ?_
  swap
  · obtain ⟨rfl, -⟩ := stopped
    exact .of_unchanged healthy running.inv (.refl slot [] _) rfl rfl fun _ => .refl slot [] _
  obtain ⟨becomesTake, keepsTake, calmTake, fresh, managed, unreferenced, -, -⟩ := taken
  have envTake := calmTake.placed running.placed
  have runningTake := running.stable becomesTake calmTake.toStable
  have leafTake : first.leaf .user slot = state.leaf .user slot := congrArg Space.entry becomesTake.space
  have diskTake : first.leaf .disk slot = state.leaf .disk slot := congrArg Space.diskFrame becomesTake.space
  have refused (why : (userTop ≤ address ∨ address % pageSize ≠ 0) ∨ ¬ AcceptedPerm perm) :
      Granted layout ram strict tidy slot address perm state first := by
    refine ⟨becomesTake.drop.acts, runningTake, envTake, ⟨runningTake.live, runningTake.placed, ?_, ?_⟩, diskTake,
      fun active accepted => ?_⟩
    · rw [envTake]
      exact healthy.lists
    · rw [envTake, leafTake]
      exact healthy.resident.weaken And.left And.left
    · have page := healthy.resident.pages address (List.mem_append_left _ active)
      rcases why with (high | unaligned) | refused
      · exact absurd page.2 (not_lt.2 high)
      · exact absurd page.1 unaligned
      · exact absurd accepted refused
  by_cases improper : userTop ≤ address ∨ address % pageSize ≠ 0
  · rw [if_pos improper]
    exact refused (.inl improper)
  rw [if_neg improper]
  by_cases accepted : perm &&& (wordSize - 1 - (permAvailable ||| permWriteable)) = permUser
  swap
  · rw [if_pos accepted]
    exact refused (.inr accepted)
  obtain ⟨high, unaligned⟩ := not_or.1 improper
  have page : Env.UserPage address := ⟨not_not.1 unaligned, not_le.1 high⟩
  obtain ⟨lowPerm, user⟩ := permissions_accepted word accepted
  have bound : frameOf (toPhysicalAddress frame) < first.numberOfFrames := by
    rw [frameOf_toPhysicalAddress, becomesTake.inv.size]
    exact (managed.pos valid).2
  rw [if_neg (not_not.2 accepted), wp_bind, wp_staticKernelVirtualAddress bound, frameOf_toPhysicalAddress,
    wp_bind, wp_modify, wp_bind, wp_get, wp_bind, root_eq]
  obtain ⟨becomesZero, keepsZero⟩ := becomesTake.inv.writeFresh slot fresh managed (List.mem_singleton_self _) Page.zero
  have leafZero : (first.writeFrame frame Page.zero).leaf .user slot = state.leaf .user slot :=
    (congrArg Space.entry becomesZero.space).trans leafTake
  have whole : roundDown address = address := (roundDown_eq address).trans (pageOf_mul_pageSize page)
  refine wp_mono (mapFrame_spec valid becomesZero.inv runningTake.live page.2 (fresh_writeFrame fresh _) managed
    unreferenced lowPerm) (fun _ last mapped => ?_) fun stop next => onPanic.mono fun _ stopped => ?_
  · obtain ⟨becomesMap, keepsMap, calmMap, -⟩ := mapped
    have envMap : last.envs slot = state.envs slot := (calmMap.placed runningTake.placed).trans envTake
    have spaceMap := becomesMap.space
    rw [becomesZero.space, becomesTake.space] at spaceMap
    have leaf : last.leaf .user slot = Function.update (state.leaf .user slot) (pageOf address)
        (pageEntry frame perm) := congrArg Space.entry spaceMap
    have runningMap : Running layout ram slot last :=
      ⟨becomesMap.inv, becomesMap.acts.quiet.curenv.trans runningTake.curenv,
        (becomesMap.acts.quiet.cr3.trans runningTake.active).trans (congrArg _ calmMap.root_user.symm),
        calmMap.root_user ▸ runningTake.live, by rw [envMap]; exact running.placed⟩
    have granted (member : pageOf address * pageSize ∈ (state.envs slot).activePages ++
        (state.envs slot).secondPages) : Accessible (pageEntry frame perm) := by
      rw [pageOf_mul_pageSize page, ← Env.recency_eq] at member
      refine ⟨?_, ?_, ?_⟩ <;> rw [testBit_pageEntry _ _ (by decide)]
      · simp
      · simp [writeable member]
      · simp [user]
    have resident := healthy.resident.remap granted
    rw [pageOf_mul_pageSize page, ← Env.recency_eq] at resident
    refine ⟨becomesTake.acts.trans (becomesZero.acts.trans becomesMap.acts), runningMap, envMap,
      ⟨runningMap.live, runningMap.placed, ?_, ?_⟩, congrArg Space.diskFrame spaceMap, fun active _ => ?_⟩
    · rw [envMap]
      exact healthy.lists
    · rw [envMap, leaf]
      exact resident
    · refine keepsTake.trans (keepsZero.trans (keepsMap (.inr ?_)))
      rw [leafZero]
      exact healthy.active_present (whole.symm ▸ active)
  · obtain ⟨rfl, -, untabled⟩ := stopped
    apply Panicked.of_unchanged healthy becomesZero.inv (becomesTake.acts.trans becomesZero.drop.acts) envTake leafZero
    intro active
    exact absurd untabled (healthy.active_table leafZero (active address (List.mem_singleton_self _)))

end Fos.Kernel
