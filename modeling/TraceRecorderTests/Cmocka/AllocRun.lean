import TraceRecorderTests.Cmocka.AllocSpec

/-!
# Runs of the allocator

What a test does with the allocator is a list of calls. In memory they do what
they do on areas (`runAllocCalls_spec`), and from there two things the allocator
is for can be said about whole runs, in terms of the calls and their replies: an
area is reported at `_test_free` exactly when a byte of its guards was overwritten
and not written back (`testFree_after_run`), and the test is reported at its end
exactly when a pointer it got was never freed (`leaks_after_run`).
-/

namespace TraceRecorderTests.Cmocka

open Base

/-! ## Calls -/

/-- What a test does with the allocator and its areas. -/
inductive AllocCall
  | malloc (size : Nat)
  | calloc (numberOfElements size : Nat)
  | realloc (ptr size : Nat)
  | free (ptr : Nat)
  | read (ptr : Nat) (offset : Int)
  | write (ptr : Nat) (offset : Int) (v : UInt8)
  deriving DecidableEq, Repr

/-- What it gets: a pointer, a byte, nothing; or the test is over. -/
inductive AllocReply
  | pointer (ptr : Nat)
  | byte (v : UInt8)
  | returned
  | failed
  deriving DecidableEq, Repr

/-- The reply of a function that returns a pointer. -/
def AllocReply.ofPointer : Option Nat → AllocReply
  | some ptr => .pointer ptr
  | none => .failed

/-- The reply of a function that returns nothing. -/
def AllocReply.ofReturn (returns : Bool) : AllocReply := if returns then .returned else .failed

namespace AllocCall

/-- A call in memory; `block` is what `malloc` returns in it. -/
def run (block : Nat) (s : Arena) : AllocCall → Option (AllocReply × Arena)
  | malloc size => (testMalloc size block s).map fun (ptr, s) => (.ofPointer ptr, s)
  | calloc numberOfElements size =>
      (testCalloc numberOfElements size block s).map fun (ptr, s) => (.ofPointer ptr, s)
  | realloc ptr size => (testRealloc ptr size block s).map fun (ptr, s) => (.ofPointer ptr, s)
  | free ptr => (testFree ptr s).map fun (returns, s) => (.ofReturn returns, s)
  | read ptr offset => (readByte ptr offset s).map fun v => (.byte v, s)
  | write ptr offset v => (writeByte ptr offset v s).map fun s => (.returned, s)

/-- A call on areas; `none` when it uses a pointer that is not one to an area. -/
def apply (block : Nat) (areas : List Area) : AllocCall → Option (AllocReply × List Area)
  | malloc size =>
      some (.ofPointer (mallocAreas size block areas).1, (mallocAreas size block areas).2)
  | calloc numberOfElements size =>
      some (.ofPointer (callocAreas numberOfElements size block areas).1,
        (callocAreas numberOfElements size block areas).2)
  | realloc ptr size =>
      (reallocAreas ptr size block areas).map fun (ptr, areas) => (.ofPointer ptr, areas)
  | free ptr => (freeAreas ptr areas).map fun (returns, areas) => (.ofReturn returns, areas)
  | read ptr offset => (readAreas ptr offset areas).map fun v => (.byte v, areas)
  | write ptr offset v => (writeAreas ptr offset v areas).map fun areas => (.returned, areas)

/-- How many bytes `_test_malloc` is asked for. -/
def asks : AllocCall → Option Nat
  | malloc size => some size
  | calloc numberOfElements size => some (sizeT (numberOfElements * size))
  | realloc _ size => some size
  | _ => none

/-- The pointer that is freed when the call returns. -/
def frees : AllocCall → Option Nat
  | realloc ptr _ => some ptr
  | free ptr => some ptr
  | _ => none

/-- What `malloc` returns in a call is `NULL` or a block that is free. -/
def BlockFree (c : AllocCall) (block : Nat) (areas : List Area) : Prop :=
  ∀ size ∈ c.asks, size + 112 < 2 ^ 64 → block ≠ 0 → FreeBlock areas (size + 112) block

instance (c : AllocCall) (block : Nat) (areas : List Area) : Decidable (c.BlockFree block areas) :=
  inferInstanceAs (Decidable (∀ size ∈ c.asks, size + 112 < 2 ^ 64 → block ≠ 0 →
    FreeBlock areas (size + 112) block))

end AllocCall

/-- The calls of a test, up to the first that ends it, each with the block `malloc`
returns in it. -/
def runAllocCalls : List (AllocCall × Nat) → Arena → Option (List AllocReply × Arena)
  | [], s => some ([], s)
  | (c, block) :: rest, s => do
      let (reply, s) ← c.run block s
      if reply = .failed then return ([reply], s)
      let (replies, s) ← runAllocCalls rest s
      return (reply :: replies, s)

/-- The same on areas. -/
def applyAllocCalls : List (AllocCall × Nat) → List Area → Option (List AllocReply × List Area)
  | [], areas => some ([], areas)
  | (c, block) :: rest, areas => do
      let (reply, areas) ← c.apply block areas
      if reply = .failed then return ([reply], areas)
      let (replies, areas) ← applyAllocCalls rest areas
      return (reply :: replies, areas)

/-- In every call `malloc` returns `NULL` or a block that is free at that time. -/
def BlocksFree : List (AllocCall × Nat) → List Area → Prop
  | [], _ => True
  | (c, block) :: rest, areas => c.BlockFree block areas ∧
      ∀ reply areas', c.apply block areas = some (reply, areas') → BlocksFree rest areas'

theorem BlocksFree.cons {c : AllocCall} {block : Nat} {rest : List (AllocCall × Nat)}
    {areas areas₁ : List Area} {reply : AllocReply} (hfree : c.BlockFree block areas)
    (hstep : c.apply block areas = some (reply, areas₁)) (hrest : BlocksFree rest areas₁) :
    BlocksFree ((c, block) :: rest) areas := by
  refine ⟨hfree, fun reply' areas' h => ?_⟩
  rw [hstep, Option.some.injEq, Prod.mk.injEq] at h
  rw [← h.2]
  exact hrest

/-! ## Memory does what areas do -/

section Refinement

variable {s : Arena} {areas areas' : List Area}

theorem Arena.Stores.run_spec (h : s.Stores areas) {c : AllocCall} {block : Nat}
    {reply : AllocReply} (hfree : c.BlockFree block areas)
    (happly : c.apply block areas = some (reply, areas')) :
    ∃ s', c.run block s = some (reply, s') ∧ s'.Stores areas' := by
  cases c with
  | malloc size =>
      cases happly
      obtain ⟨s', hrun, h'⟩ := h.testMalloc_spec size block (hfree size rfl)
      exact ⟨s', by rw [AllocCall.run, hrun]; rfl, h'⟩
  | calloc numberOfElements size =>
      cases happly
      obtain ⟨s', hrun, h'⟩ := h.testCalloc_spec numberOfElements size block (hfree _ rfl)
      exact ⟨s', by rw [AllocCall.run, hrun]; rfl, h'⟩
  | realloc ptr size =>
      obtain ⟨⟨result, areas''⟩, hrealloc, heq⟩ := Option.map_eq_some_iff.mp happly
      cases heq
      obtain ⟨s', hrun, h'⟩ := h.testRealloc_spec (hfree size rfl) hrealloc
      exact ⟨s', by rw [AllocCall.run, hrun]; rfl, h'⟩
  | free ptr =>
      obtain ⟨⟨returns, areas''⟩, hfreed, heq⟩ := Option.map_eq_some_iff.mp happly
      cases heq
      obtain ⟨s', hrun, h'⟩ := h.testFree_spec hfreed
      exact ⟨s', by rw [AllocCall.run, hrun]; rfl, h'⟩
  | read ptr offset =>
      obtain ⟨v, hread, heq⟩ := Option.map_eq_some_iff.mp happly
      cases heq
      exact ⟨s, by rw [AllocCall.run, h.readByte_spec hread]; rfl, h⟩
  | write ptr offset v =>
      obtain ⟨areas'', hwrite, heq⟩ := Option.map_eq_some_iff.mp happly
      cases heq
      obtain ⟨s', hrun, h'⟩ := h.writeByte_spec hwrite
      exact ⟨s', by rw [AllocCall.run, hrun]; rfl, h'⟩

/-- The first call of a run, and what follows unless it ends the test. -/
theorem applyAllocCalls_cons {c : AllocCall} {block : Nat} {rest : List (AllocCall × Nat)}
    {replies : List AllocReply}
    (h : applyAllocCalls ((c, block) :: rest) areas = some (replies, areas')) :
    ∃ reply areas₁, c.apply block areas = some (reply, areas₁) ∧
      (reply = .failed ∧ replies = [reply] ∧ areas' = areas₁ ∨
        reply ≠ .failed ∧ ∃ replies', applyAllocCalls rest areas₁ = some (replies', areas') ∧
          replies = reply :: replies') := by
  obtain ⟨⟨reply, areas₁⟩, hstep, hrest⟩ := Option.bind_eq_some_iff.mp h
  dsimp only at hrest
  refine ⟨reply, areas₁, hstep, ?_⟩
  by_cases hfailed : reply = .failed
  · rw [if_pos hfailed] at hrest
    cases hrest
    exact Or.inl ⟨hfailed, rfl, rfl⟩
  · rw [if_neg hfailed] at hrest
    obtain ⟨⟨replies', areas₂⟩, hcalls, heq⟩ := Option.bind_eq_some_iff.mp hrest
    cases heq
    exact Or.inr ⟨hfailed, replies', hcalls, rfl⟩

/-- Calls that use the pointers they got do in memory what they do on areas that
have nothing to do with each other: they get the same replies and leave the same
areas. -/
theorem runAllocCalls_spec : ∀ {calls : List (AllocCall × Nat)} {s : Arena}
    {areas areas' : List Area} {replies : List AllocReply}, s.Stores areas →
    BlocksFree calls areas → applyAllocCalls calls areas = some (replies, areas') →
    ∃ s', runAllocCalls calls s = some (replies, s') ∧ s'.Stores areas'
  | [], s, areas, _, _, h, _, happly => by
      cases happly
      exact ⟨s, rfl, h⟩
  | (c, block) :: rest, s, areas, areas', replies, h, hfree, happly => by
      obtain ⟨reply, areas₁, hstep, hrest⟩ := applyAllocCalls_cons happly
      obtain ⟨s₁, hrun, h₁⟩ := h.run_spec hfree.1 hstep
      simp only [runAllocCalls, hrun, Option.bind_eq_bind, Option.bind_some]
      rcases hrest with ⟨hfailed, rfl, rfl⟩ | ⟨hfailed, replies', hcalls, rfl⟩
      · exact ⟨s₁, if_pos hfailed, h₁⟩
      · obtain ⟨s', hrun', h'⟩ := runAllocCalls_spec h₁ (hfree.2 _ _ hstep) hcalls
        refine ⟨s', ?_, h'⟩
        rw [if_neg hfailed, hrun']
        rfl

end Refinement

/-! ## What becomes of an area -/

section Keep

variable {s : Arena} {areas areas' : List Area} {a : Area}

/-- An offset in the guards of an area. -/
def Area.InGuards (a : Area) (offset : Int) : Prop :=
  a.InReach offset ∧ ¬ (0 ≤ offset ∧ offset < a.size)

/-- What is set is read back; the rest stays. -/
theorem Area.get_set {offset offset' : Int} (hfront : a.front.length = mallocGuardSize)
    (hback : a.back.length = mallocGuardSize) (h : a.InReach offset) (h' : a.InReach offset')
    (v : UInt8) :
    (a.set offset v).get offset' = if offset = offset' then some v else a.get offset' := by
  obtain ⟨hlow, hhigh⟩ := h
  obtain ⟨hlow', hhigh'⟩ := h'
  have hsize : a.data.length = a.size := rfl
  unfold mallocGuardSize at *
  unfold Area.get
  rw [Area.set_size]
  unfold Area.set mallocGuardSize
  by_cases hsame : offset = offset'
  · subst hsame
    rw [if_pos rfl]
    split
    · rw [List.getElem?_set_self (by omega)]
    · split
      · rw [List.getElem?_set_self (by omega)]
      · rw [List.getElem?_set_self (by omega)]
  · rw [if_neg hsame]
    -- only a write to the same of the three lists could be seen
    split_ifs
    all_goals first
      | rfl
      | rw [List.getElem?_set_ne (by omega)]

/-- The guards are intact when each of their bytes is. -/
theorem Area.intact_iff (hfront : a.front.length = mallocGuardSize)
    (hback : a.back.length = mallocGuardSize) :
    a.Intact ↔ ∀ offset, a.InGuards offset → a.get offset = some mallocGuardPattern := by
  unfold mallocGuardSize at hfront hback
  constructor
  · rintro h offset ⟨⟨hlow, hhigh⟩, hout⟩
    unfold mallocGuardSize at hlow hhigh
    unfold Area.get mallocGuardSize
    split
    · rw [List.getElem?_eq_getElem (by omega),
        h _ (List.mem_append_left _ (List.getElem_mem _))]
    · rw [if_neg (by omega), List.getElem?_eq_getElem (by omega),
        h _ (List.mem_append_right _ (List.getElem_mem _))]
  · intro h v hv
    rcases List.mem_append.mp hv with hv | hv
    · obtain ⟨i, hi, rfl⟩ := List.mem_iff_getElem.mp hv
      have hget := h ((i : Int) - 16) ⟨⟨by unfold mallocGuardSize; omega, by
        unfold mallocGuardSize; omega⟩, by omega⟩
      unfold Area.get mallocGuardSize at hget
      rw [if_pos (by omega), show (((i : Int) - 16) + (16 : Nat)).toNat = i by omega,
        List.getElem?_eq_getElem hi] at hget
      exact Option.some.inj hget
    · obtain ⟨i, hi, rfl⟩ := List.mem_iff_getElem.mp hv
      have hget := h ((a.size : Int) + i) ⟨⟨by unfold mallocGuardSize; omega, by
        unfold mallocGuardSize; omega⟩, by omega⟩
      unfold Area.get at hget
      rw [if_neg (by omega), if_neg (by omega),
        show ((a.size : Int) + i - a.size).toNat = i by omega, List.getElem?_eq_getElem hi] at hget
      exact Option.some.inj hget

/-- A new area has a pointer of its own. -/
theorem FreeBlock.ptr_ne {size block : Nat} (hfree : FreeBlock areas (size + 112) block)
    (h : s.Stores areas) (hnull : block ≠ 0) (ha : a ∈ areas) :
    a.ptr ≠ (Area.allocated size block).ptr :=
  (hfree.apart a ha).ptr_ne (h.fits a ha) (hfree.fits hnull)

theorem mem_modifyArea_of_ne {ptr : Nat} (f : Area → Area) (ha : a ∈ areas) (hne : a.ptr ≠ ptr) :
    a ∈ modifyArea ptr f areas := by
  refine List.mem_map.mpr ⟨a, ha, ?_⟩
  rw [if_neg hne]

theorem mem_freeAreas {ptr : Nat} {returns : Bool}
    (hareas : freeAreas ptr areas = some (returns, areas')) (ha : a ∈ areas) (hne : a.ptr ≠ ptr) :
    a ∈ areas' := by
  unfold freeAreas at hareas
  split at hareas
  · cases hareas
    exact ha
  · obtain ⟨b, -, hareas⟩ := Option.bind_eq_some_iff.mp hareas
    split at hareas
    · cases hareas
      exact List.mem_filter.mpr ⟨ha, by simpa using hne⟩
    · cases hareas
      exact ha

/-- An area outlives the allocation of another, which has another pointer. -/
theorem mem_mallocAreas {size block : Nat} (h : s.Stores areas)
    (hfree : size + 112 < 2 ^ 64 → block ≠ 0 → FreeBlock areas (size + 112) block)
    (ha : a ∈ areas) : a ∈ (mallocAreas size block areas).2 ∧
      ∀ ptr ∈ (mallocAreas size block areas).1, a.ptr ≠ ptr := by
  unfold mallocAreas
  split
  · rename_i hok
    refine ⟨List.mem_append_left _ ha, ?_⟩
    intro ptr hptr
    cases hptr
    exact (hfree hok.1 hok.2).ptr_ne h hok.2 ha
  · exact ⟨ha, fun ptr hptr => by cases hptr⟩

theorem mem_callocAreas {numberOfElements size block : Nat} (h : s.Stores areas)
    (hfree : sizeT (numberOfElements * size) + 112 < 2 ^ 64 → block ≠ 0 →
      FreeBlock areas (sizeT (numberOfElements * size) + 112) block)
    (ha : a ∈ areas) : a ∈ (callocAreas numberOfElements size block areas).2 := by
  obtain ⟨hmem, hne⟩ := mem_mallocAreas h hfree ha
  unfold callocAreas
  split
  · rename_i heq
    rw [heq] at hmem
    exact hmem
  · rename_i ptr _ heq
    rw [heq] at hmem hne
    exact mem_modifyArea_of_ne _ hmem (hne ptr rfl)

theorem mem_reallocAreas {ptr size block : Nat} {result : Option Nat} (h : s.Stores areas)
    (hfree : size + 112 < 2 ^ 64 → block ≠ 0 → FreeBlock areas (size + 112) block)
    (hareas : reallocAreas ptr size block areas = some (result, areas')) (ha : a ∈ areas)
    (hne : a.ptr ≠ ptr) : a ∈ areas' := by
  obtain ⟨hmem, hneNew⟩ := mem_mallocAreas h hfree ha
  unfold reallocAreas at hareas
  split at hareas
  · rw [Option.some.injEq] at hareas
    rw [hareas] at hmem
    exact hmem
  · split at hareas
    · obtain ⟨⟨returns, areas₁⟩, hfreed, hres⟩ := Option.bind_eq_some_iff.mp hareas
      cases hres
      exact mem_freeAreas hfreed ha hne
    · obtain ⟨b, -, hareas⟩ := Option.bind_eq_some_iff.mp hareas
      split at hareas
      · rename_i heq
        cases hareas
        rw [heq] at hmem
        exact hmem
      · rename_i newBlock _ heq
        obtain ⟨⟨returns, areas₁⟩, hfreed, hres⟩ := Option.bind_eq_some_iff.mp hareas
        cases hres
        rw [heq] at hmem hneNew
        exact mem_freeAreas hfreed (mem_modifyArea_of_ne _ hmem (hneNew newBlock rfl)) hne

/-- What a call writes to a byte. -/
def AllocCall.writes (ptr : Nat) (offset : Int) : AllocCall → Option UInt8
  | write p o v => if p = ptr ∧ o = offset then some v else none
  | _ => none

/-- The last byte that calls write there. -/
def lastWrite (calls : List AllocCall) (ptr : Nat) (offset : Int) : Option UInt8 :=
  (calls.filterMap fun c => c.writes ptr offset).getLast?

/-- The area is the same but for the bytes written to it. -/
structure Area.Written (a a' : Area) (written : Int → Option UInt8) : Prop where
  block : a'.block = a.block
  size : a'.size = a.size
  get : ∀ offset, a.InReach offset → a'.get offset = (written offset).or (a.get offset)

/-- A call that does not free an area writes to it at most what it says. -/
theorem Arena.Stores.apply_keeps (h : s.Stores areas) {c : AllocCall} {block : Nat}
    {reply : AllocReply} (hfree : c.BlockFree block areas)
    (happly : c.apply block areas = some (reply, areas')) (ha : a ∈ areas)
    (hkeep : c.frees ≠ some a.ptr) :
    ∃ a' ∈ areas', a.Written a' (c.writes a.ptr) := by
  have hsame : ∀ written : Int → Option UInt8, (∀ offset, written offset = none) →
      a.Written a written := by
    intro written hnone
    exact ⟨rfl, rfl, fun offset _ => by rw [hnone, Option.none_or]⟩
  cases c with
  | malloc size =>
      cases happly
      exact ⟨a, (mem_mallocAreas h (hfree size rfl) ha).1, hsame _ fun _ => rfl⟩
  | calloc numberOfElements size =>
      cases happly
      exact ⟨a, mem_callocAreas h (hfree _ rfl) ha, hsame _ fun _ => rfl⟩
  | realloc ptr size =>
      obtain ⟨⟨result, areas''⟩, hrealloc, heq⟩ := Option.map_eq_some_iff.mp happly
      cases heq
      refine ⟨a, mem_reallocAreas h (hfree size rfl) hrealloc ha ?_, hsame _ fun _ => rfl⟩
      rintro rfl
      exact hkeep rfl
  | free ptr =>
      obtain ⟨⟨returns, areas''⟩, hfreed, heq⟩ := Option.map_eq_some_iff.mp happly
      cases heq
      refine ⟨a, mem_freeAreas hfreed ha ?_, hsame _ fun _ => rfl⟩
      rintro rfl
      exact hkeep rfl
  | read ptr offset =>
      obtain ⟨v, -, heq⟩ := Option.map_eq_some_iff.mp happly
      cases heq
      exact ⟨a, ha, hsame _ fun _ => rfl⟩
  | write ptr offset v =>
      obtain ⟨areas'', hwrite, heq⟩ := Option.map_eq_some_iff.mp happly
      cases heq
      obtain ⟨b, hfind, hset⟩ := Option.bind_eq_some_iff.mp hwrite
      have hb := List.mem_of_find?_eq_some hfind
      have hptr : b.ptr = ptr := by simpa using List.find?_some hfind
      subst hptr
      split at hset
      case isFalse => cases hset
      case isTrue hreach =>
        cases hset
        by_cases hab : a.ptr = b.ptr
        · have heq := h.eq_of_ptr ha hb hab
          subst heq
          have hstored := h.stored a ha
          have hfront : a.front.length = mallocGuardSize := by rw [← hstored.front]; simp
          have hback : a.back.length = mallocGuardSize := by rw [← hstored.back]; simp
          refine ⟨a.set offset v, List.mem_map.mpr ⟨a, ha, if_pos rfl⟩, Area.set_block offset v,
            Area.set_size offset v, ?_⟩
          intro offset' hreach'
          rw [Area.get_set hfront hback hreach hreach']
          by_cases ho : offset = offset'
          · simp [AllocCall.writes, ho]
          · simp [AllocCall.writes, ho]
        · refine ⟨a, mem_modifyArea_of_ne _ ha hab, hsame _ fun o => ?_⟩
          simp [AllocCall.writes, Ne.symm hab]

theorem lastWrite_cons (c : AllocCall) (calls : List AllocCall) (ptr : Nat) (offset : Int) :
    lastWrite (c :: calls) ptr offset =
      (lastWrite calls ptr offset).or (c.writes ptr offset) := by
  unfold lastWrite
  cases hwrites : c.writes ptr offset with
  | none => rw [List.filterMap_cons_none hwrites, Option.or_none]
  | some v =>
      rw [List.filterMap_cons_some hwrites, List.getLast?_cons]
      cases (calls.filterMap fun c => c.writes ptr offset).getLast? <;> rfl

theorem Area.Written.trans {a' a'' : Area} {first second : Int → Option UInt8}
    (h : a.Written a' first) (h' : a'.Written a'' second) :
    a.Written a'' fun offset => (second offset).or (first offset) where
  block := h'.block.trans h.block
  size := h'.size.trans h.size
  get offset hreach := by
    have hreach' : a'.InReach offset := by
      unfold Area.InReach at hreach ⊢
      rw [h.size]
      exact hreach
    rw [h'.get offset hreach', h.get offset hreach, Option.or_assoc]

/-- Over a run that does not free an area and is not cut short, every byte of the
area is the last one written to it. -/
theorem Arena.Stores.applyAll_keeps : ∀ {calls : List (AllocCall × Nat)} {s : Arena}
    {areas areas' : List Area} {replies : List AllocReply} {a : Area}, s.Stores areas →
    BlocksFree calls areas → applyAllocCalls calls areas = some (replies, areas') → a ∈ areas →
    (∀ c ∈ calls, c.1.frees ≠ some a.ptr) → .failed ∉ replies →
    ∃ a' ∈ areas', a.Written a' (lastWrite (calls.map Prod.fst) a.ptr)
  | [], s, areas, _, _, a, _, _, happly, ha, _, _ => by
      cases happly
      refine ⟨a, ha, rfl, rfl, fun offset _ => ?_⟩
      simp [lastWrite]
  | (c, block) :: rest, s, areas, areas', replies, a, h, hfree, happly, ha, hkeep, hok => by
      obtain ⟨reply, areas₁, hstep, hrest⟩ := applyAllocCalls_cons happly
      obtain ⟨s₁, -, h₁⟩ := h.run_spec hfree.1 hstep
      rcases hrest with ⟨hfailed, rfl, -⟩ | ⟨-, replies', hcalls, rfl⟩
      · exact absurd (by simp [hfailed]) hok
      · obtain ⟨a₁, ha₁, hwritten₁⟩ :=
          h.apply_keeps hfree.1 hstep ha (hkeep _ List.mem_cons_self)
        have hptr : a₁.ptr = a.ptr := by rw [Area.ptr, hwritten₁.block]; rfl
        obtain ⟨a', ha', hwritten'⟩ := applyAll_keeps h₁ (hfree.2 _ _ hstep) hcalls ha₁
          (fun c' hc' => by rw [hptr]; exact hkeep c' (List.mem_cons_of_mem _ hc'))
          (List.not_mem_of_not_mem_cons hok)
        refine ⟨a', ha', ?_⟩
        have hboth := hwritten₁.trans hwritten'
        rw [hptr] at hboth
        have hlast : lastWrite (((c, block) :: rest).map Prod.fst) a.ptr =
            fun offset => (lastWrite (rest.map Prod.fst) a.ptr offset).or (c.writes a.ptr offset) :=
          funext fun offset => lastWrite_cons c _ a.ptr offset
        rw [hlast]
        exact hboth

/-- An area whose guards are intact at the start: at the end of a run that is not cut
short and does not free it, `_test_free` returns for it exactly when no byte of its
guards was last written with anything but the pattern. -/
theorem testFree_after_run {calls : List (AllocCall × Nat)} {replies : List AllocReply}
    (h : s.Stores areas) (ha : a ∈ areas) (hintact : a.Intact) (hfree : BlocksFree calls areas)
    (happly : applyAllocCalls calls areas = some (replies, areas')) (hok : .failed ∉ replies)
    (hkeep : ∀ c ∈ calls, c.1.frees ≠ some a.ptr) :
    ∃ s' s'' returns, runAllocCalls calls s = some (replies, s') ∧
      testFree a.ptr s' = some (returns, s'') ∧
      (returns = true ↔ ∀ offset v, a.InGuards offset →
        lastWrite (calls.map Prod.fst) a.ptr offset = some v → v = mallocGuardPattern) := by
  obtain ⟨s', hrun, h'⟩ := runAllocCalls_spec h hfree happly
  obtain ⟨a', ha', hwritten⟩ := h.applyAll_keeps hfree happly ha hkeep hok
  have hptr : a'.ptr = a.ptr := by rw [Area.ptr, hwritten.block]; rfl
  have hfreed : freeAreas a.ptr areas' = some (decide a'.Intact,
      if a'.Intact then areas'.filter fun b => b.ptr ≠ a.ptr else areas') := by
    rw [freeAreas, if_neg (Nat.ne_of_gt (h.fits a ha).ptr_pos), ← hptr, h'.find_ptr ha']
    by_cases hintact' : a'.Intact <;> simp [hintact']
  obtain ⟨s'', hrunFree, -⟩ := h'.testFree_spec hfreed
  refine ⟨s', s'', _, hrun, hrunFree, ?_⟩
  have hstored := h.stored a ha
  have hstored' := h'.stored a' ha'
  rw [decide_eq_true_iff, Area.intact_iff (by rw [← hstored'.front]; simp)
    (by rw [← hstored'.back]; simp)]
  rw [Area.intact_iff (by rw [← hstored.front]; simp) (by rw [← hstored.back]; simp)] at hintact
  have hguards : ∀ offset, a'.InGuards offset ↔ a.InGuards offset := by
    intro offset
    unfold Area.InGuards Area.InReach
    rw [hwritten.size]
  constructor
  · intro hall offset v hoffset hlast
    have hget := hall offset ((hguards offset).mpr hoffset)
    rw [hwritten.get offset hoffset.1, hlast] at hget
    exact Option.some.inj hget
  · intro hall offset hoffset
    have hoffset := (hguards offset).mp hoffset
    rw [hwritten.get offset hoffset.1]
    cases hlast : lastWrite (calls.map Prod.fst) a.ptr offset with
    | none => exact hintact offset hoffset
    | some v => rw [hall offset v hoffset hlast]; rfl

end Keep

/-! ## What a run leaks -/

section Leaks

variable {s : Arena} {areas areas' : List Area}

/-- The pointers a reply gives; a size of 0 gives `NULL`. -/
def AllocReply.gives : AllocReply → List Nat
  | pointer ptr => if ptr = 0 then [] else [ptr]
  | _ => []

/-- The pointers in use after calls and their replies, `ptrs` being in use before. -/
def inUse : List (AllocCall × AllocReply) → List Nat → List Nat
  | [], ptrs => ptrs
  | (c, reply) :: rest, ptrs =>
      inUse rest ((ptrs.filter fun ptr => c.frees ≠ some ptr) ++ reply.gives)

/-- What is in use before is in use after unless it is freed, and precedes what the
calls allocate. -/
theorem inUse_append : ∀ (trace : List (AllocCall × AllocReply)) (old new : List Nat),
    inUse trace (old ++ new) =
      old.filter (fun ptr => trace.all fun c => c.1.frees ≠ some ptr) ++ inUse trace new
  | [], old, new => by simp [inUse]
  | (c, reply) :: rest, old, new => by
      unfold inUse
      rw [List.filter_append, List.append_assoc, inUse_append rest, List.filter_filter]
      simp only [List.all_cons, Bool.and_comm]

theorem modifyArea_map_ptr {ptr : Nat} {f : Area → Area} (hf : ∀ a, (f a).block = a.block)
    (areas : List Area) : (modifyArea ptr f areas).map Area.ptr = areas.map Area.ptr := by
  rw [modifyArea, List.map_map]
  refine List.map_congr_left fun a _ => ?_
  show Area.ptr (if a.ptr = ptr then f a else a) = a.ptr
  split
  · rw [Area.ptr, hf]
    rfl
  · rfl

/-- Freeing an area takes its pointer out of use. -/
theorem freeAreas_map_ptr {ptr : Nat} (hpos : ptr = 0 → ∀ a ∈ areas, 0 < a.ptr)
    (hareas : freeAreas ptr areas = some (true, areas')) :
    areas'.map Area.ptr = (areas.map Area.ptr).filter fun p => some ptr ≠ some p := by
  unfold freeAreas at hareas
  rw [List.filter_map]
  split at hareas
  · rename_i hnull
    cases hareas
    rw [List.filter_eq_self.mpr]
    intro a ha
    have hpos := hpos hnull a ha
    simp only [Function.comp_apply, hnull, ne_eq, Option.some.injEq, decide_not,
      Bool.not_eq_true', decide_eq_false_iff_not]
    omega
  · obtain ⟨b, -, hareas⟩ := Option.bind_eq_some_iff.mp hareas
    split at hareas
    · cases hareas
      congr 1
      refine List.filter_congr fun a _ => ?_
      simp only [Function.comp_apply, ne_eq, Option.some.injEq, decide_not]
      congr 2
      exact propext ⟨Eq.symm, Eq.symm⟩
    · cases hareas

/-- A new area gives its pointer. -/
theorem mallocAreas_map_ptr {size block ptr : Nat} {areas₁ : List Area}
    (hfree : size + 112 < 2 ^ 64 → block ≠ 0 → FreeBlock areas (size + 112) block)
    (hareas : mallocAreas size block areas = (some ptr, areas₁)) :
    areas₁.map Area.ptr = areas.map Area.ptr ++ (AllocReply.pointer ptr).gives := by
  unfold mallocAreas at hareas
  split at hareas
  · rename_i hok
    cases hareas
    have hpos := ((hfree hok.1 hok.2).fits hok.2).ptr_pos
    rw [AllocReply.gives, if_neg (Nat.ne_of_gt hpos), List.map_append, List.map_singleton]
  · cases hareas

theorem callocAreas_map_ptr {numberOfElements size block : Nat}
    {areas₁ : List Area}
    {ptr : Nat} (hfree : sizeT (numberOfElements * size) + 112 < 2 ^ 64 → block ≠ 0 →
      FreeBlock areas (sizeT (numberOfElements * size) + 112) block)
    (hareas : callocAreas numberOfElements size block areas = (some ptr, areas₁)) :
    areas₁.map Area.ptr = areas.map Area.ptr ++ (AllocReply.pointer ptr).gives := by
  unfold callocAreas at hareas
  split at hareas
  · cases hareas
  · rename_i heq
    cases hareas
    rw [modifyArea_map_ptr (by intro a; rfl)]
    exact mallocAreas_map_ptr hfree heq

theorem Arena.Stores.reallocAreas_map_ptr (h : s.Stores areas) {ptr size block result : Nat}
    (hfree : size + 112 < 2 ^ 64 → block ≠ 0 → FreeBlock areas (size + 112) block)
    (hareas : reallocAreas ptr size block areas = some (some result, areas')) :
    areas'.map Area.ptr = ((areas.map Area.ptr).filter fun p => some ptr ≠ some p) ++
      (AllocReply.pointer result).gives := by
  have hpos : ptr = 0 → ∀ a ∈ areas, 0 < a.ptr := fun _ a ha => (h.fits a ha).ptr_pos
  unfold reallocAreas at hareas
  split at hareas
  · rename_i hnull
    rw [Option.some.injEq] at hareas
    have hfreed : freeAreas ptr areas = some (true, areas) := if_pos hnull
    rw [mallocAreas_map_ptr hfree hareas, ← freeAreas_map_ptr hpos hfreed]
  · rename_i hnull
    split at hareas
    · obtain ⟨⟨returns, areas₁⟩, hfreed, hres⟩ := Option.bind_eq_some_iff.mp hareas
      cases returns with
      | false => cases hres
      | true =>
          cases hres
          rw [freeAreas_map_ptr hpos hfreed]
          simp [AllocReply.gives]
    · obtain ⟨b, hfind, hareas⟩ := Option.bind_eq_some_iff.mp hareas
      have hb := List.mem_of_find?_eq_some hfind
      have hbptr : b.ptr = ptr := by simpa using List.find?_some hfind
      split at hareas
      · cases hareas
      · rename_i newBlock areas₁ heq
        obtain ⟨⟨returns, areas₂⟩, hfreed, hres⟩ := Option.bind_eq_some_iff.mp hareas
        cases returns with
        | false => cases hres
        | true =>
            cases hres
            have hmalloc := mallocAreas_map_ptr hfree heq
            obtain ⟨-, hne⟩ := mem_mallocAreas h hfree hb
            rw [heq, hbptr] at hne
            have hkeep : ∀ p ∈ (AllocReply.pointer result).gives, some ptr ≠ some p := by
              intro p hp heq'
              rw [Option.some.injEq] at heq'
              rw [AllocReply.gives] at hp
              by_cases hzero : result = 0
              · rw [if_pos hzero] at hp
                exact absurd hp List.not_mem_nil
              · rw [if_neg hzero, List.mem_singleton] at hp
                exact hne result rfl (heq'.trans hp)
            rw [freeAreas_map_ptr (fun hzero => absurd hzero hnull) hfreed,
              modifyArea_map_ptr (by intro a; rfl), hmalloc, List.filter_append]
            congr 1
            rw [List.filter_eq_self]
            intro p hp
            simpa using hkeep p hp

/-- One call: what it frees goes, what it gives comes last. -/
theorem Arena.Stores.apply_map_ptr (h : s.Stores areas) {c : AllocCall} {block : Nat}
    {reply : AllocReply} (hfree : c.BlockFree block areas)
    (happly : c.apply block areas = some (reply, areas')) (hok : reply ≠ .failed) :
    areas'.map Area.ptr =
      ((areas.map Area.ptr).filter fun ptr => c.frees ≠ some ptr) ++ reply.gives := by
  have hpos : ∀ ptr, ptr = 0 → ∀ a ∈ areas, 0 < a.ptr := fun _ _ a ha => (h.fits a ha).ptr_pos
  have hall : ∀ ptrs : List Nat,
      ptrs.filter (fun ptr => (none : Option Nat) ≠ some ptr) = ptrs := by
    intro ptrs
    rw [List.filter_eq_self]
    intro ptr _
    rfl
  cases c with
  | malloc size =>
      cases happly
      cases hmalloc : mallocAreas size block areas with
      | mk ptr areas₁ =>
          rw [hmalloc] at hok
          cases ptr with
          | none => exact absurd rfl hok
          | some ptr =>
              have hptrs := mallocAreas_map_ptr (hfree size rfl) hmalloc
              rw [← hall (areas.map Area.ptr)] at hptrs
              exact hptrs
  | calloc numberOfElements size =>
      cases happly
      cases hcalloc : callocAreas numberOfElements size block areas with
      | mk ptr areas₁ =>
          rw [hcalloc] at hok
          cases ptr with
          | none => exact absurd rfl hok
          | some ptr =>
              have hptrs := callocAreas_map_ptr (hfree _ rfl) hcalloc
              rw [← hall (areas.map Area.ptr)] at hptrs
              exact hptrs
  | realloc ptr size =>
      obtain ⟨⟨result, areas''⟩, hrealloc, heq⟩ := Option.map_eq_some_iff.mp happly
      cases heq
      cases result with
      | none => exact absurd rfl hok
      | some result => exact h.reallocAreas_map_ptr (hfree size rfl) hrealloc
  | free ptr =>
      obtain ⟨⟨returns, areas''⟩, hfreed, heq⟩ := Option.map_eq_some_iff.mp happly
      cases heq
      cases returns with
      | false => exact absurd rfl hok
      | true =>
          rw [freeAreas_map_ptr (hpos ptr) hfreed]
          simp [AllocCall.frees, AllocReply.ofReturn, AllocReply.gives]
  | read ptr offset =>
      obtain ⟨v, -, heq⟩ := Option.map_eq_some_iff.mp happly
      cases heq
      show areas.map Area.ptr =
        (areas.map Area.ptr).filter (fun ptr => (none : Option Nat) ≠ some ptr) ++ []
      rw [hall, List.append_nil]
  | write ptr offset v =>
      obtain ⟨areas'', hwrite, heq⟩ := Option.map_eq_some_iff.mp happly
      cases heq
      obtain ⟨b, -, hset⟩ := Option.bind_eq_some_iff.mp hwrite
      split at hset
      case isFalse => cases hset
      case isTrue =>
        cases hset
        show (modifyArea ptr _ areas).map Area.ptr =
          (areas.map Area.ptr).filter (fun ptr => (none : Option Nat) ≠ some ptr) ++ []
        rw [hall, List.append_nil, modifyArea_map_ptr fun a => Area.set_block offset v]

/-- A run that is not cut short: the pointers in use are what its calls and replies
say. -/
theorem Arena.Stores.applyAll_map_ptr : ∀ {calls : List (AllocCall × Nat)} {s : Arena}
    {areas areas' : List Area} {replies : List AllocReply}, s.Stores areas →
    BlocksFree calls areas → applyAllocCalls calls areas = some (replies, areas') →
    .failed ∉ replies →
    areas'.map Area.ptr = inUse ((calls.map Prod.fst).zip replies) (areas.map Area.ptr)
  | [], s, areas, _, _, _, _, happly, _ => by
      cases happly
      rfl
  | (c, block) :: rest, s, areas, areas', replies, h, hfree, happly, hok => by
      obtain ⟨reply, areas₁, hstep, hrest⟩ := applyAllocCalls_cons happly
      obtain ⟨s₁, -, h₁⟩ := h.run_spec hfree.1 hstep
      rcases hrest with ⟨hfailed, rfl, -⟩ | ⟨hreply, replies', hcalls, rfl⟩
      · exact absurd (by simp [hfailed]) hok
      · rw [applyAll_map_ptr h₁ (hfree.2 _ _ hstep) hcalls (List.not_mem_of_not_mem_cons hok),
          h.apply_map_ptr hfree.1 hstep hreply]
        rfl


/-- The newest of the areas that were there stays the newest of them. -/
theorem getLast?_filter_of_keep {α : Type} (q : α → Bool) {l : List α}
    (h : ∀ x ∈ l.getLast?, q x = true) : (l.filter q).getLast? = l.getLast? := by
  rcases List.eq_nil_or_concat' l with rfl | ⟨l', x, rfl⟩
  · rfl
  · have hx := h x (by simp)
    rw [List.filter_append, List.filter_cons_of_pos hx, List.filter_nil, List.getLast?_concat,
      List.getLast?_concat]

/-- A run that is not cut short and does not free the area that was the newest
before it: `fail_if_blocks_allocated` returns exactly when every pointer the run
got was freed. -/
theorem leaks_after_run {calls : List (AllocCall × Nat)} {replies : List AllocReply}
    {fuel : Nat} (h : s.Stores areas) (hfree : BlocksFree calls areas)
    (happly : applyAllocCalls calls areas = some (replies, areas')) (hok : .failed ∉ replies)
    (hkeep : ∀ ptr ∈ (areas.map Area.ptr).getLast?, ∀ c ∈ calls, c.1.frees ≠ some ptr)
    (hfuel : areas'.length < fuel) :
    ∃ checkPoint s' s'' returns, checkPointAllocatedBlocks s = some checkPoint ∧
      runAllocCalls calls s = some (replies, s') ∧
      failIfBlocksAllocated fuel checkPoint s' = some (returns, s'') ∧
      (returns = true ↔ inUse ((calls.map Prod.fst).zip replies) [] = []) := by
  obtain ⟨s', hrun, h'⟩ := runAllocCalls_spec h hfree happly
  have hptrs := h.applyAll_map_ptr hfree happly hok
  have hsplit := inUse_append ((calls.map Prod.fst).zip replies) (areas.map Area.ptr) []
  rw [List.append_nil] at hsplit
  rw [hsplit] at hptrs
  obtain ⟨before, after, rfl, hbefore, hafter⟩ := List.map_eq_append_iff.mp hptrs
  have hlast : (before.map Area.ptr).getLast? = (areas.map Area.ptr).getLast? := by
    rw [hbefore]
    refine getLast?_filter_of_keep _ fun ptr hptr => ?_
    rw [List.all_eq_true]
    intro c hc
    have hmem := (List.of_mem_zip hc).1
    obtain ⟨⟨call, block⟩, hcall, hfst⟩ := List.mem_map.mp hmem
    rw [decide_eq_true_iff, ← hfst]
    exact hkeep ptr hptr _ hcall
  have hinfo : (before.map Area.info).getLast? = (areas.map Area.info).getLast? := by
    have hmap : ∀ l : List Area, (l.map Area.info).getLast? =
        (l.map Area.ptr).getLast?.map infoOf := by
      intro l
      rw [← List.getLast?_map, List.map_map]
      rfl
    rw [hmap, hmap, hlast]
  obtain ⟨s'', hcheck, -⟩ := h'.failIfBlocksAllocated_spec
    (show after.length < fuel by rw [List.length_append] at hfuel; omega)
  rw [hinfo] at hcheck
  refine ⟨_, s', s'', _, h.checkPoint_spec, hrun, hcheck, ?_⟩
  rw [decide_eq_true_iff, ← hafter, List.map_eq_nil_iff]

/-- The check point of a test is a node of the newest area there was before it. When
the test has freed that area, `fail_if_blocks_allocated` reads freed memory, unless
`malloc` has handed out the same address again. -/
theorem leakCheck_defined_iff {calls : List (AllocCall × Nat)} {replies : List AllocReply}
    {fuel : Nat} (h : s.Stores areas) (hfree : BlocksFree calls areas)
    (happly : applyAllocCalls calls areas = some (replies, areas')) (hfuel : areas'.length < fuel) :
    ∃ checkPoint s', checkPointAllocatedBlocks s = some checkPoint ∧
      runAllocCalls calls s = some (replies, s') ∧
      ((failIfBlocksAllocated fuel checkPoint s').isSome ↔
        ∀ ptr ∈ (areas.map Area.ptr).getLast?, ptr ∈ areas'.map Area.ptr) := by
  obtain ⟨s', hrun, h'⟩ := runAllocCalls_spec h hfree happly
  refine ⟨_, s', h.checkPoint_spec, hrun, ?_⟩
  rcases List.eq_nil_or_concat' areas with rfl | ⟨older, newest, rfl⟩
  · -- the check point is the head
    have hall : s'.Stores ([] ++ areas') := h'
    obtain ⟨s'', hcheck, -⟩ := hall.failIfBlocksAllocated_spec hfuel
    simp only [List.map_nil, List.getLast?_nil] at hcheck ⊢
    rw [hcheck]
    simp
  · rw [List.map_append, List.map_append, List.map_singleton, List.map_singleton,
      List.getLast?_concat, List.getLast?_concat]
    have hfits := h.fits newest (by simp)
    constructor
    · intro hsome ptr hptr
      cases hptr
      by_contra hnot
      have hdead : s'.nodes.links.next (some newest.info) = none := by
        show (s'.nodes.nodeAt _).map _ = none
        rw [Heap.nodeAt, h'.dead newest.info fun a ha hinfo => hnot
          (List.mem_map.mpr ⟨a, ha, ((h'.fits a ha).info_inj hfits).mp hinfo⟩)]
        rfl
      have hnone : failIfBlocksAllocated fuel (some newest.info) s' = none := by
        simp only [failIfBlocksAllocated, displayAllocatedBlocks, hdead, Option.bind_eq_bind,
          Option.bind_none]
      rw [hnone] at hsome
      cases hsome
    · intro hmem
      obtain ⟨a, ha, hptr⟩ := List.mem_map.mp (hmem newest.ptr rfl)
      obtain ⟨ys, zs, rfl⟩ := List.append_of_mem ha
      have hsplit : s'.Stores ((ys ++ [a]) ++ zs) := by
        rw [List.append_assoc]
        exact h'
      obtain ⟨s'', hcheck, -⟩ := hsplit.failIfBlocksAllocated_spec
        (show zs.length < fuel by
          rw [List.length_append, List.length_cons] at hfuel
          omega)
      rw [List.map_append, List.map_singleton, List.getLast?_concat,
        ((h'.fits a ha).info_inj hfits).mpr hptr] at hcheck
      rw [hcheck]
      rfl

end Leaks

/-! ## A first area -/

/-- Before the first allocation: the head of the list, alone. -/
def startArena : Arena where
  byte _ := 0
  info _ := none
  nodes :=
    { block := fun a => if a = none then
        some (.listNode { value := none, refcount := 1, next := none, prev := none }) else none
      mallocs := [] }

theorem startArena_stores : startArena.Stores [] where
  nodes := ⟨LinkRing.nil_iff.mpr ⟨rfl, rfl⟩, fun i hi => by cases hi⟩
  info a ha := by cases ha
  fits a ha := by cases ha
  apart := List.Pairwise.nil
  stored a ha := by cases ha
  dead i _ := rfl

/-- Four bytes, in a block at 1000. -/
def firstArea : Area := Area.allocated 4 1000

theorem exists_firstArea : ∃ s : Arena, s.Stores [firstArea] := by
  obtain ⟨s, -, h⟩ := startArena_stores.testMalloc_spec 4 1000 fun _ _ =>
    ⟨by decide, fun a ha => by cases ha⟩
  exact ⟨s, h⟩

/-- A byte written one past the end is found when the area is freed. -/
theorem testFree_after_run_overrun : ∃ s s' s'' : Arena, s.Stores [firstArea] ∧
    runAllocCalls [(.write 1096 4 0, 0)] s = some ([.returned], s') ∧
    testFree 1096 s' = some (false, s'') := by
  obtain ⟨s, h⟩ := exists_firstArea
  have hptr : firstArea.ptr = 1096 := by decide
  have hfree : BlocksFree [(.write 1096 4 0, 0)] [firstArea] :=
    ⟨fun size hsize => (by cases hsize), fun _ _ _ => trivial⟩
  have happly : applyAllocCalls [(.write 1096 4 0, 0)] [firstArea] =
      some ([.returned], [firstArea.set 4 0]) := by decide +kernel
  obtain ⟨s', s'', returns, hrun, hfreed, hiff⟩ :=
    testFree_after_run h (List.mem_singleton_self firstArea) (by decide +kernel) hfree happly
      (by decide) (by decide +kernel)
  rw [hptr] at hfreed hiff
  have hfalse : returns = false := by
    by_contra htrue
    have hall := hiff.mp (by simpa using htrue) 4 0 (by unfold Area.InGuards; decide) (by decide)
    exact absurd hall (by decide)
  rw [hfalse] at hfreed
  exact ⟨s, s', s'', h, hrun, hfreed⟩

/-- The calls of a test that allocates two areas and frees one. -/
def leakingCalls : List (AllocCall × Nat) :=
  [(.malloc 4, 2000), (.calloc 2 3, 3000), (.free 2096, 0)]

/-- What is left of them. -/
def leakedArea : Area := { Area.allocated 6 3000 with data := [0, 0, 0, 0, 0, 0] }

theorem leakingCalls_blocksFree : BlocksFree leakingCalls [firstArea] := by
  have hmalloc : AllocCall.apply 2000 [firstArea] (.malloc 4) =
      some (.pointer 2096, [firstArea, Area.allocated 4 2000]) := by decide +kernel
  have hcalloc : AllocCall.apply 3000 [firstArea, Area.allocated 4 2000] (.calloc 2 3) =
      some (.pointer 3096, [firstArea, Area.allocated 4 2000, leakedArea]) := by decide +kernel
  have hfreed : AllocCall.apply 0 [firstArea, Area.allocated 4 2000, leakedArea] (.free 2096) =
      some (.returned, [firstArea, leakedArea]) := by decide +kernel
  refine .cons ?_ hmalloc (.cons ?_ hcalloc (.cons ?_ hfreed trivial))
  · rintro size ⟨⟩ - -
    decide
  · rintro size ⟨⟩ - -
    decide
  · rintro size ⟨⟩

theorem leakingCalls_apply : applyAllocCalls leakingCalls [firstArea] =
    some ([.pointer 2096, .pointer 3096, .returned], [firstArea, leakedArea]) := by
  decide +kernel

/-- The area that was not freed is found. -/
theorem leaks_after_run_leaking : ∃ (s s' s'' : Arena) (checkPoint : Option Nat),
    checkPointAllocatedBlocks s = some checkPoint ∧
    runAllocCalls leakingCalls s = some ([.pointer 2096, .pointer 3096, .returned], s') ∧
    failIfBlocksAllocated 3 checkPoint s' = some (false, s'') := by
  obtain ⟨s, h⟩ := exists_firstArea
  have hkeep : ∀ ptr ∈ ([firstArea].map Area.ptr).getLast?,
      ∀ c ∈ leakingCalls, c.1.frees ≠ some ptr := by
    intro ptr hptr
    cases hptr
    decide
  obtain ⟨checkPoint, s', s'', returns, hcp, hrun, hcheck, hiff⟩ :=
    leaks_after_run h leakingCalls_blocksFree leakingCalls_apply (by decide) hkeep
      (by decide : [firstArea, leakedArea].length < 3)
  have hfalse : returns = false := by
    by_contra htrue
    exact absurd (hiff.mp (by simpa using htrue)) (by decide)
  rw [hfalse] at hcheck
  exact ⟨s, s', s'', checkPoint, hcp, hrun, hcheck⟩

/-- A test that frees what was there before it leaves the check point dangling. -/
theorem leakCheck_defined_iff_freed : ∃ (s s' : Arena) (checkPoint : Option Nat),
    checkPointAllocatedBlocks s = some checkPoint ∧
    runAllocCalls [(.free 1096, 0)] s = some ([.returned], s') ∧
    failIfBlocksAllocated 1 checkPoint s' = none := by
  obtain ⟨s, h⟩ := exists_firstArea
  have hfree : BlocksFree [(.free 1096, 0)] [firstArea] :=
    ⟨fun size hsize => (by cases hsize), fun _ _ _ => trivial⟩
  have happly : applyAllocCalls [(.free 1096, 0)] [firstArea] = some ([.returned], []) := by
    decide +kernel
  obtain ⟨checkPoint, s', hcp, hrun, hiff⟩ :=
    leakCheck_defined_iff h hfree happly (Nat.lt_succ_self 0)
  refine ⟨s, s', checkPoint, hcp, hrun, ?_⟩
  rw [← Option.not_isSome_iff_eq_none, hiff]
  decide

end TraceRecorderTests.Cmocka
