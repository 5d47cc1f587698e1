import Mathlib.Data.List.Pairwise
import TraceRecorderTests.Cmocka.ListSpec
import TraceRecorderTests.Cmocka.TestAlloc

/-!
# Areas

Seen from a test, `_test_malloc` hands out areas that have nothing to do with each
other: each has its bytes and its two guards, and lives until it is freed
(`Area`). `Arena.Stores` says that the memory, the infos and their list hold a
given list of areas, in the order they were allocated; the functions of the
allocator then do to memory what one expects of them on areas.
-/

namespace TraceRecorderTests.Cmocka

open Base

/-! ## One area -/

/-- An area: the block it lies in, its bytes, and the guards around them. -/
structure Area where
  block : Nat
  front : List UInt8
  data : List UInt8
  back : List UInt8
  deriving DecidableEq, Repr

namespace Area

variable (a b : Area)

/-- How many bytes were asked for. -/
def size : Nat := a.data.length

/-- The pointer a test has. -/
def ptr : Nat :=
  alignDown (a.block + mallocGuardSize + mallocBlockInfoSize + mallocAlignment)

/-- Where the info is. -/
def info : Nat := infoOf a.ptr

/-- How many bytes the block has. -/
def allocatedSize : Nat :=
  a.size + mallocGuardSize * 2 + mallocBlockInfoSize + mallocAlignment

/-- The info. -/
def infoData : MallocBlockInfoData := ⟨a.block, a.allocatedSize, a.size⟩

/-- The node in the list of allocated blocks. -/
def item : Item (Option Nat) := ⟨some a.info, some a.info, 0⟩

/-- The guards are as they were written. -/
def Intact : Prop := ∀ v ∈ a.front ++ a.back, v = mallocGuardPattern

instance : Decidable a.Intact :=
  inferInstanceAs (Decidable (∀ v ∈ a.front ++ a.back, v = mallocGuardPattern))

/-- `malloc` can return the block. -/
structure Fits : Prop where
  notNull : 0 < a.block
  bound : a.block + a.allocatedSize ≤ 2 ^ 64

/-- The blocks do not overlap. -/
def Apart : Prop :=
  a.block + a.allocatedSize ≤ b.block ∨ b.block + b.allocatedSize ≤ a.block

/-- Memory holds the area and its guards. -/
structure Stored (m : FlatMemory UInt8) : Prop where
  front : m.slice (a.ptr - mallocGuardSize) mallocGuardSize = a.front
  data : m.slice a.ptr a.size = a.data
  back : m.slice (a.ptr + a.size) mallocGuardSize = a.back

/-- A new area of a size. -/
def allocated (size block : Nat) : Area where
  block := block
  front := List.replicate mallocGuardSize mallocGuardPattern
  data := List.replicate size mallocAllocPattern
  back := List.replicate mallocGuardSize mallocGuardPattern

variable {a b}

@[simp] theorem allocated_size (size block : Nat) : (allocated size block).size = size := by
  simp [allocated, Area.size]

theorem Apart.symm (h : a.Apart b) : b.Apart a := Or.symm h

instance : Std.Symm Apart := ⟨fun _ _ => Apart.symm⟩

theorem allocatedSize_eq : a.allocatedSize = a.size + 112 := rfl

/-- The info, the guards and the area lie in the block, in this order. -/
theorem Fits.layout (h : a.Fits) :
    a.ptr = a.info + 88 ∧ a.block < a.info ∧
      a.ptr + a.size + mallocGuardSize ≤ a.block + a.allocatedSize := by
  have hbound := h.bound
  rw [allocatedSize_eq] at hbound ⊢
  have hptr : a.ptr = (a.block + 96) / 8 * 8 := alignDown_eq (by show a.block + 96 < _; omega)
  have hinfo : a.info = a.ptr - 88 := rfl
  unfold mallocGuardSize
  omega

theorem Fits.ptr_pos (h : a.Fits) : 0 < a.ptr := by
  have hlayout := h.layout
  omega

/-- The pointer and the info are reckoned from each other. -/
theorem Fits.info_inj (ha : a.Fits) (hb : b.Fits) : a.info = b.info ↔ a.ptr = b.ptr := by
  have hla := ha.layout
  have hlb := hb.layout
  omega

/-- Areas in blocks that do not overlap have different pointers. -/
theorem Apart.ptr_ne (h : a.Apart b) (ha : a.Fits) (hb : b.Fits) : a.ptr ≠ b.ptr := by
  have hla := ha.layout
  have hlb := hb.layout
  unfold mallocGuardSize at hla hlb
  rw [Apart, allocatedSize_eq, allocatedSize_eq] at h
  rw [allocatedSize_eq] at hla hlb
  omega

/-- What is stored depends on the bytes of the block only. -/
theorem Stored.frame {m m' : FlatMemory UInt8} (h : a.Stored m) (hfits : a.Fits)
    (hagree : ∀ x, a.block ≤ x → x < a.block + a.allocatedSize → m' x = m x) :
    a.Stored m' := by
  have hlayout := hfits.layout
  unfold mallocGuardSize at hlayout
  constructor
  · rw [← h.front]
    refine FlatMemory.slice_congr fun x hx hxn => hagree x ?_ ?_ <;>
      unfold mallocGuardSize at hx hxn <;> omega
  · rw [← h.data]
    exact FlatMemory.slice_congr fun x hx hxn => hagree x (by omega) (by omega)
  · rw [← h.back]
    refine FlatMemory.slice_congr fun x hx hxn => hagree x ?_ ?_ <;>
      unfold mallocGuardSize at hxn <;> omega

end Area

/-! ## All areas -/

/-- The arena holds these areas, the oldest first. -/
structure Arena.Stores (s : Arena) (areas : List Area) : Prop where
  nodes : Nodes s.nodes none (areas.map Area.item)
  info : ∀ a ∈ areas, s.info a.info = some a.infoData
  fits : ∀ a ∈ areas, a.Fits
  apart : areas.Pairwise Area.Apart
  stored : ∀ a ∈ areas, a.Stored s.byte
  dead : ∀ i, (∀ a ∈ areas, a.info ≠ i) → s.nodes.block (some i) = none

/-- What `malloc` returns for a block of `n` bytes is free: it overlaps no block
in use. -/
def FreeBlock (areas : List Area) (n block : Nat) : Prop :=
  block + n ≤ 2 ^ 64 ∧
    ∀ a ∈ areas, block + n ≤ a.block ∨ a.block + a.allocatedSize ≤ block

instance (areas : List Area) (n block : Nat) : Decidable (FreeBlock areas n block) :=
  inferInstanceAs (Decidable (_ ∧ _))

namespace Arena.Stores

variable {s : Arena} {areas : List Area} {a b : Area}

/-- Different areas are apart. -/
theorem apart_of_ne (h : s.Stores areas) (ha : a ∈ areas) (hb : b ∈ areas) (hne : a ≠ b) :
    a.Apart b :=
  h.apart.forall ha hb hne

/-- A pointer names one area. -/
theorem eq_of_ptr (h : s.Stores areas) (ha : a ∈ areas) (hb : b ∈ areas)
    (hptr : a.ptr = b.ptr) : a = b := by
  by_contra hne
  exact (h.apart_of_ne ha hb hne).ptr_ne (h.fits a ha) (h.fits b hb) hptr

theorem find_ptr (h : s.Stores areas) (ha : a ∈ areas) :
    areas.find? (fun b => b.ptr = a.ptr) = some a := by
  cases hfind : areas.find? (fun b => b.ptr = a.ptr) with
  | none =>
      rw [List.find?_eq_none] at hfind
      exact absurd (by simp) (hfind a ha)
  | some b =>
      have hb := List.mem_of_find?_eq_some hfind
      have hptr : b.ptr = a.ptr := by simpa using List.find?_some hfind
      rw [h.eq_of_ptr hb ha hptr]

/-- The node of an area is in the list once. -/
theorem node_notMem {ys zs : List Area} (h : s.Stores (ys ++ a :: zs)) :
    ∀ b ∈ ys ++ zs, b.info ≠ a.info := by
  intro b hb hinfo
  have hmem : b ∈ ys ++ a :: zs := by
    simp only [List.mem_append, List.mem_cons] at hb ⊢
    tauto
  have hfits := h.fits b hmem
  have hfits' := h.fits a (by simp)
  have hapart : b.Apart a := by
    have hpair := h.apart
    rw [List.pairwise_append] at hpair
    obtain ⟨-, hright, hcross⟩ := hpair
    rcases List.mem_append.mp hb with hb | hb
    · exact hcross b hb a List.mem_cons_self
    · exact (List.rel_of_pairwise_cons hright hb).symm
  exact hapart.ptr_ne hfits hfits' ((hfits.info_inj hfits').mp hinfo)

end Arena.Stores

/-! ## The functions on areas -/

/-- `_test_malloc`. -/
def mallocAreas (size block : Nat) (areas : List Area) : Option Nat × List Area :=
  if size + 112 < 2 ^ 64 ∧ block ≠ 0 then
    (some (Area.allocated size block).ptr, areas ++ [Area.allocated size block])
  else (none, areas)

/-- Change the area at a pointer. -/
def modifyArea (ptr : Nat) (f : Area → Area) (areas : List Area) : List Area :=
  areas.map fun a => if a.ptr = ptr then f a else a

/-- `_test_calloc`: the product is a `size_t`. -/
def callocAreas (numberOfElements size block : Nat) (areas : List Area) :
    Option Nat × List Area :=
  match mallocAreas (sizeT (numberOfElements * size)) block areas with
  | (none, areas) => (none, areas)
  | (some ptr, areas) =>
      (some ptr, modifyArea ptr
        (fun a => { a with data := List.replicate (sizeT (numberOfElements * size)) 0 }) areas)

/-- `_test_free`. -/
def freeAreas (ptr : Nat) (areas : List Area) : Option (Bool × List Area) :=
  if ptr = 0 then some (true, areas)
  else do
    let a ← areas.find? fun a => a.ptr = ptr
    if a.Intact then return (true, areas.filter fun b => b.ptr ≠ ptr) else return (false, areas)

/-- `_test_realloc`: the new area gets as much of the old one as fits in it. -/
def reallocAreas (ptr size block : Nat) (areas : List Area) : Option (Option Nat × List Area) :=
  if ptr = 0 then some (mallocAreas size block areas)
  else if size = 0 then do
    let (returns, areas) ← freeAreas ptr areas
    return (if returns then some 0 else none, areas)
  else do
    let a ← areas.find? fun a => a.ptr = ptr
    match mallocAreas size block areas with
    | (none, areas) => return (none, areas)
    | (some newBlock, areas) =>
        let areas := modifyArea newBlock
          (fun b => { b with data := a.data.take size ++ b.data.drop a.size }) areas
        let (returns, areas) ← freeAreas ptr areas
        return (if returns then some newBlock else none, areas)

/-- An offset in an area or its guards. -/
def Area.InReach (a : Area) (offset : Int) : Prop :=
  -(mallocGuardSize : Int) ≤ offset ∧ offset < a.size + mallocGuardSize

instance (a : Area) (offset : Int) : Decidable (a.InReach offset) :=
  inferInstanceAs (Decidable (_ ∧ _))

/-- `ptr[offset]`. -/
def Area.get (a : Area) (offset : Int) : Option UInt8 :=
  if offset < 0 then a.front[(offset + mallocGuardSize).toNat]?
  else if offset < a.size then a.data[offset.toNat]?
  else a.back[(offset - a.size).toNat]?

/-- `ptr[offset] = v`. -/
def Area.set (a : Area) (offset : Int) (v : UInt8) : Area :=
  if offset < 0 then { a with front := a.front.set (offset + mallocGuardSize).toNat v }
  else if offset < a.size then { a with data := a.data.set offset.toNat v }
  else { a with back := a.back.set (offset - a.size).toNat v }

def readAreas (ptr : Nat) (offset : Int) (areas : List Area) : Option UInt8 := do
  let a ← areas.find? fun a => a.ptr = ptr
  if a.InReach offset then a.get offset else none

def writeAreas (ptr : Nat) (offset : Int) (v : UInt8) (areas : List Area) :
    Option (List Area) := do
  let a ← areas.find? fun a => a.ptr = ptr
  if a.InReach offset then return modifyArea ptr (fun a => a.set offset v) areas else none

/-! ## Allocating -/

section Malloc

variable {s : Arena} {areas : List Area}

/-- `list_add` of a node that is none of the list's. -/
theorem listAdd_nodes {A V : Type} [DecidableEq A] {σ : Heap A V} {head a value : A}
    {items : List (Item A)} {node : ListNode A} (h : Nodes σ head items)
    (ha : σ.nodeAt a = some node) (hvalue : node.value = some value)
    (hfresh : a ∉ head :: items.map Item.node) :
    ∃ τ, listAdd σ head a = some τ ∧ Nodes τ head (items ++ [⟨a, value, node.refcount⟩]) ∧
      ∀ b, τ.block b = none ↔ σ.block b = none := by
  obtain ⟨τ, hrun, hrel, hring⟩ := listAdd_spec h ha hfresh
  refine ⟨τ, hrun, ⟨by simpa using hring, ?_⟩, hrel.live⟩
  intro i hi
  rw [hrel.contents]
  rcases List.mem_append.mp hi with hi | hi
  · exact h.contents i hi
  · rw [List.mem_singleton.mp hi, Heap.contents, ha, Option.map_some, hvalue]

/-- An assertion stops a size that wraps around. -/
theorem allocateSize_gt_iff (size : Nat) :
    sizeT (size + mallocGuardSize * 2 + mallocBlockInfoSize + mallocAlignment) > size ↔
      size + 112 < 2 ^ 64 := by
  show (size + 112) % 2 ^ 64 > size ↔ _
  omega

/-- The writes of `_test_malloc` before the node is put in the list. -/
def Arena.lay (a : Area) (s : Arena) : Arena :=
  (((s.memset (a.ptr - mallocGuardSize) mallocGuardPattern mallocGuardSize).memset
    (a.ptr + a.size) mallocGuardPattern mallocGuardSize).memset
    a.ptr mallocAllocPattern a.size).putInfo a.info a.infoData

/-- The three ranges that are filled do not overlap. -/
theorem Arena.lay_stored {a : Area} (s : Arena) {size block : Nat}
    (ha : a = Area.allocated size block) (hfits : a.Fits) : a.Stored (s.lay a).byte := by
  have hlayout := hfits.layout
  have hfront : a.front = List.replicate mallocGuardSize mallocGuardPattern := by rw [ha]; rfl
  have hdata : a.data = List.replicate a.size mallocAllocPattern := by
    rw [ha, Area.allocated_size]; rfl
  have hback : a.back = List.replicate mallocGuardSize mallocGuardPattern := by rw [ha]; rfl
  unfold Arena.lay Arena.memset Arena.putInfo
  unfold mallocGuardSize at hlayout
  constructor
  · rw [FlatMemory.slice_fill_apart _ _ (by unfold mallocGuardSize; omega),
      FlatMemory.slice_fill_apart _ _ (by unfold mallocGuardSize; omega),
      FlatMemory.slice_fill _ _ (Nat.le_refl _) (Nat.le_refl _), hfront]
  · rw [FlatMemory.slice_fill _ _ (Nat.le_refl _) (Nat.le_refl _), hdata]
  · rw [FlatMemory.slice_fill_apart _ _ (by omega),
      FlatMemory.slice_fill _ _ (Nat.le_refl _) (Nat.le_refl _), hback]

/-- Outside the block nothing is written. -/
theorem Arena.lay_byte {a : Area} (s : Arena) (hfits : a.Fits) {x : Nat}
    (hx : x < a.block ∨ a.block + a.allocatedSize ≤ x) : (s.lay a).byte x = s.byte x := by
  have hlayout := hfits.layout
  unfold Arena.lay Arena.memset Arena.putInfo FlatMemory.fill
  unfold mallocGuardSize at hlayout ⊢
  simp only
  rw [if_neg (by omega), if_neg (by omega), if_neg (by omega)]

/-- A new area is stored where nothing else is. -/
theorem Arena.Stores.lay_spec (h : s.Stores areas) {size block : Nat} {a : Area}
    (ha : a = Area.allocated size block) (hfits : a.Fits) (hapart : ∀ b ∈ areas, b.Apart a) :
    ∃ nodes, listAdd (s.lay a).nodes none (some a.info) = some nodes ∧
      Arena.Stores { s.lay a with nodes := nodes } (areas ++ [a]) := by
  have hinfo : ∀ b ∈ areas, b.info ≠ a.info := by
    intro b hb heq
    exact (hapart b hb).ptr_ne (h.fits b hb) hfits (((h.fits b hb).info_inj hfits).mp heq)
  have hfresh : some a.info ∉ none :: (areas.map Area.item).map Item.node := by
    simpa [Area.item] using hinfo
  have hnodes : Nodes (s.lay a).nodes none (areas.map Area.item) := by
    refine h.nodes.frame fun b hb => Heap.nodeAt_congr (s.nodes.put_block_ne _ ?_)
    rintro rfl
    exact hfresh hb
  obtain ⟨nodes, hrun, hnodes', hlive⟩ := listAdd_nodes hnodes
    (show (s.lay a).nodes.nodeAt (some a.info) = some _ by
      rw [Heap.nodeAt]
      show (Heap.block (s.nodes.put _ _) _).bind _ = _
      rw [Heap.put_block_self]
      rfl) rfl hfresh
  refine ⟨nodes, hrun, ?_⟩
  constructor
  case nodes =>
    rw [List.map_append]
    exact hnodes'
  case info =>
    intro b hb
    show Function.update s.info a.info (some a.infoData) b.info = _
    rcases List.mem_append.mp hb with hb | hb
    · rw [Function.update_of_ne (hinfo b hb), h.info b hb]
    · rw [List.mem_singleton.mp hb, Function.update_self]
  case fits =>
    intro b hb
    rcases List.mem_append.mp hb with hb | hb
    · exact h.fits b hb
    · rwa [List.mem_singleton.mp hb]
  case apart =>
    rw [List.pairwise_append]
    refine ⟨h.apart, List.pairwise_singleton _ _, ?_⟩
    intro b hb c hc
    rw [List.mem_singleton.mp hc]
    exact hapart b hb
  case stored =>
    intro b hb
    rcases List.mem_append.mp hb with hb | hb
    · refine (h.stored b hb).frame (h.fits b hb) fun x hx hxn => s.lay_byte hfits ?_
      have := hapart b hb
      unfold Area.Apart at this
      omega
    · rw [List.mem_singleton.mp hb]
      exact s.lay_stored ha hfits
  case dead =>
    intro i hi
    have hne : some i ≠ some a.info := by
      rintro heq
      exact hi a (by simp) (Option.some.inj heq).symm
    rw [hlive]
    show (s.nodes.put _ _).block _ = none
    rw [s.nodes.put_block_ne _ hne]
    exact h.dead i fun b hb => hi b (by simp [hb])

/-- A block that is free is apart from all others. -/
theorem FreeBlock.apart {size block : Nat} (h : FreeBlock areas (size + 112) block) :
    ∀ b ∈ areas, b.Apart (Area.allocated size block) := by
  intro b hb
  have hfree := h.2 b hb
  unfold Area.Apart
  rw [Area.allocatedSize_eq (a := Area.allocated size block), Area.allocated_size]
  show _ ≤ block ∨ block + _ ≤ _
  omega

theorem FreeBlock.fits {size block : Nat} (h : FreeBlock areas (size + 112) block)
    (hnull : block ≠ 0) : (Area.allocated size block).Fits where
  notNull := Nat.pos_of_ne_zero hnull
  bound := by
    rw [Area.allocatedSize_eq, Area.allocated_size]
    exact h.1

/-- `_test_malloc` with a size that does not wrap around and a block. -/
theorem testMalloc_eq (s : Arena) {size block : Nat} (hsize : size + 112 < 2 ^ 64)
    (hnull : block ≠ 0) : testMalloc size block s = do
      let nodes ← listAdd (s.lay (Area.allocated size block)).nodes none
        (some (Area.allocated size block).info)
      return (some (Area.allocated size block).ptr,
        { s.lay (Area.allocated size block) with nodes := nodes }) := by
  have hsizeT : sizeT (size + mallocGuardSize * 2 + mallocBlockInfoSize + mallocAlignment) =
      size + 112 := Nat.mod_eq_of_lt hsize
  have hgt : size + 112 > size := by omega
  unfold testMalloc Arena.lay Area.infoData
  rw [Area.allocatedSize_eq, Area.allocated_size, hsizeT]
  simp only [hgt, not_true_eq_false, if_false, if_neg hnull]
  rfl

/-- `_test_malloc` gives an area of its own, unless the size wraps around or there
is no memory. -/
theorem Arena.Stores.testMalloc_spec (h : s.Stores areas) (size block : Nat)
    (hfree : size + 112 < 2 ^ 64 → block ≠ 0 → FreeBlock areas (size + 112) block) :
    ∃ s', testMalloc size block s = some ((mallocAreas size block areas).1, s') ∧
      s'.Stores (mallocAreas size block areas).2 := by
  have hwrap := allocateSize_gt_iff size
  by_cases hsize : size + 112 < 2 ^ 64
  · by_cases hnull : block = 0
    · have hareas : mallocAreas size block areas = (none, areas) :=
        if_neg fun hok => hok.2 hnull
      refine ⟨s, ?_, by rw [hareas]; exact h⟩
      rw [hareas]
      unfold testMalloc
      dsimp only
      rw [if_neg (not_not_intro (hwrap.mpr hsize)), if_pos hnull]
      rfl
    · have hfree := hfree hsize hnull
      obtain ⟨nodes, hrun, hstores⟩ := h.lay_spec rfl (hfree.fits hnull) hfree.apart
      have hareas : mallocAreas size block areas =
          (some (Area.allocated size block).ptr, areas ++ [Area.allocated size block]) :=
        if_pos ⟨hsize, hnull⟩
      refine ⟨_, ?_, by rw [hareas]; exact hstores⟩
      rw [hareas, testMalloc_eq s hsize hnull, hrun]
      rfl
  · have hareas : mallocAreas size block areas = (none, areas) :=
      if_neg fun hok => hsize hok.1
    refine ⟨s, ?_, by rw [hareas]; exact h⟩
    rw [hareas]
    unfold testMalloc
    exact if_pos fun hgt => hsize (hwrap.mp hgt)

end Malloc

/-! ## Freeing -/

section Free

variable {s : Arena} {areas : List Area} {a : Area}

/-- The guards are read as they are stored. -/
theorem Area.Stored.guardBytes {m : FlatMemory UInt8} (h : a.Stored m) :
    (guardBytes a.ptr a.size).map m = a.front ++ a.back := by
  rw [← h.front, ← h.back, Cmocka.guardBytes, List.map_append, List.map_map, List.map_map]
  rfl

/-- The check of the guards. -/
theorem Area.Stored.guardCheck {m : FlatMemory UInt8} (h : a.Stored m) :
    (Cmocka.guardBytes a.ptr a.size).any (fun x => m x ≠ mallocGuardPattern) = true ↔
      ¬ a.Intact := by
  unfold Area.Intact
  rw [← h.guardBytes, List.any_eq_true]
  simp only [List.mem_map]
  push Not
  constructor
  · rintro ⟨x, hx, hne⟩
    exact ⟨m x, ⟨x, hx, rfl⟩, by simpa using hne⟩
  · rintro ⟨v, ⟨x, hx, rfl⟩, hne⟩
    exact ⟨x, hx, by simpa using hne⟩

/-- Freeing takes the area out and leaves the others. -/
theorem Arena.Stores.remove {ys zs : List Area} (h : s.Stores (ys ++ a :: zs)) :
    ∃ nodes, listRemove s.nodes (some a.info) none = some nodes ∧
      (({ s with nodes := nodes } : Arena).memset a.block mallocFreePattern
        a.allocatedSize |>.freeBlock a.info).Stores (ys ++ zs) := by
  have hsub : ∀ b ∈ ys ++ zs, b ∈ ys ++ a :: zs := by
    intro b hb
    simp only [List.mem_append, List.mem_cons] at hb ⊢
    tauto
  have hne := h.node_notMem
  have hnodes := h.nodes
  rw [List.map_append, List.map_cons] at hnodes
  obtain ⟨nodes, hrun, hnodes', hrel⟩ := unlink_spec hnodes
  have hremove : listRemove s.nodes (some a.info) none = some nodes := by
    rw [listRemove, show unlink s.nodes (some a.info) = some nodes from hrun]
    rfl
  refine ⟨nodes, hremove, ?_⟩
  constructor
  case nodes =>
    rw [← List.map_append] at hnodes'
    refine hnodes'.frame fun c hc => Heap.nodeAt_congr (nodes.put_block_ne none ?_)
    rintro rfl
    simp only [Area.item, List.map_map, List.mem_cons, reduceCtorEq, List.mem_map,
      Function.comp_apply, Option.some.injEq, false_or] at hc
    obtain ⟨b, hb, heq⟩ := hc
    exact hne b hb heq
  case info =>
    intro b hb
    show Function.update s.info a.info none b.info = _
    rw [Function.update_of_ne (hne b hb)]
    exact h.info b (hsub b hb)
  case fits => exact fun b hb => h.fits b (hsub b hb)
  case apart =>
    refine h.apart.sublist ?_
    exact List.Sublist.append (List.Sublist.refl ys) (List.sublist_cons_self a zs)
  case stored =>
    intro b hb
    refine (h.stored b (hsub b hb)).frame (h.fits b (hsub b hb)) fun x hx hxn => ?_
    have hapart := h.apart_of_ne (hsub b hb) (by simp) (by rintro rfl; exact hne b hb rfl) (b := a)
    unfold Area.Apart at hapart
    show s.byte.fill a.block a.allocatedSize mallocFreePattern x = s.byte x
    rw [FlatMemory.fill, if_neg (by omega)]
  case dead =>
    intro i hi
    show (nodes.put (some a.info) none).block (some i) = none
    by_cases heq : i = a.info
    · rw [heq, Heap.put_block_self]
    · rw [nodes.put_block_ne none (by simpa using heq), hrel.live]
      refine h.dead i fun b hb => ?_
      simp only [List.mem_append, List.mem_cons] at hb
      rcases hb with hb | rfl | hb
      · exact hi b (List.mem_append_left _ hb)
      · exact Ne.symm heq
      · exact hi b (List.mem_append_right _ hb)

/-- Removing by pointer takes out one area. -/
theorem Arena.Stores.filter_ptr {ys zs : List Area} (h : s.Stores (ys ++ a :: zs)) :
    (ys ++ a :: zs).filter (fun b => b.ptr ≠ a.ptr) = ys ++ zs := by
  have hkeep : ∀ b ∈ ys ++ zs, b.ptr ≠ a.ptr := by
    intro b hb hptr
    exact h.node_notMem b hb (congrArg infoOf hptr)
  rw [List.filter_append, List.filter_cons_of_neg (by simp), ← List.filter_append,
    List.filter_eq_self]
  intro b hb
  simpa using hkeep b hb

/-- `_test_free` of an area returns when its guards are intact. -/
theorem Arena.Stores.testFree_spec (h : s.Stores areas) {ptr : Nat} {returns : Bool}
    {areas' : List Area} (hareas : freeAreas ptr areas = some (returns, areas')) :
    ∃ s', testFree ptr s = some (returns, s') ∧ s'.Stores areas' := by
  unfold freeAreas at hareas
  by_cases hnull : ptr = 0
  · rw [if_pos hnull, Option.some.injEq, Prod.mk.injEq] at hareas
    obtain ⟨rfl, rfl⟩ := hareas
    exact ⟨s, if_pos hnull, h⟩
  · rw [if_neg hnull] at hareas
    obtain ⟨a, hfind, hareas⟩ := Option.bind_eq_some_iff.mp hareas
    have ha := List.mem_of_find?_eq_some hfind
    have hptr : a.ptr = ptr := by simpa using List.find?_some hfind
    subst hptr
    have hcheck : (guardBytes a.ptr a.infoData.size).any
        (fun x => s.byte x ≠ mallocGuardPattern) = true ↔ ¬ a.Intact :=
      (h.stored a ha).guardCheck
    have hinfo : s.info (infoOf a.ptr) = some a.infoData := h.info a ha
    unfold testFree
    rw [if_neg hnull, hinfo]
    by_cases hintact : a.Intact
    · rw [if_pos hintact] at hareas
      cases hareas
      obtain ⟨ys, zs, rfl⟩ := List.append_of_mem ha
      obtain ⟨nodes, hremove, hstores⟩ := h.remove
      have hpass := fun hbad => hcheck.mp hbad hintact
      refine ⟨_, ?_, by rw [h.filter_ptr]; exact hstores⟩
      rw [Option.bind_eq_bind, Option.bind_some, if_neg hpass,
        show listRemove s.nodes (some (infoOf a.ptr)) none = some nodes from hremove]
      rfl
    · rw [if_neg hintact] at hareas
      cases hareas
      refine ⟨s, ?_, h⟩
      rw [Option.bind_eq_bind, Option.bind_some, if_pos (hcheck.mpr hintact)]
      rfl

end Free

/-! ## Writing an area -/

section Modify

variable {s : Arena} {areas : List Area} {a b : Area}

/-- The areas after a change are the changed one and the others. -/
theorem Arena.Stores.mem_modifyArea (h : s.Stores areas) (ha : a ∈ areas) (f : Area → Area) :
    b ∈ modifyArea a.ptr f areas → b = f a ∨ b ∈ areas ∧ b ≠ a := by
  intro hb
  obtain ⟨c, hc, rfl⟩ := List.mem_map.mp hb
  by_cases hptr : c.ptr = a.ptr
  · rw [h.eq_of_ptr hc ha hptr, if_pos rfl]
    exact Or.inl rfl
  · rw [if_neg hptr]
    refine Or.inr ⟨hc, ?_⟩
    rintro rfl
    exact hptr rfl

/-- A write inside the block of one area changes that area only. -/
theorem Arena.Stores.modify (h : s.Stores areas) (ha : a ∈ areas) {f : Area → Area}
    {m : FlatMemory UInt8} (hblock : (f a).block = a.block) (hsize : (f a).size = a.size)
    (hagree : ∀ x, x < a.block ∨ a.block + a.allocatedSize ≤ x → m x = s.byte x)
    (hstored : (f a).Stored m) :
    Arena.Stores { s with byte := m } (modifyArea a.ptr f areas) := by
  have hinfo : (f a).info = a.info := by rw [Area.info, Area.ptr, hblock]; rfl
  have hdata : (f a).infoData = a.infoData := by
    rw [Area.infoData, Area.allocatedSize, hblock, hsize]
    rfl
  have hallocated : (f a).allocatedSize = a.allocatedSize := by
    rw [Area.allocatedSize, hsize]
    rfl
  constructor
  case nodes =>
    have hitems : (modifyArea a.ptr f areas).map Area.item = areas.map Area.item := by
      rw [modifyArea, List.map_map]
      refine List.map_congr_left fun b hb => ?_
      show Area.item (if b.ptr = a.ptr then f b else b) = b.item
      split
      · rename_i hptr
        rw [h.eq_of_ptr hb ha hptr, Area.item, hinfo]
        rfl
      · rfl
    rw [hitems]
    exact h.nodes
  case info =>
    intro b hb
    rcases h.mem_modifyArea ha f hb with rfl | ⟨hb, -⟩
    · rw [hinfo, hdata]
      exact h.info a ha
    · exact h.info b hb
  case fits =>
    intro b hb
    rcases h.mem_modifyArea ha f hb with rfl | ⟨hb, -⟩
    · exact ⟨hblock ▸ (h.fits a ha).notNull, by
        rw [hblock, hallocated]; exact (h.fits a ha).bound⟩
    · exact h.fits b hb
  case apart =>
    rw [modifyArea, List.pairwise_map]
    refine h.apart.imp_of_mem fun {c d} hc hd hcd => ?_
    have hsame : ∀ e ∈ areas, (if e.ptr = a.ptr then f e else e).block = e.block ∧
        (if e.ptr = a.ptr then f e else e).allocatedSize = e.allocatedSize := by
      intro e he
      split
      · rename_i hptr
        rw [h.eq_of_ptr he ha hptr]
        exact ⟨hblock, hallocated⟩
      · exact ⟨rfl, rfl⟩
    unfold Area.Apart at hcd ⊢
    rw [(hsame c hc).1, (hsame c hc).2, (hsame d hd).1, (hsame d hd).2]
    exact hcd
  case stored =>
    intro b hb
    rcases h.mem_modifyArea ha f hb with rfl | ⟨hb, hne⟩
    · exact hstored
    · refine (h.stored b hb).frame (h.fits b hb) fun x hx hxn => hagree x ?_
      have hapart := h.apart_of_ne hb ha hne
      unfold Area.Apart at hapart
      omega
  case dead =>
    intro i hi
    refine h.dead i fun b hb heq => ?_
    by_cases hptr : b.ptr = a.ptr
    · rw [h.eq_of_ptr hb ha hptr] at heq
      exact hi (f a) (List.mem_map.mpr ⟨a, ha, if_pos rfl⟩) (hinfo.trans heq)
    · exact hi b (List.mem_map.mpr ⟨b, hb, if_neg hptr⟩) heq

/-- Reading an area. -/
theorem Arena.Stores.readByte_spec (h : s.Stores areas) {ptr : Nat} {offset : Int} {v : UInt8}
    (hareas : readAreas ptr offset areas = some v) : readByte ptr offset s = some v := by
  obtain ⟨a, hfind, hget⟩ := Option.bind_eq_some_iff.mp hareas
  have ha := List.mem_of_find?_eq_some hfind
  have hptr : a.ptr = ptr := by simpa using List.find?_some hfind
  subst hptr
  split at hget
  case isFalse => cases hget
  case isTrue hreach =>
    have hinfo : s.info (infoOf a.ptr) = some a.infoData := h.info a ha
    have hstored := h.stored a ha
    have hlayout := (h.fits a ha).layout
    obtain ⟨hlow, hhigh⟩ := hreach
    have hcell : cellOf a.ptr offset s = some (a.ptr + offset).toNat := by
      rw [cellOf, hinfo]
      exact if_pos ⟨hlow, hhigh⟩
    rw [readByte, hcell]
    show some (s.byte (a.ptr + offset).toNat) = some v
    unfold mallocGuardSize at hlow hhigh
    unfold Area.get at hget
    split at hget
    · rw [← hstored.front] at hget
      rw [FlatMemory.slice_getElem? _ (by unfold mallocGuardSize; omega)] at hget
      rw [← hget]
      congr 2
      unfold mallocGuardSize
      omega
    · split at hget
      · rw [← hstored.data, FlatMemory.slice_getElem? _ (by omega)] at hget
        rw [← hget]
        congr 2
        omega
      · rw [← hstored.back, FlatMemory.slice_getElem? _ (by unfold mallocGuardSize; omega)] at hget
        rw [← hget]
        congr 2
        omega

/-- A byte written at an offset is set there. -/
theorem Area.Stored.set {m : FlatMemory UInt8} {offset : Int} (h : a.Stored m) (hfits : a.Fits)
    (hreach : a.InReach offset) (v : UInt8) :
    (a.set offset v).Stored (Function.update m (a.ptr + offset).toNat v) := by
  have hlayout := hfits.layout
  obtain ⟨hlow, hhigh⟩ := hreach
  unfold mallocGuardSize at hlow hhigh hlayout
  have hg : mallocGuardSize = 16 := rfl
  unfold Area.set
  split
  · constructor
    · show FlatMemory.slice _ (a.ptr - _) _ = a.front.set _ v
      rw [FlatMemory.slice_update _ v (by omega), h.front]
      congr 1
      omega
    · show FlatMemory.slice _ a.ptr a.size = a.data
      rw [FlatMemory.slice_update_apart _ v (by omega), h.data]
    · show FlatMemory.slice _ (a.ptr + a.size) _ = a.back
      rw [FlatMemory.slice_update_apart _ v (by omega), h.back]
  · split
    · have hsize : Area.size { a with data := a.data.set offset.toNat v } = a.size :=
        List.length_set
      constructor
      · show FlatMemory.slice _ (a.ptr - _) _ = a.front
        rw [FlatMemory.slice_update_apart _ v (by omega), h.front]
      · rw [hsize]
        show FlatMemory.slice _ a.ptr a.size = a.data.set _ v
        rw [FlatMemory.slice_update _ v (by omega), h.data]
        congr 1
        omega
      · rw [hsize]
        show FlatMemory.slice _ (a.ptr + a.size) _ = a.back
        rw [FlatMemory.slice_update_apart _ v (by omega), h.back]
    · constructor
      · show FlatMemory.slice _ (a.ptr - _) _ = a.front
        rw [FlatMemory.slice_update_apart _ v (by omega), h.front]
      · show FlatMemory.slice _ a.ptr a.size = a.data
        rw [FlatMemory.slice_update_apart _ v (by omega), h.data]
      · show FlatMemory.slice _ (a.ptr + a.size) _ = a.back.set _ v
        rw [FlatMemory.slice_update _ v (by omega), h.back]
        congr 1
        omega

@[simp] theorem Area.set_block (offset : Int) (v : UInt8) : (a.set offset v).block = a.block := by
  unfold Area.set
  split
  · rfl
  · split <;> rfl

@[simp] theorem Area.set_size (offset : Int) (v : UInt8) : (a.set offset v).size = a.size := by
  unfold Area.set
  split
  · rfl
  · split
    · exact List.length_set
    · rfl

/-- Writing an area. -/
theorem Arena.Stores.writeByte_spec (h : s.Stores areas) {ptr : Nat} {offset : Int} {v : UInt8}
    {areas' : List Area} (hareas : writeAreas ptr offset v areas = some areas') :
    ∃ s', writeByte ptr offset v s = some s' ∧ s'.Stores areas' := by
  obtain ⟨a, hfind, hset⟩ := Option.bind_eq_some_iff.mp hareas
  have ha := List.mem_of_find?_eq_some hfind
  have hptr : a.ptr = ptr := by simpa using List.find?_some hfind
  subst hptr
  split at hset
  case isFalse => cases hset
  case isTrue hreach =>
    cases hset
    have hinfo : s.info (infoOf a.ptr) = some a.infoData := h.info a ha
    have hlayout := (h.fits a ha).layout
    have hcell : cellOf a.ptr offset s = some (a.ptr + offset).toNat := by
      rw [cellOf, hinfo]
      exact if_pos hreach
    refine ⟨{ s with byte := Function.update s.byte (a.ptr + offset).toNat v }, ?_, ?_⟩
    · rw [writeByte, hcell]
      rfl
    · refine h.modify ha (Area.set_block offset v) (Area.set_size offset v) ?_
        ((h.stored a ha).set (h.fits a ha) hreach v)
      intro x hx
      obtain ⟨hlow, hhigh⟩ := hreach
      unfold mallocGuardSize at hlow hhigh hlayout
      rw [Function.update_of_ne]
      omega

/-- `_test_calloc` fills the area with zeros. -/
theorem Arena.Stores.testCalloc_spec (h : s.Stores areas) (numberOfElements size block : Nat)
    (hfree : sizeT (numberOfElements * size) + 112 < 2 ^ 64 → block ≠ 0 →
      FreeBlock areas (sizeT (numberOfElements * size) + 112) block) :
    ∃ s', testCalloc numberOfElements size block s =
        some ((callocAreas numberOfElements size block areas).1, s') ∧
      s'.Stores (callocAreas numberOfElements size block areas).2 := by
  obtain ⟨s₁, hrun, h₁⟩ := h.testMalloc_spec (sizeT (numberOfElements * size)) block hfree
  unfold testCalloc callocAreas
  rw [hrun]
  by_cases hok : sizeT (numberOfElements * size) + 112 < 2 ^ 64 ∧ block ≠ 0
  · have hareas : mallocAreas (sizeT (numberOfElements * size)) block areas =
        (some (Area.allocated (sizeT (numberOfElements * size)) block).ptr,
          areas ++ [Area.allocated (sizeT (numberOfElements * size)) block]) := if_pos hok
    rw [hareas] at h₁ ⊢
    refine ⟨_, rfl, ?_⟩
    set a := Area.allocated (sizeT (numberOfElements * size)) block with ha
    have hmem : a ∈ areas ++ [a] := by simp
    have hlayout := (h₁.fits a hmem).layout
    have hsize : a.size = sizeT (numberOfElements * size) := Area.allocated_size _ _
    have hstored := h₁.stored a hmem
    have hzeros : Area.size { a with data := List.replicate (sizeT (numberOfElements * size)) 0 } =
        a.size := by
      rw [hsize]
      exact List.length_replicate
    unfold mallocGuardSize at hlayout
    refine h₁.modify hmem rfl hzeros ?_ ⟨?_, ?_, ?_⟩
    · intro x hx
      rw [FlatMemory.fill, if_neg (by omega)]
    · show FlatMemory.slice _ (a.ptr - _) _ = a.front
      rw [FlatMemory.slice_fill_apart _ _ (by unfold mallocGuardSize; omega), hstored.front]
    · rw [hzeros, hsize]
      exact FlatMemory.slice_fill _ _ (Nat.le_refl _) (Nat.le_refl _)
    · rw [hzeros]
      show FlatMemory.slice _ (a.ptr + a.size) _ = a.back
      rw [FlatMemory.slice_fill_apart _ _ (by omega), hstored.back]
  · have hareas : mallocAreas (sizeT (numberOfElements * size)) block areas = (none, areas) :=
      if_neg hok
    rw [hareas] at h₁ ⊢
    exact ⟨s₁, rfl, h₁⟩

/-- `memcpy` from one area into another. -/
theorem Arena.Stores.memcpy_spec (h : s.Stores areas) (ha : a ∈ areas) (hb : b ∈ areas)
    {size : Nat} (hbsize : b.size = size) :
    (s.memcpy b.ptr a.ptr (if a.size < size then a.size else size)).Stores
      (modifyArea b.ptr (fun b => { b with data := a.data.take size ++ b.data.drop a.size })
        areas) := by
  subst hbsize
  set n := if a.size < b.size then a.size else b.size with hn
  have hnle : n ≤ a.size ∧ n ≤ b.size := by
    rw [hn]
    split <;> omega
  have hlb := (h.fits b hb).layout
  have hla := h.stored a ha
  have hsb := h.stored b hb
  unfold mallocGuardSize at hlb
  have hsize : Area.size { b with data := a.data.take b.size ++ b.data.drop a.size } = b.size := by
    show (a.data.take b.size ++ b.data.drop a.size).length = b.size
    rw [List.length_append, List.length_take, List.length_drop]
    show min b.size a.size + (b.size - a.size) = b.size
    omega
  refine h.modify hb rfl hsize ?_ ⟨?_, ?_, ?_⟩
  · intro x hx
    rw [FlatMemory.copy, if_neg (by omega)]
  · show FlatMemory.slice _ (b.ptr - _) _ = b.front
    rw [FlatMemory.slice_copy_apart _ _ (by unfold mallocGuardSize; omega), hsb.front]
  · rw [hsize]
    show FlatMemory.slice _ b.ptr b.size = a.data.take b.size ++ b.data.drop a.size
    have hsplit : b.size = n + (b.size - n) := by omega
    have htake : a.data.take b.size = a.data.take n := by
      rw [hn]
      split
      · rw [List.take_of_length_le (by show a.size ≤ _; omega),
          List.take_of_length_le (by show a.size ≤ _; omega)]
      · rfl
    have hdrop : b.data.drop a.size = b.data.drop n := by
      rw [hn]
      split
      · rfl
      · rw [List.drop_of_length_le (by show b.size ≤ _; omega),
          List.drop_of_length_le (by show b.size ≤ _; omega)]
    rw [htake, hdrop, ← hla.data, ← hsb.data, FlatMemory.slice_take _ hnle.1,
      FlatMemory.slice_drop _ hnle.2]
    rw [show FlatMemory.slice _ b.ptr b.size = FlatMemory.slice _ b.ptr (n + (b.size - n)) by
      rw [← hsplit], FlatMemory.slice_add, FlatMemory.slice_copy,
      FlatMemory.slice_copy_apart _ _ (by omega)]
  · rw [hsize]
    show FlatMemory.slice _ (b.ptr + b.size) _ = b.back
    rw [FlatMemory.slice_copy_apart _ _ (by omega), hsb.back]

/-- `_test_realloc` moves an area. -/
theorem Arena.Stores.testRealloc_spec (h : s.Stores areas) {ptr size block : Nat}
    {result : Option Nat} {areas' : List Area}
    (hfree : size + 112 < 2 ^ 64 → block ≠ 0 → FreeBlock areas (size + 112) block)
    (hareas : reallocAreas ptr size block areas = some (result, areas')) :
    ∃ s', testRealloc ptr size block s = some (result, s') ∧ s'.Stores areas' := by
  unfold reallocAreas at hareas
  unfold testRealloc
  by_cases hnull : ptr = 0
  · rw [if_pos hnull, Option.some.injEq] at hareas
    obtain ⟨s', hrun, hstores⟩ := h.testMalloc_spec size block hfree
    rw [hareas] at hrun hstores
    exact ⟨s', by rw [if_pos hnull, hrun], hstores⟩
  · rw [if_neg hnull] at hareas ⊢
    by_cases hzero : size = 0
    · rw [if_pos hzero] at hareas ⊢
      obtain ⟨⟨returns, areas₁⟩, hfreed, hres⟩ := Option.bind_eq_some_iff.mp hareas
      cases hres
      obtain ⟨s', hrun, hstores⟩ := h.testFree_spec hfreed
      refine ⟨s', ?_, hstores⟩
      rw [hrun]
      rfl
    · rw [if_neg hzero] at hareas ⊢
      obtain ⟨a, hfind, hareas⟩ := Option.bind_eq_some_iff.mp hareas
      have ha := List.mem_of_find?_eq_some hfind
      have hptr : a.ptr = ptr := by simpa using List.find?_some hfind
      subst hptr
      obtain ⟨s₁, hrun, h₁⟩ := h.testMalloc_spec size block hfree
      rw [hrun]
      by_cases hok : size + 112 < 2 ^ 64 ∧ block ≠ 0
      · have hmalloc : mallocAreas size block areas =
            (some (Area.allocated size block).ptr, areas ++ [Area.allocated size block]) :=
          if_pos hok
        rw [hmalloc] at h₁ hareas ⊢
        obtain ⟨⟨returns, areas₂⟩, hfreed, hres⟩ := Option.bind_eq_some_iff.mp hareas
        cases hres
        have ha₁ : a ∈ areas ++ [Area.allocated size block] := by simp [ha]
        have hb₁ : Area.allocated size block ∈ areas ++ [Area.allocated size block] := by simp
        have h₂ := h₁.memcpy_spec ha₁ hb₁ (Area.allocated_size size block)
        obtain ⟨s', hrunFree, hstores⟩ := h₂.testFree_spec hfreed
        have hinfo : s₁.info (infoOf a.ptr) = some a.infoData := h₁.info a ha₁
        refine ⟨s', ?_, hstores⟩
        simp only [hinfo, Option.bind_eq_bind, Option.bind_some]
        show Option.bind (testFree a.ptr (s₁.memcpy _ a.ptr
          (if a.size < size then a.size else size))) _ = _
        rw [hrunFree]
        rfl
      · have hmalloc : mallocAreas size block areas = (none, areas) := if_neg hok
        rw [hmalloc] at h₁ hareas ⊢
        cases hareas
        exact ⟨s₁, rfl, h₁⟩

end Modify

/-! ## Leaks -/

section Leaks

variable {s : Arena} {areas before after : List Area} {a : Area}

/-- The nodes of the list, seen from the head or from a node. -/
theorem Arena.Stores.next (h : s.Stores (before ++ after)) :
    s.nodes.links.next (before.map Area.info).getLast? = some (after.map Area.info).head? := by
  have hhead : ∀ l : List Area,
      (l.map fun a => some a.info).headD none = (l.map Area.info).head? := by
    intro l
    cases l <;> rfl
  have hring := h.nodes.ring
  rw [List.map_map, show Item.node ∘ Area.item = fun a => some a.info from rfl,
    List.map_append] at hring
  rcases List.eq_nil_or_concat' before with rfl | ⟨ys, b, rfl⟩
  · have hnext := hring.next_head
    rw [List.map_nil, List.nil_append, hhead] at hnext
    exact hnext
  · rw [List.map_append, List.map_singleton, List.append_assoc] at hring
    have hnext := hring.linked_of_split.2.1
    rw [show List.append [] (after.map fun a => some a.info) = after.map fun a => some a.info
      from rfl, hhead] at hnext
    rw [List.map_append, List.map_singleton, List.getLast?_concat]
    exact hnext

/-- `check_point_allocated_blocks` is the newest area. -/
theorem Arena.Stores.checkPoint_spec (h : s.Stores areas) :
    checkPointAllocatedBlocks s = some (areas.map Area.info).getLast? := by
  have hprev := h.nodes.ring.prev_head
  unfold checkPointAllocatedBlocks
  rw [hprev]
  rcases List.eq_nil_or_concat' areas with rfl | ⟨ys, b, rfl⟩
  · rfl
  · simp [Area.item]

/-- A node of the list holds the address of its info and points to the next. -/
theorem Arena.Stores.nodeAt (h : s.Stores (before ++ a :: after)) :
    ∃ cell, s.nodes.nodeAt (some a.info) = some cell ∧ cell.value = some (some a.info) ∧
      cell.next = (after.map Area.info).head? := by
  have hcontents := h.nodes.contents a.item (List.mem_map_of_mem (by simp))
  obtain ⟨cell, hcell, hpair⟩ := Heap.nodeAt_of_contents hcontents
  refine ⟨cell, hcell, congrArg Prod.fst hpair, ?_⟩
  have hsplit : s.Stores (before ++ [a] ++ after) := by
    rw [List.append_assoc]
    exact h
  have hnext := hsplit.next
  rw [List.map_append, List.map_singleton, List.getLast?_concat] at hnext
  obtain ⟨cell', hcell', hcellNext⟩ := Heap.nodeAt_of_next hnext
  have hsame : cell' = cell := Option.some.inj (hcell'.symm.trans hcell)
  rw [← hsame, hcellNext]

/-- `display_allocated_blocks` counts the areas after the check point. -/
theorem Arena.Stores.displayLoop_spec : ∀ {after before : List Area} {fuel : Nat},
    s.Stores (before ++ after) → after.length < fuel →
      displayLoop s fuel (after.map Area.info).head? = some after.length
  | [], _, fuel + 1, _, _ => rfl
  | a :: after, before, fuel + 1, h, hfuel => by
      obtain ⟨cell, hcell, hvalue, hnext⟩ := h.nodeAt
      have hinfo := h.info a (by simp)
      have hrest : s.Stores ((before ++ [a]) ++ after) := by
        rw [List.append_assoc]
        exact h
      have hloop := displayLoop_spec hrest (Nat.lt_of_succ_lt_succ hfuel)
      show displayLoop s (fuel + 1) (some a.info) = some (after.length + 1)
      simp only [displayLoop, hcell, hvalue, hnext, hinfo, hloop, Option.bind_eq_bind,
        Option.bind_some, Option.pure_def]

/-- `free_allocated_blocks` frees them up to the first with a guard overwritten. -/
theorem Arena.Stores.freeLoop_spec : ∀ {after before : List Area} {s : Arena} {fuel : Nat},
    s.Stores (before ++ after) → after.length < fuel →
      ∃ s', freeLoop fuel (after.map Area.info).head? s =
          some (decide (∀ a ∈ after, a.Intact), s') ∧
        s'.Stores (before ++ after.dropWhile fun a => a.Intact)
  | [], _, s, fuel + 1, h, _ => ⟨s, by simp [freeLoop], h⟩
  | a :: after, before, s, fuel + 1, h, hfuel => by
      obtain ⟨cell, hcell, hvalue, hnext⟩ := h.nodeAt
      have ha : a ∈ before ++ a :: after := by simp
      have hlayout := (h.fits a ha).layout
      have hptr : a.info + mallocBlockInfoSize + mallocGuardSize = a.ptr := by
        unfold mallocBlockInfoSize mallocGuardSize
        omega
      have hpos := (h.fits a ha).ptr_pos
      have hfree : freeAreas a.ptr (before ++ a :: after) =
          some (if a.Intact then (true, before ++ after) else (false, before ++ a :: after)) := by
        rw [freeAreas, if_neg (Nat.ne_of_gt hpos), h.find_ptr ha, h.filter_ptr]
        split <;> simp_all
      show ∃ s', freeLoop (fuel + 1) (some a.info) s = _ ∧ _
      by_cases hintact : a.Intact
      · rw [if_pos hintact] at hfree
        obtain ⟨s₁, hrun, h₁⟩ := h.testFree_spec hfree
        obtain ⟨s', hloop, h'⟩ := freeLoop_spec h₁ (Nat.lt_of_succ_lt_succ hfuel)
        refine ⟨s', ?_, by rwa [List.dropWhile_cons_of_pos (by simpa using hintact)]⟩
        simp only [freeLoop, hcell, hvalue, hnext, hptr, hrun, hloop, Option.bind_eq_bind,
          Option.bind_some, if_true]
        simp [hintact]
      · rw [if_neg hintact] at hfree
        obtain ⟨s₁, hrun, h₁⟩ := h.testFree_spec hfree
        refine ⟨s₁, ?_, by rwa [List.dropWhile_cons_of_neg (by simpa using hintact)]⟩
        simp only [freeLoop, hcell, hvalue, hptr, hrun, Option.bind_eq_bind, Option.bind_some]
        simp [hintact]

/-- `fail_if_blocks_allocated` returns when no area was allocated since the check
point and is still in use. Otherwise the areas are freed, up to the first with a
guard overwritten. -/
theorem Arena.Stores.failIfBlocksAllocated_spec {fuel : Nat} (h : s.Stores (before ++ after))
    (hfuel : after.length < fuel) :
    ∃ s', failIfBlocksAllocated fuel (before.map Area.info).getLast? s =
        some (decide (after = []), s') ∧
      s'.Stores (before ++ after.dropWhile fun a => a.Intact) := by
  have hnext := h.next
  have hdisplay := h.displayLoop_spec hfuel
  obtain ⟨s', hfree, h'⟩ := h.freeLoop_spec hfuel
  cases hafter : after with
  | nil =>
      rw [hafter] at hnext hdisplay h
      refine ⟨s, ?_, h⟩
      simp only [failIfBlocksAllocated, displayAllocatedBlocks, hnext, hdisplay,
        Option.bind_eq_bind, Option.bind_some]
      rfl
  | cons a rest =>
      rw [hafter] at hnext hdisplay hfree h'
      refine ⟨s', ?_, h'⟩
      simp only [failIfBlocksAllocated, displayAllocatedBlocks, freeAllocatedBlocks, hnext,
        hdisplay, hfree, Option.bind_eq_bind, Option.bind_some]
      rfl

end Leaks

end TraceRecorderTests.Cmocka
