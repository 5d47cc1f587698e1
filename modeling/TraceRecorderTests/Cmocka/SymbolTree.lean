import Mathlib.Data.List.Count
import TraceRecorderTests.Cmocka.ListSpec
import TraceRecorderTests.Cmocka.SymbolMap

/-!
# Symbol maps as trees

`Tree` is what a symbol map consists of, block by block, and `Rep` says that the
heap has it at a head. `Tree.queue` forgets the blocks: it gives the values that
are queued under a list of symbol names, which is all the code is about. A tree
is `Tidy` when no symbol stands twice in a list and no list of a symbol is empty.
-/

namespace TraceRecorderTests.Cmocka

open Base

/-! ## Trees -/

/-- A node at the last level, and the value it points to. -/
structure Leaf (A V : Type) where
  node : A
  ptr : A
  value : V
  refcount : Int

/-- A node of an inner level, the `SymbolMapValue` it points to, and what the list
in there consists of. -/
structure Branch (A C : Type) where
  node : A
  block : A
  name : String
  child : C

/-- A symbol map of the given number of symbol names. -/
@[reducible] def Tree (A V : Type) : Nat → Type
  | 0 => List (Leaf A V)
  | n + 1 => List (Branch A (Tree A V n))

variable {A V : Type}

/-- The list node of a leaf. -/
def Leaf.item (e : Leaf A V) : Item A := ⟨e.node, e.ptr, e.refcount⟩

/-- The list node of a branch. -/
def Branch.item {C : Type} (e : Branch A C) : Item A := ⟨e.node, e.block, 1⟩

@[simp] theorem map_node_leaf_item (t : List (Leaf A V)) :
    (t.map Leaf.item).map Item.node = t.map Leaf.node :=
  List.map_map

@[simp] theorem map_node_branch_item {C : Type} (t : List (Branch A C)) :
    (t.map Branch.item).map Item.node = t.map Branch.node :=
  List.map_map

/-- The list nodes of the first level. -/
def Tree.items : (n : Nat) → Tree A V n → List (Item A)
  | 0, t => List.map Leaf.item t
  | _ + 1, t => List.map Branch.item t

/-- The blocks of a tree, its head excepted. -/
def Tree.blocks : (n : Nat) → Tree A V n → List A
  | 0, t => List.map Leaf.node t ++ List.map Leaf.ptr t
  | n + 1, t => List.map Branch.node t ++
      List.flatMap (fun e => e.block :: Tree.blocks n e.child) t

/-- The values queued under a list of symbol names, in the order they are
served, with their counts. -/
def Tree.queue : (n : Nat) → Tree A V n → List String → List (V × Int)
  | 0, t, [] => List.map (fun e => (e.value, e.refcount)) t
  | 0, _, _ :: _ => []
  | _ + 1, _, [] => []
  | n + 1, t, name :: rest =>
      match List.find? (fun e => e.name = name) t with
      | none => []
      | some e => Tree.queue n e.child rest

/-- No symbol twice, and none without values. -/
def Tree.Tidy : (n : Nat) → Tree A V n → Prop
  | 0, _ => True
  | n + 1, t => (List.map Branch.name t).Nodup ∧
      ∀ e ∈ (t : List (Branch A (Tree A V n))),
        Tree.items n e.child ≠ [] ∧ Tree.Tidy n e.child

/-- The heap has this symbol map at `head`. -/
def Rep (σ : Heap A V) : (n : Nat) → A → Tree A V n → Prop
  | 0, head, t => Nodes σ head (List.map Leaf.item t) ∧
      ∀ e ∈ (t : List (Leaf A V)), σ.valueAt e.ptr = some e.value
  | n + 1, head, t => Nodes σ head (List.map Branch.item t) ∧
      ∀ e ∈ (t : List (Branch A (Tree A V n))),
        σ.nameAt e.block = some e.name ∧ Rep σ n e.block e.child

/-! ## Blocks of a tree -/

section Blocks

variable {σ τ : Heap A V} {head : A} {n : Nat}

theorem Rep.nodes {t : Tree A V n} (h : Rep σ n head t) : Nodes σ head (Tree.items n t) := by
  cases n with
  | zero => exact h.1
  | succ n => exact h.1

/-- The list nodes of the first level are among the blocks. -/
theorem Tree.items_subset {t : Tree A V n} : ∀ b ∈ (t.items n).map Item.node, b ∈ t.blocks n := by
  intro b hb
  cases n with
  | zero => exact List.mem_append_left _ (map_node_leaf_item t ▸ hb)
  | succ n => exact List.mem_append_left _ (map_node_branch_item t ▸ hb)

/-- All blocks of a tree are in use. -/
theorem Rep.live {t : Tree A V n} (h : Rep σ n head t) :
    ∀ b ∈ head :: t.blocks n, σ.block b ≠ none := by
  induction n generalizing head with
  | zero =>
      intro b hb
      obtain ⟨hnodes, hvalues⟩ := h
      rcases List.mem_cons.mp hb with rfl | hb
      · obtain ⟨node, hnode, -⟩ := hnodes.exists_head
        exact Heap.block_ne_none hnode
      · rcases List.mem_append.mp hb with hb | hb
        · obtain ⟨e, he, rfl⟩ := List.mem_map.mp hb
          obtain ⟨node, hnode, -⟩ :=
            Heap.nodeAt_of_contents (hnodes.contents e.item (List.mem_map_of_mem he))
          exact Heap.block_ne_none hnode
        · obtain ⟨e, he, rfl⟩ := List.mem_map.mp hb
          intro hnone
          have hvalue := hvalues e he
          rw [Heap.valueAt, hnone] at hvalue
          cases hvalue
  | succ n ih =>
      intro b hb
      obtain ⟨hnodes, hchildren⟩ := h
      rcases List.mem_cons.mp hb with rfl | hb
      · obtain ⟨node, hnode, -⟩ := hnodes.exists_head
        exact Heap.block_ne_none hnode
      · rcases List.mem_append.mp hb with hb | hb
        · obtain ⟨e, he, rfl⟩ := List.mem_map.mp hb
          obtain ⟨node, hnode, -⟩ :=
            Heap.nodeAt_of_contents (hnodes.contents e.item (List.mem_map_of_mem he))
          exact Heap.block_ne_none hnode
        · obtain ⟨e, he, hb⟩ := List.mem_flatMap.mp hb
          exact ih (hchildren e he).2 b hb

/-- A tree depends on its own blocks only. -/
theorem Rep.frame {t : Tree A V n} (h : Rep σ n head t)
    (hagree : ∀ b ∈ head :: t.blocks n, τ.block b = σ.block b) : Rep τ n head t := by
  induction n generalizing head with
  | zero =>
      refine ⟨h.1.frame fun a ha => Heap.nodeAt_congr (hagree a ?_), ?_⟩
      · rcases List.mem_cons.mp ha with rfl | ha
        · exact List.mem_cons_self
        · exact List.mem_cons_of_mem _ (Tree.items_subset (n := 0) a ha)
      · intro e he
        rw [Heap.valueAt_congr (hagree e.ptr (List.mem_cons_of_mem _
          (List.mem_append_right _ (List.mem_map_of_mem he))))]
        exact h.2 e he
  | succ n ih =>
      refine ⟨h.1.frame fun a ha => Heap.nodeAt_congr (hagree a ?_), ?_⟩
      · rcases List.mem_cons.mp ha with rfl | ha
        · exact List.mem_cons_self
        · exact List.mem_cons_of_mem _ (Tree.items_subset (n := n + 1) a ha)
      · intro e he
        have hin : ∀ b ∈ e.block :: e.child.blocks n, τ.block b = σ.block b := fun b hb =>
          hagree b (List.mem_cons_of_mem _ (List.mem_append_right _
            (List.mem_flatMap.mpr ⟨e, he, hb⟩)))
        rw [Heap.nameAt_congr (hin e.block List.mem_cons_self)]
        exact ⟨(h.2 e he).1, ih (h.2 e he).2 hin⟩

/-! ## Changing one branch -/

/-- The blocks of a tree beside those of one symbol. -/
def Tree.others (n : Nat) (ys : List (Branch A (Tree A V n))) (e : Branch A (Tree A V n))
    (zs : List (Branch A (Tree A V n))) : List A :=
  ys.map Branch.node ++ e.node :: zs.map Branch.node ++
    (ys ++ zs).flatMap fun e => e.block :: e.child.blocks n

theorem Tree.blocks_perm [DecidableEq A] (ys zs : List (Branch A (Tree A V n)))
    (e : Branch A (Tree A V n)) :
    (Tree.blocks (n + 1) (ys ++ e :: zs)).Perm
      ((e.block :: e.child.blocks n) ++ Tree.others n ys e zs) := by
  rw [List.perm_iff_count]
  intro a
  simp only [Tree.blocks, Tree.others, List.map_append, List.map_cons, List.flatMap_append,
    List.flatMap_cons, List.count_append, List.count_cons]
  omega

/-- What happens in the list of one symbol happens in the map: the other symbols
keep their blocks. -/
theorem Rep.replaceChild [DecidableEq A] {ys zs : List (Branch A (Tree A V n))}
    {e : Branch A (Tree A V n)} {child : Tree A V n} {E E' : List A}
    (h : Rep σ (n + 1) head (ys ++ e :: zs))
    (hnodup : (head :: E ++ Tree.blocks (n + 1) (ys ++ e :: zs)).Nodup)
    (hchild : Rep τ n e.block child) (hnodup' : (e.block :: E' ++ child.blocks n).Nodup)
    (hfoot : Footprint σ τ e.block (E ++ e.child.blocks n) (E' ++ child.blocks n)) :
    Rep τ (n + 1) head (ys ++ { e with child := child } :: zs) ∧
      (head :: E' ++ Tree.blocks (n + 1)
        (ys ++ { e with child := child } :: zs)).Nodup ∧
      Footprint σ τ head
        (E ++ Tree.blocks (n + 1) (ys ++ e :: zs))
        (E' ++ Tree.blocks (n + 1)
          (ys ++ { e with child := child } :: zs)) := by
  have hperm := Tree.blocks_perm ys zs e
  have hperm' := Tree.blocks_perm ys zs { e with child := child }
  have hothers : Tree.others n ys { e with child := child } zs = Tree.others n ys e zs := rfl
  rw [hothers] at hperm'
  have hsplit : ((e.block :: E ++ e.child.blocks n) ++ (head :: Tree.others n ys e zs)).Nodup := by
    refine (List.Perm.nodup_iff ?_).mpr hnodup
    rw [List.perm_iff_count]
    intro a
    have hcount := List.perm_iff_count.mp hperm a
    simp only [List.count_append, List.count_cons] at hcount ⊢
    omega
  obtain ⟨-, hnodupOthers, hapart⟩ := List.nodup_append.mp hsplit
  have hmemOthers : ∀ b ∈ head :: Tree.others n ys e zs, b ∈ head :: Tree.blocks (n + 1)
      (ys ++ e :: zs) := by
    intro b hb
    rcases List.mem_cons.mp hb with rfl | hb
    · exact List.mem_cons_self
    · exact List.mem_cons_of_mem _ (hperm.mem_iff.mpr (List.mem_append_right _ hb))
  -- the other blocks are no part of the change: what came was free
  have hout : ∀ b ∈ head :: Tree.others n ys e zs,
      b ≠ e.block ∧ b ∉ E ++ e.child.blocks n ∧ b ∉ E' ++ child.blocks n := by
    intro b hb
    have hne : b ≠ e.block := fun heq => hapart e.block List.mem_cons_self b hb heq.symm
    have hO : b ∉ E ++ e.child.blocks n := fun hmem =>
      hapart b (List.mem_cons_of_mem _ hmem) b hb rfl
    refine ⟨hne, hO, fun hmem => ?_⟩
    exact h.live b (hmemOthers b hb) (hfoot.fresh b hne hmem hO)
  have hkept : ∀ b ∈ head :: Tree.others n ys e zs, τ.block b = σ.block b := fun b hb =>
    hfoot.frame b (hout b hb).1 (hout b hb).2.1 (hout b hb).2.2
  have hnodes : Nodes σ head (List.map Branch.item (ys ++ e :: zs)) := h.1
  have hchildren : ∀ d ∈ ys ++ e :: zs, σ.nameAt d.block = some d.name ∧ Rep σ n d.block d.child :=
    h.2
  refine ⟨⟨?_, ?_⟩, ?_, ?_⟩
  · have hsame : List.map Branch.item (ys ++ { e with child := child } :: zs) =
        List.map Branch.item (ys ++ e :: zs) := by
      simp only [List.map_append, List.map_cons]
      rfl
    show Nodes τ head (List.map Branch.item (ys ++ { e with child := child } :: zs))
    rw [hsame]
    refine hnodes.frame fun b hb => Heap.nodeAt_congr (hkept b ?_)
    rw [map_node_branch_item] at hb
    simp only [Tree.others, List.map_append, List.map_cons, List.mem_cons, List.mem_append] at hb ⊢
    tauto
  · have hsibling : ∀ d ∈ ys ++ zs, σ.nameAt d.block = some d.name ∧ Rep σ n d.block d.child →
        τ.nameAt d.block = some d.name ∧ Rep τ n d.block d.child := by
      rintro d hd ⟨hname, hrep⟩
      have hin : ∀ b ∈ d.block :: d.child.blocks n, τ.block b = σ.block b := fun b hb =>
        hkept b (List.mem_cons_of_mem _ (List.mem_append_right _
          (List.mem_flatMap.mpr ⟨d, hd, hb⟩)))
      exact ⟨by rw [Heap.nameAt_congr (hin d.block List.mem_cons_self), hname], hrep.frame hin⟩
    show ∀ d ∈ ys ++ { e with child := child } :: zs, _
    intro d hd
    rcases List.mem_append.mp hd with hd | hd
    · exact hsibling d (List.mem_append_left _ hd) (hchildren d (List.mem_append_left _ hd))
    · rcases List.mem_cons.mp hd with rfl | hd
      · exact ⟨by rw [hfoot.nameAt]; exact (hchildren e (by simp)).1, hchild⟩
      · exact hsibling d (List.mem_append_right _ hd)
          (hchildren d (List.mem_append_right _ (List.mem_cons_of_mem _ hd)))
  · have hnew : ((e.block :: E' ++ child.blocks n) ++ (head :: Tree.others n ys e zs)).Nodup := by
      refine List.nodup_append.mpr ⟨hnodup', hnodupOthers, ?_⟩
      rintro b hb c hc rfl
      rcases List.mem_cons.mp hb with rfl | hb
      · exact (hout _ hc).1 rfl
      · exact (hout b hc).2.2 hb
    refine (List.Perm.nodup_iff ?_).mp hnew
    rw [List.perm_iff_count]
    intro a
    have hcount := List.perm_iff_count.mp hperm' a
    simp only [List.count_append, List.count_cons] at hcount ⊢
    omega
  · have hname : τ.nameAt head = σ.nameAt head :=
      Heap.nameAt_congr (hkept head List.mem_cons_self)
    have hP : ∀ b, b ∈ Tree.blocks (n + 1) (ys ++ e :: zs) ↔
        b = e.block ∨ b ∈ e.child.blocks n ∨ b ∈ Tree.others n ys e zs := by
      intro b
      rw [hperm.mem_iff]
      simp only [List.mem_append, List.mem_cons, or_assoc]
    have hP' : ∀ b, b ∈ Tree.blocks (n + 1)
          (ys ++ { e with child := child } :: zs) ↔
        b = e.block ∨ b ∈ child.blocks n ∨ b ∈ Tree.others n ys e zs := by
      intro b
      rw [hperm'.mem_iff]
      simp only [List.mem_append, List.mem_cons, or_assoc]
    refine (hfoot.inner hname).weaken ?_ ?_ ?_
    · intro b hb hb'
      simp only [List.mem_append, hP, hP', List.mem_cons, not_or] at hb hb' ⊢
      tauto
    · intro b hb hb'
      simp only [List.mem_append, hP, hP', List.mem_cons, not_or] at hb hb' ⊢
      tauto
    · intro b hb hb'
      simp only [List.mem_append, hP, hP', List.mem_cons, not_or] at hb hb' ⊢
      tauto

end Blocks

/-! ## Queues of a tree -/

section Queues

variable {n : Nat}

/-- A tree without nodes. -/
def Tree.empty : (n : Nat) → Tree A V n
  | 0 => ([] : List (Leaf A V))
  | n + 1 => ([] : List (Branch A (Tree A V n)))

@[simp] theorem Tree.blocks_empty : Tree.blocks n (Tree.empty n : Tree A V n) = [] := by
  cases n with
  | zero => rfl
  | succ n => rfl

@[simp] theorem Tree.items_empty : Tree.items n (Tree.empty n : Tree A V n) = [] := by
  cases n with
  | zero => rfl
  | succ n => rfl

theorem Tree.queue_of_items_nil {t : Tree A V n} (h : t.items n = []) (names : List String) :
    t.queue n names = [] := by
  cases n with
  | zero =>
      have hnil : t = ([] : List (Leaf A V)) := List.map_eq_nil_iff.mp h
      subst hnil
      cases names <;> rfl
  | succ n =>
      have hnil : t = ([] : List (Branch A (Tree A V n))) := List.map_eq_nil_iff.mp h
      subst hnil
      cases names <;> rfl

theorem Tree.blocks_of_items_nil {t : Tree A V n} (h : t.items n = []) : t.blocks n = [] := by
  cases n with
  | zero =>
      have hnil : t = ([] : List (Leaf A V)) := List.map_eq_nil_iff.mp h
      subst hnil
      rfl
  | succ n =>
      have hnil : t = ([] : List (Branch A (Tree A V n))) := List.map_eq_nil_iff.mp h
      subst hnil
      rfl

/-- The queues of a map, seen from one of its symbols. -/
theorem Tree.queue_split {ys zs : List (Branch A (Tree A V n))} {e : Branch A (Tree A V n)}
    (hys : ∀ y ∈ ys, y.name ≠ e.name) (name : String) (rest : List String) :
    Tree.queue (n + 1) (ys ++ e :: zs) (name :: rest) =
      if name = e.name then e.child.queue n rest
      else Tree.queue (n + 1) (ys ++ zs) (name :: rest) := by
  simp only [Tree.queue, List.find?_append, List.find?_cons]
  by_cases hname : name = e.name
  · have hnone :
        List.find? (fun d : Branch A (Tree A V n) => decide (d.name = name)) ys = none := by
      rw [List.find?_eq_none]
      intro y hy
      simpa [hname] using hys y hy
    rw [hnone, decide_eq_true hname.symm, if_pos hname]
    rfl
  · rw [decide_eq_false (Ne.symm hname), if_neg hname]

/-- The same from the first symbol. -/
theorem Tree.queue_cons (zs : List (Branch A (Tree A V n))) (e : Branch A (Tree A V n))
    (name : String) (rest : List String) :
    Tree.queue (n + 1) (e :: zs) (name :: rest) =
      if name = e.name then e.child.queue n rest else Tree.queue (n + 1) zs (name :: rest) :=
  @Tree.queue_split A V n [] zs e (by simp) name rest

/-- Changing one queue in the list of a symbol changes one queue of the map. -/
theorem Tree.queue_replaceChild {ys zs : List (Branch A (Tree A V n))}
    {e : Branch A (Tree A V n)} {child : Tree A V n} {rest : List String} {q : List (V × Int)}
    (hys : ∀ y ∈ ys, y.name ≠ e.name)
    (hchild : child.queue n = Function.update (e.child.queue n) rest q) :
    Tree.queue (n + 1) (ys ++ { e with child := child } :: zs) =
      Function.update (Tree.queue (n + 1) (ys ++ e :: zs))
        (e.name :: rest) q := by
  funext names
  cases names with
  | nil =>
      rw [Function.update_of_ne (by simp)]
      rfl
  | cons s path =>
      rw [Tree.queue_split (e := { e with child := child }) hys, hchild]
      by_cases hs : s = e.name
      · rw [if_pos hs, hs]
        by_cases hpath : path = rest
        · rw [hpath, Function.update_self, Function.update_self]
        · rw [Function.update_of_ne hpath, Function.update_of_ne (by simpa using hpath),
            Tree.queue_split hys, if_pos rfl]
      · rw [if_neg hs, Function.update_of_ne (by simp [hs]), Tree.queue_split hys, if_neg hs]

/-- A symbol that is in no node has an empty queue. -/
theorem Tree.queue_of_notMem {t : List (Branch A (Tree A V n))} {name : String}
    (h : ∀ e ∈ t, e.name ≠ name) (rest : List String) :
    Tree.queue (n + 1) (t) (name :: rest) = [] := by
  have hnone : List.find? (fun d : Branch A (Tree A V n) => decide (d.name = name)) t = none := by
    rw [List.find?_eq_none]
    intro e he
    simpa using h e he
  simp only [Tree.queue, hnone]

/-- A symbol whose list is empty may as well not be there. -/
theorem Tree.queue_removeBranch {ys zs : List (Branch A (Tree A V n))}
    {e : Branch A (Tree A V n)} (hnames : (List.map Branch.name (ys ++ e :: zs)).Nodup)
    (hempty : e.child.items n = []) :
    Tree.queue (n + 1) (ys ++ e :: zs) =
      Tree.queue (n + 1) (ys ++ zs) := by
  have hothers : ∀ d ∈ ys ++ zs, d.name ≠ e.name := by
    intro d hd heq
    rw [List.map_append, List.map_cons] at hnames
    refine (List.nodup_middle.mp hnames).notMem ?_
    rw [← heq, ← List.map_append]
    exact List.mem_map_of_mem hd
  funext names
  cases names with
  | nil => rfl
  | cons s path =>
      rw [Tree.queue_split fun y hy => hothers y (List.mem_append_left _ hy)]
      split
      · rename_i hs
        rw [Tree.queue_of_items_nil hempty, hs, Tree.queue_of_notMem hothers]
      · rfl

end Queues


end TraceRecorderTests.Cmocka
