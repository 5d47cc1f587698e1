import TraceRecorderTests.Cmocka.SymbolAdd

/-!
# Removing single nodes

What it does to a symbol map to remove a symbol without values
(`Rep.removeBranch`), to remove a value, which is freed or becomes the caller's
(`Rep.freeLeaf`, `Rep.takeLeaf`), and to write the count of one
(`Rep.recountLeaf`).
-/

namespace TraceRecorderTests.Cmocka

variable {A V : Type}

section Remove

variable [DecidableEq A] {σ : Heap A V} {head : A} {n : Nat}

/-- Removing a symbol without values frees its node and its block. -/
theorem Rep.removeBranch {ys zs : List (Branch A (Tree A V n))} {e : Branch A (Tree A V n)}
    {cleanup : A → Heap A V → Option (Heap A V)} (h : Rep σ (n + 1) head (ys ++ e :: zs))
    (hnodup : (head :: Tree.blocks (n + 1) (ys ++ e :: zs)).Nodup)
    (hempty : e.child.items n = [])
    (hclean : ∀ σ₁ : Heap A V, σ₁.block e.block = σ.block e.block →
      Cleans (some cleanup) e.block [e.block] σ₁) :
    ∃ τ, listRemoveFree σ e.node (some cleanup) = some τ ∧ Rep τ (n + 1) head (ys ++ zs) ∧
      (head :: Tree.blocks (n + 1) (ys ++ zs)).Nodup ∧
      Footprint σ τ head (Tree.blocks (n + 1) (ys ++ e :: zs))
        (Tree.blocks (n + 1) (ys ++ zs)) := by
  have hperm : (Tree.blocks (n + 1) (ys ++ e :: zs)).Perm
      (e.node :: e.block :: Tree.blocks (n + 1) (ys ++ zs)) := by
    rw [List.perm_iff_count]
    intro c
    simp only [Tree.blocks, List.map_append, List.map_cons, List.flatMap_append,
      List.flatMap_cons, Tree.blocks_of_items_nil hempty, List.count_append, List.count_cons,
      List.count_nil]
    omega
  have hall : (head :: e.node :: e.block :: Tree.blocks (n + 1) (ys ++ zs)).Nodup :=
    (hperm.cons head).nodup_iff.mp hnodup
  have hnodesIn : ∀ c ∈ (ys ++ zs).map Branch.node, c ∈ Tree.blocks (n + 1) (ys ++ zs) :=
    fun c hc => List.mem_append_left _ hc
  simp only [List.nodup_cons, List.mem_cons, not_or] at hall
  obtain ⟨⟨hheadNode, hheadBlock, hheadRest⟩, ⟨hnodeBlock, hnodeRest⟩, hblockRest, hrest⟩ := hall
  have hnodes : Nodes σ head (ys.map Branch.item ++ e.item :: zs.map Branch.item) := by
    have h1 : Nodes σ head (List.map Branch.item (ys ++ e :: zs)) := h.1
    rwa [List.map_append, List.map_cons] at h1
  have hmapNodes : List.map Item.node (ys.map Branch.item ++ zs.map Branch.item) =
      (ys ++ zs).map Branch.node := by
    rw [← List.map_append, map_node_branch_item]
  have hblockNodes : e.block ∉ head :: (ys ++ zs).map Branch.node := by
    rw [List.mem_cons, not_or]
    exact ⟨fun heq => hheadBlock heq.symm, fun hmem => hblockRest (hnodesIn _ hmem)⟩
  obtain ⟨τ, hrun, hnodes', hfoot⟩ := @listRemoveFree_spec A V _ σ head (ys.map Branch.item)
    (zs.map Branch.item) e.item [e.block] (some cleanup) hnodes (by
      intro b hb hmem
      rw [List.mem_singleton.mp hb] at hmem
      rw [List.map_append, List.map_cons, map_node_branch_item, map_node_branch_item] at hmem
      simp only [List.map_append, List.mem_cons, List.mem_append, not_or] at hmem hblockNodes
      rcases hmem with hmem | hmem | hmem | hmem
      · exact hblockNodes.1 hmem
      · exact hblockNodes.2.1 hmem
      · exact hnodeBlock hmem.symm
      · exact hblockNodes.2.2 hmem) (fun σ₁ hσ₁ => hclean σ₁ (hσ₁ e.block (by
      rw [hmapNodes]
      exact hblockNodes)))
  rw [hmapNodes] at hfoot
  have hkept : ∀ c ∈ List.flatMap (fun d : Branch A (Tree A V n) => d.block :: d.child.blocks n)
      (ys ++ zs), τ.block c = σ.block c := by
    intro c hc
    have hin : c ∈ Tree.blocks (n + 1) (ys ++ zs) := List.mem_append_right _ hc
    have hnot : c ∉ (ys ++ zs).map Branch.node := fun hcn =>
      (List.nodup_append.mp hrest).2.2 c hcn c hc rfl
    refine hfoot.frame c ?_ ?_ hnot
    · rintro rfl
      exact hheadRest hin
    · simp only [List.cons_append, List.nil_append, List.mem_cons, not_or]
      refine ⟨?_, ?_, hnot⟩
      · rintro rfl
        exact hnodeRest hin
      · rintro rfl
        exact hblockRest hin
  refine ⟨τ, hrun, ⟨?_, ?_⟩, ?_, ?_⟩
  · show Nodes τ head (List.map Branch.item (ys ++ zs))
    rw [List.map_append]
    exact hnodes'
  · intro d hd
    have hchildren : ∀ d ∈ ys ++ e :: zs,
        σ.nameAt d.block = some d.name ∧ Rep σ n d.block d.child := h.2
    obtain ⟨hname, hchild⟩ := hchildren d (by
      simp only [List.mem_append, List.mem_cons] at hd ⊢
      tauto)
    have hown : ∀ c ∈ d.block :: d.child.blocks n, τ.block c = σ.block c := fun c hc =>
      hkept c (List.mem_flatMap.mpr ⟨d, hd, hc⟩)
    exact ⟨by rw [Heap.nameAt_congr (hown d.block List.mem_cons_self), hname], hchild.frame hown⟩
  · exact List.nodup_cons.mpr ⟨hheadRest, hrest⟩
  · refine hfoot.weaken ?_ ?_ ?_
    · intro b hb hb'
      rw [hperm.mem_iff] at hb
      have hbn : b ∉ (ys ++ zs).map Branch.node := fun hmem => hb' (hnodesIn b hmem)
      simp only [List.cons_append, List.nil_append, List.mem_cons, not_or] at hb ⊢
      tauto
    · intro b hb hb'
      rw [hperm.mem_iff] at hb
      have hbn : b ∉ (ys ++ zs).map Branch.node := fun hmem => hb' (hnodesIn b hmem)
      simp only [List.cons_append, List.nil_append, List.mem_cons] at hb ⊢
      tauto
    · intro b hb hb'
      rw [hperm.mem_iff] at hb'
      exact absurd (List.mem_cons_of_mem _ (List.mem_cons_of_mem _ hb)) hb'

/-- The blocks of a list of values, one of its nodes apart. -/
theorem Tree.blocks_leaf_perm (ys zs : List (Leaf A V)) (e : Leaf A V) :
    (Tree.blocks 0 (ys ++ e :: zs)).Perm (e.node :: e.ptr :: Tree.blocks 0 (ys ++ zs)) := by
  rw [List.perm_iff_count]
  intro c
  simp only [Tree.blocks, List.map_append, List.map_cons, List.count_append, List.count_cons]
  omega

/-- A node of a list of values goes; `own` is what the cleanup function frees. -/
private theorem Rep.removeLeaf {ys zs : List (Leaf A V)} {e : Leaf A V} {own : List A}
    {cleanup : Option (A → Heap A V → Option (Heap A V))} (h : Rep σ 0 head (ys ++ e :: zs))
    (hnodup : (head :: Tree.blocks 0 (ys ++ e :: zs)).Nodup) (hown : ∀ b ∈ own, b = e.ptr)
    (hclean : ∀ σ₁ : Heap A V, σ₁.block e.ptr = σ.block e.ptr → Cleans cleanup e.ptr own σ₁) :
    ∃ τ, listRemoveFree σ e.node cleanup = some τ ∧ Rep τ 0 head (ys ++ zs) ∧
      (head :: e.ptr :: Tree.blocks 0 (ys ++ zs)).Nodup ∧
      Footprint σ τ head (e.node :: own ++ Tree.blocks 0 (ys ++ zs))
        (Tree.blocks 0 (ys ++ zs)) := by
  have hnodes : Nodes σ head (List.map Leaf.item ys ++ e.item :: List.map Leaf.item zs) := by
    have h1 : Nodes σ head (List.map Leaf.item (ys ++ e :: zs)) := h.1
    rwa [List.map_append, List.map_cons] at h1
  have hvalues : ∀ d ∈ ys ++ e :: zs, σ.valueAt d.ptr = some d.value := h.2
  have hmapNodes : List.map Item.node (ys.map Leaf.item ++ zs.map Leaf.item) =
      (ys ++ zs).map Leaf.node := by
    rw [← List.map_append, map_node_leaf_item]
  have hall := ((Tree.blocks_leaf_perm ys zs e).cons head).nodup_iff.mp hnodup
  simp only [List.nodup_cons, List.mem_cons, not_or] at hall
  obtain ⟨⟨hheadNode, hheadPtr, hheadRest⟩, ⟨hnodePtr, hnodeRest⟩, hptrRest, hrest⟩ := hall
  have hnodesIn : ∀ c ∈ (ys ++ zs).map Leaf.node, c ∈ Tree.blocks 0 (ys ++ zs) :=
    fun c hc => List.mem_append_left _ hc
  have hptrsIn : ∀ c ∈ (ys ++ zs).map Leaf.ptr, c ∈ Tree.blocks 0 (ys ++ zs) :=
    fun c hc => List.mem_append_right _ hc
  have hptrNodes : e.ptr ∉ head :: (ys ++ zs).map Leaf.node := by
    rw [List.mem_cons, not_or]
    exact ⟨fun heq => hheadPtr heq.symm, fun hmem => hptrRest (hnodesIn _ hmem)⟩
  obtain ⟨τ, hrun, hnodes', hfoot⟩ := @listRemoveFree_spec A V _ σ head (ys.map Leaf.item)
    (zs.map Leaf.item) e.item own cleanup hnodes (by
      intro b hb hmem
      rw [hown b hb, List.map_append, List.map_cons, map_node_leaf_item,
        map_node_leaf_item] at hmem
      simp only [List.map_append, List.mem_cons, List.mem_append, not_or] at hmem hptrNodes
      rcases hmem with hmem | hmem | hmem | hmem
      · exact hptrNodes.1 hmem
      · exact hptrNodes.2.1 hmem
      · exact hnodePtr hmem.symm
      · exact hptrNodes.2.2 hmem) (fun σ₁ hσ₁ => hclean σ₁ (hσ₁ e.ptr (by
      rw [hmapNodes]
      exact hptrNodes)))
  rw [hmapNodes] at hfoot
  refine ⟨τ, hrun, ⟨?_, ?_⟩, ?_, ?_⟩
  · show Nodes τ head (List.map Leaf.item (ys ++ zs))
    rw [List.map_append]
    exact hnodes'
  · intro d hd
    have hin : d.ptr ∈ (ys ++ zs).map Leaf.ptr := List.mem_map_of_mem hd
    have hnot : d.ptr ∉ (ys ++ zs).map Leaf.node := fun hmem =>
      (List.nodup_append.mp hrest).2.2 d.ptr hmem d.ptr hin rfl
    have hkept : τ.block d.ptr = σ.block d.ptr := by
      refine hfoot.frame d.ptr ?_ ?_ hnot
      · intro heq
        exact hheadRest (heq ▸ hptrsIn _ hin)
      · rw [List.cons_append, List.mem_cons, List.mem_append, not_or, not_or]
        refine ⟨fun heq => hnodeRest ?_, fun hmem => hptrRest ?_, hnot⟩
        · have heq : d.ptr = e.node := heq
          exact heq ▸ hptrsIn _ hin
        · exact hown _ hmem ▸ hptrsIn _ hin
    rw [Heap.valueAt_congr hkept]
    refine hvalues d ?_
    simp only [List.mem_append, List.mem_cons] at hd ⊢
    tauto
  · simp only [List.nodup_cons, List.mem_cons, not_or]
    exact ⟨⟨hheadPtr, hheadRest⟩, hptrRest, hrest⟩
  · have hitem : e.item.node = e.node := rfl
    rw [hitem] at hfoot
    refine hfoot.weaken ?_ ?_ ?_
    · intro b hb hb'
      have hbn : b ∉ (ys ++ zs).map Leaf.node := fun hmem => hb' (hnodesIn b hmem)
      simp only [List.cons_append, List.mem_cons, List.mem_append, not_or] at hb ⊢
      tauto
    · intro b hb hb'
      have hbn : b ∉ (ys ++ zs).map Leaf.node := fun hmem => hb' (hnodesIn b hmem)
      simp only [List.cons_append, List.mem_cons, List.mem_append] at hb ⊢
      tauto
    · intro b hb hb'
      exact absurd (List.mem_append_right _ hb) hb'

/-- A node goes and its value is the caller's. -/
theorem Rep.takeLeaf {ys zs : List (Leaf A V)} {e : Leaf A V} (h : Rep σ 0 head (ys ++ e :: zs))
    (hnodup : (head :: Tree.blocks 0 (ys ++ e :: zs)).Nodup) :
    ∃ τ, listRemoveFree σ e.node none = some τ ∧ Rep τ 0 head (ys ++ zs) ∧
      (head :: e.ptr :: Tree.blocks 0 (ys ++ zs)).Nodup ∧ τ.valueAt e.ptr = some e.value ∧
      Footprint σ τ head (Tree.blocks 0 (ys ++ e :: zs))
        (e.ptr :: Tree.blocks 0 (ys ++ zs)) := by
  have hvalues : ∀ d ∈ ys ++ e :: zs, σ.valueAt d.ptr = some d.value := h.2
  obtain ⟨τ, hrun, hrep, hnodup', hfoot⟩ := @Rep.removeLeaf A V _ σ head ys zs e [] none h hnodup
    (by simp) (fun _ _ => rfl)
  have hperm := Tree.blocks_leaf_perm ys zs e
  have hall := (hperm.cons head).nodup_iff.mp hnodup
  simp only [List.nodup_cons, List.mem_cons, not_or] at hall
  obtain ⟨⟨-, hheadPtr, -⟩, ⟨hnodePtr, -⟩, hptrRest, -⟩ := hall
  refine ⟨τ, hrun, hrep, hnodup', ?_, ?_⟩
  · rw [Heap.valueAt_congr (hfoot.frame e.ptr (fun heq => hheadPtr heq.symm) ?_ hptrRest)]
    · exact hvalues e (by simp)
    · rw [List.cons_append, List.nil_append, List.mem_cons, not_or]
      exact ⟨fun heq => hnodePtr heq.symm, hptrRest⟩
  · refine hfoot.weaken ?_ ?_ ?_
    · intro b hb hb'
      rw [hperm.mem_iff] at hb
      simp only [List.cons_append, List.nil_append, List.mem_cons, not_or] at hb hb' ⊢
      tauto
    · intro b hb hb'
      rw [hperm.mem_iff] at hb
      simp only [List.cons_append, List.nil_append, List.mem_cons, not_or] at hb hb' ⊢
      tauto
    · intro b hb hb'
      rw [hperm.mem_iff] at hb'
      exact absurd (List.mem_cons_of_mem _ hb) hb'

/-- A node goes and its value is freed. -/
theorem Rep.freeLeaf {ys zs : List (Leaf A V)} {e : Leaf A V} (h : Rep σ 0 head (ys ++ e :: zs))
    (hnodup : (head :: Tree.blocks 0 (ys ++ e :: zs)).Nodup) :
    ∃ τ, listRemoveFree σ e.node (some freeValue) = some τ ∧ Rep τ 0 head (ys ++ zs) ∧
      (head :: Tree.blocks 0 (ys ++ zs)).Nodup ∧
      Footprint σ τ head (Tree.blocks 0 (ys ++ e :: zs)) (Tree.blocks 0 (ys ++ zs)) := by
  have hperm := Tree.blocks_leaf_perm ys zs e
  have hlive : σ.block e.ptr ≠ none :=
    h.live e.ptr (List.mem_cons_of_mem _ (hperm.mem_iff.mpr (by simp)))
  obtain ⟨τ, hrun, hrep, hnodup', hfoot⟩ := @Rep.removeLeaf A V _ σ head ys zs e [e.ptr]
    (some freeValue) h hnodup (fun b hb => List.mem_singleton.mp hb)
    (fun σ₁ hσ₁ => cleans_freeValue (by rwa [hσ₁]))
  refine ⟨τ, hrun, hrep, hnodup'.sublist ((List.sublist_cons_self _ _).cons_cons head), ?_⟩
  refine hfoot.weaken ?_ ?_ ?_
  · intro b hb hb'
    rw [hperm.mem_iff] at hb
    simp only [List.cons_append, List.nil_append, List.mem_cons, not_or] at hb ⊢
    tauto
  · intro b hb hb'
    rw [hperm.mem_iff] at hb
    exact ⟨by simpa using hb, hb'⟩
  · intro b hb hb'
    rw [hperm.mem_iff] at hb'
    exact absurd (List.mem_cons_of_mem _ (List.mem_cons_of_mem _ hb)) hb'

omit [DecidableEq A] in
/-- A new count is in the same blocks. -/
theorem Tree.blocks_recount (ys zs : List (Leaf A V)) (e : Leaf A V) (count : Int) :
    Tree.blocks 0 (ys ++ { e with refcount := count } :: zs) = Tree.blocks 0 (ys ++ e :: zs) := by
  simp only [Tree.blocks, List.map_append, List.map_cons]

/-- The count of a value is written; nothing else is. -/
theorem Rep.recountLeaf {ys zs : List (Leaf A V)} {e : Leaf A V}
    (h : Rep σ 0 head (ys ++ e :: zs)) (hnodup : (head :: Tree.blocks 0 (ys ++ e :: zs)).Nodup)
    (count : Int) :
    ∃ τ, σ.setRefcount e.node count = some τ ∧
      Rep τ 0 head (ys ++ { e with refcount := count } :: zs) ∧
      Footprint σ τ head (Tree.blocks 0 (ys ++ e :: zs)) (Tree.blocks 0 (ys ++ e :: zs)) := by
  have hnodes : Nodes σ head (List.map Leaf.item ys ++ e.item :: List.map Leaf.item zs) := by
    have h1 : Nodes σ head (List.map Leaf.item (ys ++ e :: zs)) := h.1
    rwa [List.map_append, List.map_cons] at h1
  have hvalues : ∀ d ∈ ys ++ e :: zs, σ.valueAt d.ptr = some d.value := h.2
  have hperm := Tree.blocks_leaf_perm ys zs e
  have hall := (hperm.cons head).nodup_iff.mp hnodup
  simp only [List.nodup_cons, List.mem_cons, not_or] at hall
  obtain ⟨⟨hheadNode, -, -⟩, ⟨hnodePtr, hnodeRest⟩, -⟩ := hall
  obtain ⟨τ, hrun, hnodes', hother⟩ := setRefcount_spec hnodes count
  have hother : ∀ b, b ≠ e.node → τ.block b = σ.block b := hother
  have hptr : ∀ d ∈ ys ++ e :: zs, d.ptr ≠ e.node := by
    intro d hd heq
    simp only [List.mem_append, List.mem_cons] at hd
    rcases hd with hd | rfl | hd
    · exact hnodeRest (heq ▸ List.mem_append_right _ (List.mem_map_of_mem
        (List.mem_append_left _ hd)))
    · exact hnodePtr heq.symm
    · exact hnodeRest (heq ▸ List.mem_append_right _ (List.mem_map_of_mem
        (List.mem_append_right _ hd)))
  have hvalue : ∀ d ∈ ys ++ e :: zs, τ.valueAt d.ptr = some d.value := fun d hd => by
    rw [Heap.valueAt_congr (hother d.ptr (hptr d hd))]
    exact hvalues d hd
  refine ⟨τ, hrun, ⟨?_, ?_⟩, ?_, fun b _ hO hO' => absurd hO hO',
    fun b _ hO' hO => absurd hO' hO, Heap.nameAt_congr (hother head hheadNode)⟩
  · show Nodes τ head (List.map Leaf.item (ys ++ { e with refcount := count } :: zs))
    rw [List.map_append, List.map_cons]
    exact hnodes'
  · intro d hd
    simp only [List.mem_append, List.mem_cons] at hd
    rcases hd with hd | rfl | hd
    · exact hvalue d (by simp [hd])
    · exact hvalue e (by simp)
    · exact hvalue d (by simp [hd])
  · intro b _ hO _
    refine hother b ?_
    rintro rfl
    exact hO (hperm.mem_iff.mpr List.mem_cons_self)

end Remove

end TraceRecorderTests.Cmocka
