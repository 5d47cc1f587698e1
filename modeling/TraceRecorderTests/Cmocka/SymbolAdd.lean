import TraceRecorderTests.Cmocka.SymbolTree

/-!
# Adding to a symbol map, and freeing it

`add_symbol_value` puts a value at the end of the queue of its symbols
(`addSymbolValue_spec`); the cleanup functions of `list_free` free every block of a
map (`listFree_tree`). The rest of the map, and of the heap, stays as it is: what
each function does to the blocks is its `Footprint`.
-/

namespace TraceRecorderTests.Cmocka

variable {A V : Type}

/-! ## Searching a symbol -/

section Search

variable [DecidableEq A] {σ : Heap A V} {head : A} {n : Nat}

theorem listFind_symbol {t : List (Branch A (Tree A V n))} (h : Rep σ (n + 1) head t)
    (name : String) {fuel : Nat} (hfuel : t.length < fuel) :
    listFind σ head (symbolNamesMatch σ name) fuel =
      some ((t.find? fun e => e.name = name).map Branch.node) := by
  refine listFind_spec h.1 ?_ hfuel
  intro e he
  have hname : σ.nameAt e.item.value = some e.name := (h.2 e he).1
  rw [symbolNamesMatch, hname, Option.map_some]

omit [DecidableEq A] in
/-- What a node of the map points to. -/
theorem nodeAt_branch {ys zs : List (Branch A (Tree A V n))} {e : Branch A (Tree A V n)}
    (h : Rep σ (n + 1) head (ys ++ e :: zs)) :
    ∃ node, σ.nodeAt e.node = some node ∧ node.value = some e.block := by
  have hnodes : Nodes σ head (List.map Branch.item (ys ++ e :: zs)) := h.1
  obtain ⟨node, hnode, hpair⟩ := Heap.nodeAt_of_contents (hnodes.contents e.item (by simp))
  exact ⟨node, hnode, congrArg Prod.fst hpair⟩

end Search

/-! ## Freeing a map -/

section Free

variable [DecidableEq A] {σ : Heap A V} {head : A}

/-- The cleanup function `list_free` is called with for a map of this depth. -/
def cleanupFor (fuel : Nat) : (n : Nat) → A → Heap A V → Option (Heap A V)
  | 0 => freeValue
  | children + 1 => freeSymbolMapValue fuel children

theorem freeSymbolMapValue_eq (fuel n : Nat) (value : A) (σ : Heap A V) :
    freeSymbolMapValue fuel n value σ =
      (listFree value (cleanupFor fuel n) fuel σ).bind fun σ => σ.free value := by
  cases n with
  | zero => rfl
  | succ n => rfl

theorem cleans_freeValue {a : A} (h : σ.block a ≠ none) : Cleans (some freeValue) a [a] σ := by
  obtain ⟨τ, hrun, hfrees⟩ := free_spec h
  exact ⟨τ, hrun, hfrees⟩

/-- Free a list and the block its head is in. -/
theorem cleans_freeSymbolMapValue {fuel n : Nat} {t : Tree A V n} {τ : Heap A V}
    (hrun : listFree head (cleanupFor fuel n) fuel σ = some τ) (hnil : Nodes τ head [])
    (hfoot : Footprint σ τ head (t.blocks n) []) :
    Cleans (some (freeSymbolMapValue fuel n)) head (head :: t.blocks n) σ := by
  obtain ⟨node, hnode, -⟩ := hnil.exists_head
  obtain ⟨υ, hfree, hfrees⟩ := free_spec (Heap.block_ne_none hnode)
  refine ⟨υ, by rw [freeSymbolMapValue_eq, hrun, Option.bind_some, hfree], ?_, ?_⟩
  · intro b hb
    by_cases hbhead : b = head
    · exact hfrees.freed b (by simp [hbhead])
    · rw [hfrees.frame b (by simpa using hbhead)]
      exact hfoot.freed b hbhead (List.mem_of_ne_of_mem hbhead hb) (by simp)
  · intro b hb
    have hbhead := List.ne_of_not_mem_cons hb
    rw [hfrees.frame b (by simpa using hbhead)]
    exact hfoot.frame b hbhead (List.not_mem_of_not_mem_cons hb) (by simp)

/-- The same for an empty list. -/
theorem cleans_freeSymbolMapValue_nil {fuel : Nat} (hfuel : 0 < fuel) (hnil : Nodes σ head []) :
    Cleans (some (freeSymbolMapValue fuel 0)) head [head] σ := by
  obtain ⟨fuel, rfl⟩ : ∃ n, fuel = n + 1 := ⟨fuel - 1, by omega⟩
  have hrun : listFree head (cleanupFor (fuel + 1) 0) (fuel + 1) σ = some σ := by
    rw [listFree, listEmpty_spec hnil]
    rfl
  exact @cleans_freeSymbolMapValue A V _ σ head _ 0 (Tree.empty 0) σ hrun hnil
    (Footprint.refl σ head [])

/-- `list_free` of a map frees all its blocks. -/
theorem listFree_tree {fuel : Nat} : ∀ {n : Nat} {σ : Heap A V} {head : A} {t : Tree A V n},
    Rep σ n head t → (head :: t.blocks n).Nodup → (t.blocks n).length < fuel →
    ∃ τ, listFree head (cleanupFor fuel n) fuel σ = some τ ∧ Nodes τ head [] ∧
      Footprint σ τ head (t.blocks n) []
  | 0, σ, head, t, h, hnodup, hfuel => by
      have hnodes : Nodes σ head (List.map Leaf.item t) := h.1
      have hptr : List.flatMap (fun e : Leaf A V => [e.ptr]) t = List.map Leaf.ptr t := by
        rw [List.map_eq_flatMap]
      have hblocks : List.map Item.node (List.map Leaf.item t) ++
          List.flatMap (fun e : Leaf A V => [e.ptr]) t = t.blocks 0 := by
        rw [map_node_leaf_item, hptr]
        rfl
      have hsplit : (head :: List.map Leaf.node t ++ List.map Leaf.ptr t).Nodup := hnodup
      obtain ⟨-, hptrs, hapart⟩ := List.nodup_append.mp hsplit
      rw [← hblocks]
      refine listFree_spec hnodes ?_ ?_ ?_ ?_
      · intro b hb hmem
        rw [hptr] at hb
        rw [map_node_leaf_item] at hmem
        exact hapart b hmem b hb rfl
      · rw [hptr]
        exact hptrs
      · intro e he σ₁ hσ₁
        have hlive : σ.block e.ptr ≠ none :=
          h.live e.ptr (List.mem_cons_of_mem _ (List.mem_append_right _ (List.mem_map_of_mem he)))
        exact cleans_freeValue (show σ₁.block e.ptr ≠ none by rwa [hσ₁ e.ptr (by simp)])
      · simp only [Tree.blocks, List.length_append, List.length_map] at hfuel
        exact Nat.lt_of_le_of_lt (Nat.le_add_right _ _) hfuel
  | n + 1, σ, head, t, h, hnodup, hfuel => by
      have hnodes : Nodes σ head (List.map Branch.item t) := h.1
      have hchildren : ∀ e ∈ (t : List (Branch A (Tree A V n))),
        σ.nameAt e.block = some e.name ∧ Rep σ n e.block e.child := h.2
      have hblocks : List.map Item.node (List.map Branch.item t) ++
          List.flatMap (fun e : Branch A (Tree A V n) => e.block :: e.child.blocks n) t =
            t.blocks (n + 1) := by
        rw [map_node_branch_item]
        rfl
      have hsplit : (head :: List.map Branch.node t ++
          List.flatMap (fun e : Branch A (Tree A V n) => e.block :: e.child.blocks n) t).Nodup :=
        hnodup
      obtain ⟨-, howned, hapart⟩ := List.nodup_append.mp hsplit
      rw [← hblocks]
      refine listFree_spec hnodes ?_ howned ?_ ?_
      · intro b hb hmem
        rw [map_node_branch_item] at hmem
        exact hapart b hmem b hb rfl
      · intro e he σ₁ hσ₁
        have hrep : Rep σ₁ n e.block e.child := (hchildren e he).2.frame hσ₁
        have hsub : (e.block :: e.child.blocks n).Sublist (List.flatMap
            (fun e : Branch A (Tree A V n) => e.block :: e.child.blocks n) t) :=
          List.sublist_flatten_of_mem (List.mem_map_of_mem he)
        have hlength := hsub.length_le
        simp only [Tree.blocks, List.length_append, List.length_cons] at hfuel hlength
        have hfuelChild : (e.child.blocks n).length < fuel := by omega
        obtain ⟨τ, hrun, hnil, hfoot⟩ := listFree_tree hrep (howned.sublist hsub) hfuelChild
        exact cleans_freeSymbolMapValue hrun hnil hfoot
      · simp only [Tree.blocks, List.length_append, List.length_map] at hfuel
        exact Nat.lt_of_le_of_lt (Nat.le_add_right _ _) hfuel

end Free

/-! ## Adding a value -/

/-- The coming calls of `malloc` return `k` different blocks that are not in
use. -/
structure Supply (σ : Heap A V) (k : Nat) : Prop where
  nodup : σ.mallocs.Nodup
  free : ∀ a ∈ σ.mallocs, σ.block a = none
  enough : k ≤ σ.mallocs.length

theorem Supply.exists_cons {σ : Heap A V} {k : Nat} (h : Supply σ (k + 1)) :
    ∃ a rest, σ.mallocs = a :: rest ∧ σ.block a = none ∧ a ∉ rest ∧ rest.Nodup ∧
      (∀ b ∈ rest, σ.block b = none) ∧ k ≤ rest.length := by
  have henough := h.enough
  rcases hm : σ.mallocs with _ | ⟨a, rest⟩
  · rw [hm] at henough
    simp at henough
  · rw [hm] at henough
    have hnodup := hm ▸ h.nodup
    refine ⟨a, rest, rfl, h.free a (by simp [hm]), (List.nodup_cons.mp hnodup).1,
      (List.nodup_cons.mp hnodup).2, fun b hb => h.free b (by simp [hm, hb]), ?_⟩
    simpa using henough

section Add

variable [DecidableEq A] {σ : Heap A V} {head : A} {n : Nat}

/-- `list_initialize` of the head in a new block. -/
theorem listInitialize_spec {b : A} {node : ListNode A} (h : σ.nodeAt b = some node) :
    ∃ τ, listInitialize σ b = some τ ∧ Nodes τ b [] ∧ τ.mallocs = σ.mallocs ∧
      (∀ c, c ≠ b → τ.block c = σ.block c) ∧ τ.nameAt b = σ.nameAt b := by
  refine ⟨σ.putNode b { value := none, refcount := 1, next := b, prev := b },
    by rw [listInitialize, h, Option.map_some], ⟨?_, by simp⟩, rfl,
    fun c hc => σ.putNode_block_ne _ hc, σ.putNode_nameAt b b _⟩
  rw [List.map_nil, Base.LinkRing.nil_iff]
  constructor
  · simp [Heap.links, Heap.putNode_nodeAt, h]
  · simp [Heap.links, Heap.putNode_nodeAt, h]

omit [DecidableEq A] in
/-- A head without nodes has the empty tree. -/
theorem rep_empty {b : A} (h : Nodes σ b []) : Rep σ n b (Tree.empty n) := by
  cases n with
  | zero => exact ⟨h, fun e he => absurd he (by simp [Tree.empty])⟩
  | succ n => exact ⟨h, fun e he => absurd he (by simp [Tree.empty])⟩

/-- A new symbol: its node is the last one, its list is empty. -/
theorem addSymbol_spec {t : List (Branch A (Tree A V n))} {k : Nat}
    (h : Rep σ (n + 1) head t) (hnodup : (head :: Tree.blocks (n + 1) t).Nodup)
    (hsupply : Supply σ (k + 2)) (name : String) :
    ∃ (τ : Heap A V) (e : Branch A (Tree A V n)), addSymbol σ head name = some (e.node, τ) ∧
      e.name = name ∧ e.child = Tree.empty n ∧ Rep τ (n + 1) head (t ++ [e]) ∧
      (head :: Tree.blocks (n + 1) (t ++ [e])).Nodup ∧
      Footprint σ τ head (Tree.blocks (n + 1) t) (Tree.blocks (n + 1) (t ++ [e])) ∧
      (Tree.blocks (n + 1) (t ++ [e])).length = (Tree.blocks (n + 1) t).length + 2 ∧
      Supply τ k := by
  obtain ⟨b, rest, hmallocs, hb, hbrest, hnodupRest, hrest, henough⟩ := hsupply.exists_cons
  let σ₁ : Heap A V := { σ.put b (some (.symbolMapValue name
    { value := none, refcount := 0, next := b, prev := b })) with mallocs := rest }
  have hself₁ : σ₁.block b = some (.symbolMapValue name
    { value := none, refcount := 0, next := b, prev := b }) := σ.put_block_self b _
  have hother₁ : ∀ c, c ≠ b → σ₁.block c = σ.block c := fun c hc => σ.put_block_ne _ hc
  have hnode₁ : σ₁.nodeAt b = some { value := none, refcount := 0, next := b, prev := b } := by
    rw [Heap.nodeAt, hself₁]
    rfl
  obtain ⟨σ₂, hinit, hnil₂, hmallocs₂, hother₂, hname₂⟩ := listInitialize_spec hnode₁
  have hkept₂ : ∀ c, c ≠ b → σ₂.block c = σ.block c := fun c hc => by
    rw [hother₂ c hc, hother₁ c hc]
  have hbt : b ∉ head :: Tree.blocks (n + 1) t := fun hmem => h.live b hmem hb
  have hrep₂ : Rep σ₂ (n + 1) head t := h.frame fun c hc => hkept₂ c (by
    rintro rfl
    exact hbt hc)
  have hsupply₂ : Supply σ₂ (k + 1) := by
    refine ⟨by rw [hmallocs₂]; exact hnodupRest, ?_, by rw [hmallocs₂]; exact henough⟩
    rw [hmallocs₂]
    intro c hc
    rw [hkept₂ c (by rintro rfl; exact hbrest hc)]
    exact hrest c hc
  obtain ⟨a, rest', hmallocs', ha, harest, hnodupRest', hrest', henough'⟩ := hsupply₂.exists_cons
  have hab : a ≠ b := by
    rintro rfl
    obtain ⟨node, hnode, -⟩ := hnil₂.exists_head
    exact Heap.block_ne_none hnode ha
  have hat : a ∉ head :: Tree.blocks (n + 1) t := fun hmem => hrep₂.live a hmem ha
  obtain ⟨τ, hrun, hnodes, hmallocsτ, hfoot⟩ := listAddValue_spec hrep₂.1 hmallocs' ha b 1
  rw [map_node_branch_item] at hfoot
  let e : Branch A (Tree A V n) := ⟨a, b, name, Tree.empty n⟩
  have hblocks : (Tree.blocks (n + 1) (t ++ [e])).Perm (a :: b :: Tree.blocks (n + 1) t) := by
    rw [List.perm_iff_count]
    intro c
    simp only [e, Tree.blocks, List.map_append, List.map_cons, List.map_nil, List.flatMap_append,
      List.flatMap_cons, List.flatMap_nil, Tree.blocks_empty, List.count_append, List.count_cons,
      List.count_nil]
    omega
  have hmem : ∀ c, c ∈ Tree.blocks (n + 1) (t ++ [e]) ↔
      c = a ∨ c = b ∨ c ∈ Tree.blocks (n + 1) t := fun c => by
    rw [hblocks.mem_iff, List.mem_cons, List.mem_cons]
  have hnodesIn : ∀ c ∈ t.map Branch.node, c ∈ Tree.blocks (n + 1) t := fun c hc =>
    List.mem_append_left _ hc
  -- the children of the old symbols, and the new head
  have hkept : ∀ c, c ≠ head → c ∉ t.map Branch.node → c ≠ a → τ.block c = σ₂.block c :=
    fun c hc ht hca => hfoot.frame c hc ht (by simp [hca] at ht ⊢; exact ht)
  have hheadb : b ≠ head := fun heq => hbt (heq ▸ List.mem_cons_self)
  have hbnode : b ∉ t.map Branch.node := fun hc =>
    hbt (List.mem_cons_of_mem _ (hnodesIn b hc))
  have hbτ : τ.block b = σ₂.block b := hkept b hheadb hbnode hab.symm
  refine ⟨τ, e, ?_, rfl, rfl, ⟨?_, ?_⟩, ?_, ⟨?_, ?_, ?_, ?_⟩, hblocks.length_eq, ?_, ?_, ?_⟩
  · rw [addSymbol, Heap.malloc_eq hmallocs hb]
    show (do
      let σ ← listInitialize σ₁ b
      listAddValue σ head b 1) = some (a, τ)
    rw [hinit]
    exact hrun
  · show Nodes τ head (List.map Branch.item (t ++ [e]))
    rw [List.map_append]
    exact hnodes
  · intro d hd
    rcases List.mem_append.mp hd with hd | hd
    · have hown : ∀ c ∈ d.block :: d.child.blocks n, τ.block c = σ₂.block c := by
        intro c hc
        have hcown : c ∈ List.flatMap
            (fun e : Branch A (Tree A V n) => e.block :: e.child.blocks n) t :=
          List.mem_flatMap.mpr ⟨d, hd, hc⟩
        have hin : c ∈ Tree.blocks (n + 1) t := List.mem_append_right _ hcown
        refine hkept c ?_ ?_ ?_
        · rintro rfl
          exact (List.nodup_cons.mp hnodup).1 hin
        · intro hcn
          exact (List.nodup_append.mp (List.nodup_cons.mp hnodup).2).2.2 c hcn c hcown rfl
        · rintro rfl
          exact hat (List.mem_cons_of_mem _ hin)
      obtain ⟨hname, hchild⟩ := hrep₂.2 d hd
      exact ⟨by rw [Heap.nameAt_congr (hown d.block List.mem_cons_self), hname], hchild.frame hown⟩
    · rw [List.mem_singleton.mp hd]
      refine ⟨?_, rep_empty (hnil₂.frame fun c hc => Heap.nodeAt_congr ?_)⟩
      · show τ.nameAt b = some name
        rw [Heap.nameAt_congr hbτ, hname₂, Heap.nameAt, hself₁]
        rfl
      · rw [List.mem_singleton.mp hc]
        exact hbτ
  · refine (hblocks.cons head).nodup_iff.mpr ?_
    simp only [List.nodup_cons, List.mem_cons, not_or] at hnodup hat hbt ⊢
    exact ⟨⟨fun heq => hat.1 heq.symm, fun heq => hbt.1 heq.symm, hnodup.1⟩, ⟨hab, hat.2⟩, hbt.2,
      hnodup.2⟩
  · intro c hc hO hO'
    rw [hmem, not_or, not_or] at hO'
    rw [hkept c hc (fun hcn => hO (hnodesIn c hcn)) hO'.1, hkept₂ c hO'.2.1]
  · intro c _ hO hO'
    exact absurd ((hmem c).mpr (Or.inr (Or.inr hO))) hO'
  · intro c _ hO' hO
    rcases (hmem c).mp hO' with rfl | rfl | hin
    · rw [← hkept₂ c hab]
      exact ha
    · exact hb
    · exact absurd hin hO
  · rw [hfoot.nameAt]
    exact Heap.nameAt_congr (hkept₂ head hheadb.symm)
  · rw [hmallocsτ]
    exact hnodupRest'
  · rw [hmallocsτ]
    intro c hc
    have hfree := hrest' c hc
    have hcb : c ∉ head :: Tree.blocks (n + 1) t := fun hmem => hrep₂.live c hmem hfree
    rw [hkept c (List.ne_of_not_mem_cons hcb)
      (fun hcn => hcb (List.mem_cons_of_mem _ (hnodesIn c hcn))) (by rintro rfl; exact harest hc)]
    exact hfree
  · rw [hmallocsτ]
    exact henough'

/-- The node of a symbol, there already or added: around it the map is what it
was. -/
theorem findOrAddSymbol_spec {t : List (Branch A (Tree A V n))} {k fuel : Nat} (name : String)
    (h : Rep σ (n + 1) head t) (htidy : Tree.Tidy (n + 1) t)
    (hnodup : (head :: Tree.blocks (n + 1) t).Nodup) (hsupply : Supply σ (k + 2))
    (hfuel : t.length < fuel) :
    ∃ (τ : Heap A V) (ys : List (Branch A (Tree A V n))) (e : Branch A (Tree A V n))
      (zs : List (Branch A (Tree A V n))),
      findOrAddSymbol fuel σ head name = some (e.node, τ) ∧
      Rep τ (n + 1) head (ys ++ e :: zs) ∧ (head :: Tree.blocks (n + 1) (ys ++ e :: zs)).Nodup ∧
      Footprint σ τ head (Tree.blocks (n + 1) t) (Tree.blocks (n + 1) (ys ++ e :: zs)) ∧
      Supply τ k ∧ e.name = name ∧ (List.map Branch.name (ys ++ e :: zs)).Nodup ∧
      (∀ d ∈ ys ++ zs, d.child.items n ≠ [] ∧ d.child.Tidy n) ∧ e.child.Tidy n ∧
      Tree.queue (n + 1) (ys ++ e :: zs) = Tree.queue (n + 1) t ∧
      (e.child.blocks n).length ≤ (Tree.blocks (n + 1) t).length ∧
      (Tree.blocks (n + 1) (ys ++ e :: zs)).length ≤ (Tree.blocks (n + 1) t).length + 2 := by
  obtain ⟨hnames, hchildren⟩ := htidy
  have hfind := listFind_symbol h name hfuel
  cases hresult : t.find? fun e => e.name = name with
  | some e =>
      obtain ⟨hname, ys, zs, rfl, -⟩ := List.find?_eq_some_iff_append.mp hresult
      rw [hresult, Option.map_some] at hfind
      refine ⟨σ, ys, e, zs, ?_, h, hnodup, Footprint.refl σ head _, ?_, by simpa using hname,
        hnames, ?_, ?_, rfl, ?_, Nat.le_add_right _ 2⟩
      · simp only [findOrAddSymbol, hfind, Option.bind_eq_bind, Option.bind_some, Option.pure_def]
      · exact ⟨hsupply.nodup, hsupply.free, by have := hsupply.enough; omega⟩
      · intro d hd
        refine hchildren d ?_
        simp only [List.mem_append, List.mem_cons] at hd ⊢
        tauto
      · exact (hchildren e (by simp)).2
      · have hlength := (Tree.blocks_perm ys zs e).length_eq
        simp only [List.length_append, List.length_cons] at hlength
        omega
  | none =>
      rw [hresult, Option.map_none] at hfind
      have hnot : ∀ d ∈ t, d.name ≠ name := fun d hd => by
        simpa using List.find?_eq_none.mp hresult d hd
      obtain ⟨τ, e, hrun, hname, hchild, hrep, hnodup', hfoot, hsize, hsupply'⟩ :=
        addSymbol_spec h hnodup hsupply name
      have hitems : e.child.items n = [] := by rw [hchild, Tree.items_empty]
      refine ⟨τ, t, e, [], ?_, hrep, hnodup', hfoot, hsupply', hname, ?_, ?_, ?_, ?_, ?_, hsize.le⟩
      · simp only [findOrAddSymbol, hfind, Option.bind_eq_bind, Option.bind_some, hrun]
      · rw [List.map_append, List.map_singleton, hname]
        refine List.nodup_append.mpr ⟨hnames, List.nodup_singleton name, ?_⟩
        rintro s hs s' hs' rfl
        obtain ⟨d, hd, rfl⟩ := List.mem_map.mp hs
        exact hnot d hd (by simpa using hs')
      · intro d hd
        rw [List.append_nil] at hd
        exact hchildren d hd
      · rw [hchild]
        cases n with
        | zero => trivial
        | succ n => exact ⟨by simp [Tree.empty], fun d hd => absurd hd (by simp [Tree.empty])⟩
      · funext names
        cases names with
        | nil => rfl
        | cons s rest =>
            have hsplit := @Tree.queue_split A V n t [] e
              (fun y hy => hname ▸ hnot y hy) s rest
            rw [List.append_nil] at hsplit
            rw [hsplit]
            split
            · rename_i hs
              rw [Tree.queue_of_items_nil hitems, hs,
                Tree.queue_of_notMem (fun d hd => hname ▸ hnot d hd)]
            · rfl
      · rw [Tree.blocks_of_items_nil hitems]
        exact Nat.zero_le _

/-- `f` puts a value at the end of the queue under `names`, in maps of depth `n`. -/
def Adds (f : Heap A V → A → Option (Heap A V)) (fuel : Nat) (p : A) (v : V) (count : Int)
    (n : Nat) (names : List String) : Prop :=
  ∀ (σ : Heap A V) (head : A) (t : Tree A V n),
    Rep σ n head t → t.Tidy n → (head :: p :: t.blocks n).Nodup → σ.valueAt p = some v →
    Supply σ (2 * n + 1) → (t.blocks n).length < fuel →
    ∃ (τ : Heap A V) (t' : Tree A V n), f σ head = some τ ∧ Rep τ n head t' ∧ t'.Tidy n ∧
      (head :: t'.blocks n).Nodup ∧ Footprint σ τ head (p :: t.blocks n) (t'.blocks n) ∧
      t'.items n ≠ [] ∧ (t'.blocks n).length ≤ (t.blocks n).length + (2 * n + 2) ∧
      t'.queue n = Function.update (t.queue n) names (t.queue n names ++ [(v, count)])

/-- At the last level the value gets a node of its own. -/
theorem adds_nil (fuel : Nat) (p : A) (v : V) (count : Int) :
    Adds (fun σ head => (listAddValue σ head p count).map Prod.snd) fuel p v count 0 [] := by
  intro σ head t h _ hnodup hvalue hsupply _
  obtain ⟨a, rest, hmallocs, ha, -⟩ := hsupply.exists_cons
  have hnodes : Nodes σ head (List.map Leaf.item t) := h.1
  obtain ⟨τ, hrun, hnodes', -, hfoot⟩ := listAddValue_spec hnodes hmallocs ha p count
  rw [map_node_leaf_item] at hfoot
  let e : Leaf A V := ⟨a, p, v, count⟩
  let t' : Tree A V 0 := List.append t [e]
  have hlive : ∀ b ∈ head :: p :: Tree.blocks 0 t, b ≠ a := by
    rintro b hb rfl
    rcases List.mem_cons.mp hb with rfl | hb
    · exact h.live b List.mem_cons_self ha
    · rcases List.mem_cons.mp hb with rfl | hb
      · rw [Heap.valueAt, ha] at hvalue
        cases hvalue
      · exact h.live b (List.mem_cons_of_mem _ hb) ha
  have hblocks : (Tree.blocks 0 t').Perm (a :: p :: Tree.blocks 0 t) := by
    rw [List.perm_iff_count]
    intro c
    simp only [t', e, Tree.blocks, List.append_eq, List.map_append, List.map_cons, List.map_nil,
      List.count_append, List.count_cons, List.count_nil]
    omega
  have hmem : ∀ c, c ∈ Tree.blocks 0 t' ↔ c = a ∨ c = p ∨ c ∈ Tree.blocks 0 t := fun c => by
    rw [hblocks.mem_iff, List.mem_cons, List.mem_cons]
  have hnodesIn : ∀ c ∈ List.map Leaf.node t, c ∈ Tree.blocks 0 t := fun c hc =>
    List.mem_append_left _ hc
  obtain ⟨hhead, hpt, hnodupt⟩ : head ∉ p :: Tree.blocks 0 t ∧ p ∉ Tree.blocks 0 t ∧
      (Tree.blocks 0 t).Nodup := by
    rw [List.nodup_cons, List.nodup_cons] at hnodup
    exact ⟨hnodup.1, hnodup.2.1, hnodup.2.2⟩
  have hapart := (List.nodup_append.mp hnodupt).2.2
  -- the values are no part of the list
  have hptr : ∀ c, c = p ∨ c ∈ List.map Leaf.ptr t → τ.block c = σ.block c := by
    intro c hc
    have hin : c ∈ p :: Tree.blocks 0 t := by
      rcases hc with rfl | hc
      · exact List.mem_cons_self
      · exact List.mem_cons_of_mem _ (List.mem_append_right _ hc)
    have hne : c ≠ head := fun heq => hhead (heq ▸ hin)
    have hnode : c ∉ List.map Leaf.node t := by
      intro hcn
      rcases hc with rfl | hc
      · exact hpt (hnodesIn _ hcn)
      · exact hapart c hcn c hc rfl
    have hca : c ≠ a := hlive c (List.mem_cons_of_mem _ hin)
    exact hfoot.frame c hne hnode (by simp only [List.mem_append, List.mem_singleton]; tauto)
  refine ⟨τ, t', by simp only [hrun, Option.map_some], ⟨?_, ?_⟩, trivial, ?_,
    ⟨?_, ?_, ?_, hfoot.nameAt⟩, ?_,
    hblocks.length_eq.le, ?_⟩
  · show Nodes τ head (List.map Leaf.item (List.append t [e]))
    rw [List.append_eq, List.map_append]
    exact hnodes'
  · show ∀ d ∈ List.append t [e], τ.valueAt d.ptr = some d.value
    intro d hd
    rcases List.mem_append.mp hd with hd | hd
    · rw [Heap.valueAt_congr (hptr d.ptr (Or.inr (List.mem_map_of_mem hd)))]
      exact h.2 d hd
    · rw [List.mem_singleton.mp hd]
      exact (Heap.valueAt_congr (hptr p (Or.inl rfl))).trans hvalue
  · refine (hblocks.cons head).nodup_iff.mpr ?_
    rw [List.nodup_cons, List.nodup_cons]
    refine ⟨?_, fun hmem => hlive a (List.mem_cons_of_mem _ hmem) rfl,
      (List.nodup_cons.mp hnodup).2⟩
    rw [List.mem_cons, not_or]
    exact ⟨hlive head List.mem_cons_self, hhead⟩
  · intro c hc hO hO'
    rw [hmem, not_or, not_or] at hO'
    refine hfoot.frame c hc (fun hcn => hO'.2.2 (hnodesIn c hcn)) ?_
    rw [List.mem_append, List.mem_singleton, not_or]
    exact ⟨fun hcn => hO'.2.2 (hnodesIn c hcn), hO'.1⟩
  · intro c _ hO hO'
    exact absurd ((hmem c).mpr (Or.inr (List.mem_cons.mp hO))) hO'
  · intro c _ hO' hO
    rcases (hmem c).mp hO' with rfl | hin
    · exact ha
    · exact absurd (List.mem_cons.mpr hin) hO
  · simp [Tree.items, t']
  · funext names
    cases names with
    | nil => simp [Tree.queue, t', e]
    | cons s rest => rw [Function.update_of_ne (by simp)]; rfl

/-- At an inner level the value goes into the list of its symbol. -/
theorem adds_cons {f : Heap A V → A → Option (Heap A V)} {fuel : Nat} {p : A} {v : V} {count : Int}
    {rest : List String} (hf : Adds f fuel p v count n rest) (name : String) :
    Adds (fun σ head => do
      let (targetNode, σ) ← findOrAddSymbol fuel σ head name
      f σ (← (← σ.nodeAt targetNode).value)) fuel p v count (n + 1) (name :: rest) := by
  intro σ head t h htidy hnodup hvalue hsupply hfuel
  have hsupply' : Supply σ ((2 * n + 1) + 2) :=
    ⟨hsupply.nodup, hsupply.free, by have := hsupply.enough; omega⟩
  have hlength : List.length t < fuel := by
    refine Nat.lt_of_le_of_lt ?_ hfuel
    show List.length t ≤ (List.map Branch.node t ++ _).length
    rw [List.length_append, List.length_map]
    exact Nat.le_add_right _ _
  have hnodup₀ : (head :: Tree.blocks (n + 1) t).Nodup :=
    hnodup.sublist ((List.sublist_cons_self p _).cons_cons head)
  obtain ⟨σ₁, ys, e, zs, hfind, hrep₁, hnodup₁, hfoot₁, hsupply₁, hname, hnames, hchildren, htidyE,
    hqueue, hsize, hsize₁⟩ := findOrAddSymbol_spec name h htidy hnodup₀ hsupply' hlength
  obtain ⟨node, hnode, hnodeValue⟩ := nodeAt_branch hrep₁
  have hpt : p ∉ head :: Tree.blocks (n + 1) t := by
    intro hmem
    rcases List.mem_cons.mp hmem with rfl | hmem
    · exact (List.nodup_cons.mp hnodup).1 List.mem_cons_self
    · exact (List.nodup_cons.mp (List.nodup_cons.mp hnodup).2).1 hmem
  have hplive : σ.block p ≠ none := by
    intro hnone
    rw [Heap.valueAt, hnone] at hvalue
    cases hvalue
  have hp₁ : p ∉ Tree.blocks (n + 1) (ys ++ e :: zs) := fun hmem =>
    hplive (hfoot₁.fresh p (List.ne_of_not_mem_cons hpt) hmem (List.not_mem_of_not_mem_cons hpt))
  have hvalue₁ : σ₁.valueAt p = some v := by
    rw [Heap.valueAt_congr (hfoot₁.frame p (List.ne_of_not_mem_cons hpt)
      (List.not_mem_of_not_mem_cons hpt) hp₁)]
    exact hvalue
  have hnodupP : (head :: [p] ++ Tree.blocks (n + 1) (ys ++ e :: zs)).Nodup := by
    rw [List.cons_append, List.singleton_append, List.nodup_cons, List.nodup_cons, List.mem_cons,
      not_or]
    exact ⟨⟨fun heq => hpt (heq ▸ List.mem_cons_self), (List.nodup_cons.mp hnodup₁).1⟩, hp₁,
      (List.nodup_cons.mp hnodup₁).2⟩
  have hnodupE : (e.block :: p :: e.child.blocks n).Nodup := by
    have hperm := Tree.blocks_perm ys zs e
    have hsub : (p :: Tree.blocks (n + 1) (ys ++ e :: zs)).Nodup :=
      (List.nodup_cons.mp hnodupP).2
    have hall := (hperm.cons p).nodup_iff.mp hsub
    refine (List.Perm.swap e.block p (e.child.blocks n)).nodup_iff.mp (hall.sublist ?_)
    exact (List.sublist_append_left _ _).cons_cons p
  obtain ⟨-, hchildE⟩ := hrep₁.2 e (by simp)
  obtain ⟨τ, child, hrun, hrepC, htidyC, hnodupC, hfootC, hitemsC, hsizeC, hqueueC⟩ :=
    hf σ₁ e.block e.child hchildE htidyE hnodupE hvalue₁ hsupply₁ (Nat.lt_of_le_of_lt hsize hfuel)
  obtain ⟨hrep', hnodup', hfoot'⟩ := @Rep.replaceChild A V σ₁ τ head n _ ys zs e child
    [p] [] hrep₁ hnodupP hrepC hnodupC hfootC
  refine ⟨τ, ys ++ { e with child := child } :: zs, ?_, hrep', ⟨?_, ?_⟩, hnodup', ?_, ?_, ?_, ?_⟩
  · simp only [hfind, hnode, hnodeValue, hrun, Option.bind_eq_bind, Option.bind_some]
  · simpa using hnames
  · show ∀ d ∈ ys ++ { e with child := child } :: zs, _
    intro d hd
    simp only [List.mem_append, List.mem_cons] at hd
    rcases hd with hd | rfl | hd
    · exact hchildren d (List.mem_append_left _ hd)
    · exact ⟨hitemsC, htidyC⟩
    · exact hchildren d (List.mem_append_right _ hd)
  · refine Footprint.trans (hfoot₁.weaken ?_ ?_ ?_) hfoot'
    · intro b hb hb'
      exact ⟨List.not_mem_of_not_mem_cons hb, List.not_mem_of_not_mem_cons hb'⟩
    · intro b hb hb'
      exact ⟨List.mem_of_ne_of_mem (List.ne_of_not_mem_cons hb') hb,
        List.not_mem_of_not_mem_cons hb'⟩
    · intro b hb hb'
      exact ⟨List.mem_of_ne_of_mem (List.ne_of_not_mem_cons hb') hb,
        List.not_mem_of_not_mem_cons hb'⟩
  · show List.map Branch.item (ys ++ { e with child := child } :: zs) ≠ []
    simp
  · have hlen := (Tree.blocks_perm ys zs e).length_eq
    have hlen' := (Tree.blocks_perm ys zs { e with child := child }).length_eq
    simp only [List.length_append, List.length_cons] at hlen hlen'
    have hothers : Tree.others n ys { e with child := child } zs = Tree.others n ys e zs := rfl
    rw [hothers] at hlen'
    show (Tree.blocks (n + 1) (ys ++ { e with child := child } :: zs)).length ≤ _
    omega
  · have hys : ∀ y ∈ ys, y.name ≠ e.name := by
      intro y hy heq
      rw [List.map_append, List.map_cons, List.nodup_append] at hnames
      exact hnames.2.2 y.name (List.mem_map_of_mem hy) e.name List.mem_cons_self heq
    rw [Tree.queue_replaceChild hys hqueueC, ← hqueue, ← hname, Tree.queue_split hys, if_pos rfl]

/-- `add_symbol_value` puts the value at the end of the queue of its symbols. -/
theorem addSymbolValue_spec (fuel : Nat) (p : A) (v : V) (count : Int) :
    ∀ names : List String, names ≠ [] →
      Adds (fun σ head => addSymbolValue fuel p count names σ head) fuel p v count
        names.length names
  | [], hne => absurd rfl hne
  | [name], _ => adds_cons (adds_nil fuel p v count) name
  | name :: name' :: rest, _ =>
      adds_cons (addSymbolValue_spec fuel p v count (name' :: rest) (by simp)) name

end Add

end TraceRecorderTests.Cmocka
