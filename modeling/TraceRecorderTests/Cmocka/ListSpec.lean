import TraceRecorderTests.Cmocka.ListNode

/-!
# What the list functions do

`Nodes` says that the list at a head consists of given nodes. Each list function
has one lemma that says what it makes of the list (`listAddValue_spec`,
`listFind_spec`, `listRemoveFree_spec`, `listFree_spec`); the heap around the
list is accounted for by `Footprint`: which blocks belonged to the list before
and after, so that what left was freed, what came was not in use, and everything
else is as it was.
-/

namespace TraceRecorderTests.Cmocka

open Base

variable {A V : Type}

/-! ## What a list holds -/

/-- A node of a list: where it is, what it points to, and its count. -/
structure Item (A : Type) where
  node : A
  value : A
  refcount : Int
  deriving DecidableEq, Repr

/-- The list at `head` consists of these nodes, in this order. -/
structure Nodes (σ : Heap A V) (head : A) (items : List (Item A)) : Prop where
  ring : LinkRing σ.links head (items.map Item.node)
  contents : ∀ i ∈ items, σ.contents i.node = some (some i.value, i.refcount)

namespace Nodes

variable {σ τ : Heap A V} {head : A} {items : List (Item A)}

theorem exists_head (h : Nodes σ head items) :
    ∃ node, σ.nodeAt head = some node ∧ node.next = (items.map Item.node).headD head :=
  Heap.nodeAt_of_next h.ring.next_head

/-- A list depends on its own nodes only. -/
theorem frame (h : Nodes σ head items)
    (hagree : ∀ a ∈ head :: items.map Item.node, τ.nodeAt a = σ.nodeAt a) :
    Nodes τ head items where
  ring := h.ring.frame (fun a ha => by simp only [Heap.links, hagree a ha])
    (fun a ha => by simp only [Heap.links, hagree a ha])
  contents i hi := by
    rw [Heap.contents, hagree i.node (List.mem_cons_of_mem _ (List.mem_map_of_mem hi))]
    exact h.contents i hi

/-- New links between nodes that keep their contents. -/
theorem relink {S : List A} {items' : List (Item A)} (h : Nodes σ head items)
    (hrelinked : Relinked S σ τ) (hring : LinkRing τ.links head (items'.map Item.node))
    (hsub : items' ⊆ items) : Nodes τ head items' where
  ring := hring
  contents i hi := by
    rw [hrelinked.contents]
    exact h.contents i (hsub hi)

/-- The node before the head exists. -/
theorem exists_last (h : Nodes σ head items) :
    ∃ node, σ.nodeAt ((items.map Item.node).getLastD head) = some node := by
  rcases List.eq_nil_or_concat' items with rfl | ⟨ys, i, rfl⟩
  · obtain ⟨node, hnode, -⟩ := h.exists_head
    exact ⟨node, hnode⟩
  · obtain ⟨node, hnode, -⟩ := Heap.nodeAt_of_contents (h.contents i (by simp))
    exact ⟨node, by simpa using hnode⟩

end Nodes

/-! ## Accounting for blocks -/

/-- From `σ` to `τ` the blocks of the structure at `head` changed from `O` to
`O'`: the ones that left are free, the ones that came were free, and all other
blocks are untouched. The head itself may be written, but keeps its name. -/
structure Footprint (σ τ : Heap A V) (head : A) (O O' : List A) : Prop where
  frame : ∀ b, b ≠ head → b ∉ O → b ∉ O' → τ.block b = σ.block b
  freed : ∀ b, b ≠ head → b ∈ O → b ∉ O' → τ.block b = none
  fresh : ∀ b, b ≠ head → b ∈ O' → b ∉ O → σ.block b = none
  nameAt : τ.nameAt head = σ.nameAt head

namespace Footprint

variable {σ τ υ : Heap A V} {head : A} {O P O' P' : List A}

theorem refl (σ : Heap A V) (head : A) (O : List A) : Footprint σ σ head O O where
  frame _ _ _ _ := rfl
  freed _ _ hin hout := absurd hin hout
  fresh _ _ hin hout := absurd hin hout
  nameAt := rfl

/-- One change after the other. A block that came in the first and left in the
second was free before and is free after. -/
theorem trans (h : Footprint σ τ head O P) (h' : Footprint τ υ head P P') :
    Footprint σ υ head O P' where
  frame b hb hO hP' := by
    by_cases hP : b ∈ P
    · rw [h'.freed b hb hP hP', h.fresh b hb hP hO]
    · rw [h'.frame b hb hP hP', h.frame b hb hO hP]
  freed b hb hO hP' := by
    by_cases hP : b ∈ P
    · exact h'.freed b hb hP hP'
    · rw [h'.frame b hb hP hP', h.freed b hb hO hP]
  fresh b hb hP' hO := by
    by_cases hP : b ∈ P
    · exact h.fresh b hb hP hO
    · rw [← h.frame b hb hO hP, h'.fresh b hb hP' hP]
  nameAt := h'.nameAt.trans h.nameAt

/-- Other blocks may be counted in, on both sides. -/
theorem weaken (h : Footprint σ τ head O O') (hframe : ∀ b, b ∉ P → b ∉ P' → b ∉ O ∧ b ∉ O')
    (hfreed : ∀ b, b ∈ P → b ∉ P' → b ∈ O ∧ b ∉ O')
    (hfresh : ∀ b, b ∈ P' → b ∉ P → b ∈ O' ∧ b ∉ O) : Footprint σ τ head P P' where
  frame b hb hP hP' := h.frame b hb (hframe b hP hP').1 (hframe b hP hP').2
  freed b hb hP hP' := h.freed b hb (hfreed b hP hP').1 (hfreed b hP hP').2
  fresh b hb hP' hP := h.fresh b hb (hfresh b hP' hP).1 (hfresh b hP' hP).2
  nameAt := h.nameAt

/-- A part of a larger structure: its head is a block of the larger one. -/
theorem inner {c : A} (h : Footprint σ τ c O O') (hname : τ.nameAt head = σ.nameAt head) :
    Footprint σ τ head (c :: O) (c :: O') where
  frame b _ hO hO' :=
    h.frame b (List.ne_of_not_mem_cons hO) (List.not_mem_of_not_mem_cons hO)
      (List.not_mem_of_not_mem_cons hO')
  freed b _ hO hO' := by
    have hb := List.ne_of_not_mem_cons hO'
    exact h.freed b hb (List.mem_of_ne_of_mem hb hO) (List.not_mem_of_not_mem_cons hO')
  fresh b _ hO' hO := by
    have hb := List.ne_of_not_mem_cons hO
    exact h.fresh b hb (List.mem_of_ne_of_mem hb hO') (List.not_mem_of_not_mem_cons hO)
  nameAt := hname

end Footprint

/-- The blocks `own` are free in `τ`; all others are as in `σ`. -/
structure Frees (own : List A) (σ τ : Heap A V) : Prop where
  freed : ∀ b ∈ own, τ.block b = none
  frame : ∀ b, b ∉ own → τ.block b = σ.block b

/-- A cleanup function frees the blocks `own` of a value; there are none if it is
`NULL`. -/
def Cleans (cleanup : Option (A → Heap A V → Option (Heap A V))) (value : A) (own : List A)
    (σ : Heap A V) : Prop :=
  match cleanup with
  | none => own = []
  | some f => ∃ τ, f value σ = some τ ∧ Frees own σ τ

section Specs

variable [DecidableEq A] {σ : Heap A V} {head : A} {items : List (Item A)}

theorem listAdd_spec {a : A} {node : ListNode A} (h : Nodes σ head items)
    (ha : σ.nodeAt a = some node) (hfresh : a ∉ head :: items.map Item.node) :
    ∃ τ, listAdd σ head a = some τ ∧ Relinked (a :: head :: items.map Item.node) σ τ ∧
      LinkRing τ.links head (items.map Item.node ++ [a]) := by
  set last := (items.map Item.node).getLastD head with hlast
  have hprev : σ.links.prev head = some last := h.ring.prev_head
  have hne : head ≠ a := by
    rintro rfl
    exact hfresh List.mem_cons_self
  have hlastmem : last ∈ head :: items.map Item.node := by
    rcases List.eq_nil_or_concat' items with rfl | ⟨ys, i, rfl⟩
    · simp [hlast]
    · simp [hlast]
  have hlastne : last ≠ a := by
    rintro heq
    exact hfresh (heq ▸ hlastmem)
  -- the four assignments, in the order of the source
  obtain ⟨σ₁, hrun₁, hrel₁, hnext₁, hprev₁⟩ := setNext_spec ha head
  obtain ⟨node₁, hnode₁⟩ := hrel₁.exists_nodeAt ha
  obtain ⟨σ₂, hrun₂, hrel₂, hnext₂, hprev₂⟩ := setPrev_spec hnode₁ last
  obtain ⟨nodeLast, hnodeLast⟩ := h.exists_last
  rw [← hlast] at hnodeLast
  obtain ⟨nodeLast₁, hnodeLast₁⟩ := hrel₁.exists_nodeAt hnodeLast
  obtain ⟨nodeLast₂, hnodeLast₂⟩ := hrel₂.exists_nodeAt hnodeLast₁
  obtain ⟨σ₃, hrun₃, hrel₃, hnext₃, hprev₃⟩ := setNext_spec hnodeLast₂ a
  obtain ⟨nodeHead, hnodeHead, -⟩ := h.exists_head
  obtain ⟨nodeHead₁, hnodeHead₁⟩ := hrel₁.exists_nodeAt hnodeHead
  obtain ⟨nodeHead₂, hnodeHead₂⟩ := hrel₂.exists_nodeAt hnodeHead₁
  obtain ⟨nodeHead₃, hnodeHead₃⟩ := hrel₃.exists_nodeAt hnodeHead₂
  obtain ⟨τ, hrun₄, hrel₄, hnext₄, hprev₄⟩ := setPrev_spec hnodeHead₃ a
  have hread₁ : σ₁.links.prev head = some last := by rw [hprev₁, hprev]
  have hread₂ : σ₂.links.prev head = some last := by
    rw [hprev₂, Function.update_of_ne hne, hread₁]
  have hnextτ : τ.links.next =
      Function.update (Function.update σ.links.next a (some head)) last (some a) := by
    rw [hnext₄, hnext₃, hnext₂, hnext₁]
  have hprevτ : τ.links.prev =
      Function.update (Function.update σ.links.prev a (some last)) head (some a) := by
    rw [hprev₄, hprev₃, hprev₂, hprev₁]
  refine ⟨τ, ?_, ?_, ?_⟩
  · simp only [listAdd, hrun₁, hread₁, hrun₂, hread₂, hrun₃, hrun₄, Option.bind_eq_bind,
      Option.bind_some]
  · have hin : ∀ c ∈ head :: items.map Item.node,
        [c] ⊆ a :: head :: items.map Item.node := by
      intro c hc
      exact List.cons_subset.mpr ⟨List.mem_cons_of_mem a hc, List.nil_subset _⟩
    have hself : [a] ⊆ a :: head :: items.map Item.node := by simp
    exact (hrel₁.mono hself).trans ((hrel₂.mono hself).trans
      ((hrel₃.mono (hin last hlastmem)).trans (hrel₄.mono (hin head List.mem_cons_self))))
  · refine h.ring.concat hfresh ⟨?_, ?_⟩ ⟨?_, ?_⟩ ?_ ?_
    · rw [hnextτ, Function.update_self]
    · rw [hprevτ, Function.update_of_ne hne.symm, Function.update_self]
    · rw [hnextτ, Function.update_of_ne hlastne.symm, Function.update_self]
    · rw [hprevτ, Function.update_self]
    · intro c hc hclast
      have hca : c ≠ a := by
        rintro rfl
        exact hfresh hc
      rw [hnextτ, Function.update_of_ne hclast, Function.update_of_ne hca]
    · intro c hc hchead
      have hca : c ≠ a := by
        rintro rfl
        exact hfresh hc
      rw [hprevτ, Function.update_of_ne hchead, Function.update_of_ne hca]

/-- `list_add_value` puts a node with the value at the end. -/
theorem listAddValue_spec {a : A} {rest : List A} (h : Nodes σ head items)
    (hmallocs : σ.mallocs = a :: rest) (hfree : σ.block a = none) (value : A) (count : Int) :
    ∃ τ, listAddValue σ head value count = some (a, τ) ∧
      Nodes τ head (items ++ [⟨a, value, count⟩]) ∧ τ.mallocs = rest ∧
      Footprint σ τ head (items.map Item.node) (items.map Item.node ++ [a]) := by
  let node : ListNode A := { value := some value, refcount := count, next := a, prev := a }
  let σ₀ : Heap A V := { σ.put a (some (.listNode node)) with mallocs := rest }
  have hself : σ₀.block a = some (.listNode node) := σ.put_block_self a _
  have hother : ∀ b, b ≠ a → σ₀.block b = σ.block b := fun b hb => σ.put_block_ne _ hb
  have hdead : ∀ b, b ∈ head :: items.map Item.node → b ≠ a := by
    rintro b hb rfl
    rcases List.mem_cons.mp hb with rfl | hb
    · obtain ⟨node, hnode, -⟩ := h.exists_head
      exact Heap.block_ne_none hnode hfree
    · obtain ⟨i, hi, rfl⟩ := List.mem_map.mp hb
      obtain ⟨node, hnode, -⟩ := Heap.nodeAt_of_contents (h.contents i hi)
      exact Heap.block_ne_none hnode hfree
  have hnodes₀ : Nodes σ₀ head items :=
    h.frame fun b hb => Heap.nodeAt_congr (hother b (hdead b hb))
  have hnode₀ : σ₀.nodeAt a = some node := by
    rw [Heap.nodeAt, hself]
    rfl
  obtain ⟨τ, hrun, hrel, hring⟩ :=
    listAdd_spec hnodes₀ hnode₀ fun hmem => hdead a hmem rfl
  refine ⟨τ, ?_, ⟨by simpa using hring, ?_⟩, hrel.mallocs, ?_, ?_, ?_, ?_⟩
  · rw [listAddValue, Heap.malloc_eq hmallocs hfree]
    show (do return (a, ← listAdd σ₀ head a)) = some (a, τ)
    rw [hrun]
    rfl
  · intro i hi
    rw [hrel.contents]
    rcases List.mem_append.mp hi with hi | hi
    · exact hnodes₀.contents i hi
    · rw [List.mem_singleton.mp hi, Heap.contents, hnode₀]
      rfl
  · intro b hb hO hO'
    have hba : b ≠ a := by
      rintro rfl
      exact hO' (by simp)
    rw [hrel.block b (by simpa [hba, hb] using hO), hother b hba]
  · intro b _ hO hO'
    exact absurd (by simpa using Or.inl hO) hO'
  · intro b _ hO' hO
    have hba : b = a := by simpa [hO] using hO'
    rw [hba, hfree]
  · rw [hrel.nameAt]
    exact Heap.nameAt_congr (hother head (hdead head List.mem_cons_self))

/-- A new count in one node. -/
theorem setRefcount_spec {ys zs : List (Item A)} {i : Item A} (h : Nodes σ head (ys ++ i :: zs))
    (count : Int) :
    ∃ τ, σ.setRefcount i.node count = some τ ∧
      Nodes τ head (ys ++ { i with refcount := count } :: zs) ∧
      ∀ b, b ≠ i.node → τ.block b = σ.block b := by
  obtain ⟨node, hnode, hpair⟩ := Heap.nodeAt_of_contents (h.contents i (by simp))
  have hvalue : node.value = some i.value := congrArg Prod.fst hpair
  have hnodeAt : ∀ c, (σ.putNode i.node { node with refcount := count }).nodeAt c =
      if c = i.node then some { node with refcount := count } else σ.nodeAt c := by
    intro c
    rw [Heap.putNode_nodeAt, hnode, Option.map_some]
  have hlinks : (σ.putNode i.node { node with refcount := count }).links = σ.links := by
    simp only [Heap.links, hnodeAt]
    congr 1
    · funext c
      split
      · rename_i hc
        rw [hc, hnode, Option.map_some, Option.map_some]
      · rfl
    · funext c
      split
      · rename_i hc
        rw [hc, hnode, Option.map_some, Option.map_some]
      · rfl
  have hnodup := h.ring.nodup
  rw [List.map_append, List.map_cons, ← List.cons_append, List.nodup_middle,
    List.nodup_cons] at hnodup
  refine ⟨σ.putNode i.node { node with refcount := count }, by rw [Heap.setRefcount, hnode,
    Option.map_some], ⟨?_, ?_⟩, fun b hb => σ.putNode_block_ne _ hb⟩
  · rw [hlinks]
    simpa using h.ring
  · intro j hj
    simp only [Heap.contents, hnodeAt]
    by_cases hji : j = { i with refcount := count }
    · rw [hji, if_pos rfl, Option.map_some, hvalue]
    · have hj' : j ∈ ys ++ zs := by
        simp only [List.mem_append, List.mem_cons] at hj ⊢
        tauto
      have hne : j.node ≠ i.node := by
        intro heq
        refine hnodup.1 ?_
        rw [← heq, List.cons_append, ← List.map_append]
        exact List.mem_cons_of_mem _ (List.mem_map_of_mem hj')
      rw [if_neg hne]
      refine h.contents j ?_
      simp only [List.mem_append, List.mem_cons] at hj' ⊢
      tauto

/-- `list_remove` takes a node out, wherever it stands. -/
theorem unlink_spec {ys zs : List (Item A)} {i : Item A} (h : Nodes σ head (ys ++ i :: zs)) :
    ∃ τ, unlink σ i.node = some τ ∧ Nodes τ head (ys ++ zs) ∧
      Relinked (head :: (ys ++ zs).map Item.node) σ τ := by
  set before := (ys.map Item.node).getLastD head with hbefore
  set after := (zs.map Item.node).headD head with hafter
  have hring : LinkRing σ.links head (ys.map Item.node ++ i.node :: zs.map Item.node) := by
    simpa using h.ring
  obtain ⟨⟨hnextBefore, hprev⟩, ⟨hnext, hprevAfter⟩⟩ := hring.linked_of_split
  rw [← hbefore] at hnextBefore hprev
  rw [← hafter] at hnext hprevAfter
  have hbeforemem : before ∈ head :: (ys ++ zs).map Item.node := by
    rcases List.eq_nil_or_concat' ys with rfl | ⟨ys', y, rfl⟩
    · simp [hbefore]
    · simp [hbefore]
  have haftermem : after ∈ head :: (ys ++ zs).map Item.node := by
    cases zs with
    | nil => simp [hafter]
    | cons z zs => simp [hafter]
  have hnot : i.node ∉ head :: (ys ++ zs).map Item.node := by
    have hnodup := hring.nodup
    rw [← List.cons_append, List.nodup_middle, List.nodup_cons] at hnodup
    simpa using hnodup.1
  have hne : ∀ c ∈ head :: (ys ++ zs).map Item.node, i.node ≠ c := by
    rintro c hc rfl
    exact hnot hc
  obtain ⟨node, hnode, -⟩ := Heap.nodeAt_of_next hnextBefore
  obtain ⟨σ₁, hrun₁, hrel₁, hnext₁, hprev₁⟩ := setNext_spec hnode after
  have hreadNext : σ₁.links.next i.node = some after := by
    rw [hnext₁, Function.update_of_ne (hne before hbeforemem), hnext]
  have hreadPrev : σ₁.links.prev i.node = some before := by rw [hprev₁, hprev]
  obtain ⟨node', hnode', -⟩ := Heap.nodeAt_of_prev hprevAfter
  obtain ⟨node₁, hnode₁⟩ := hrel₁.exists_nodeAt hnode'
  obtain ⟨τ, hrun₂, hrel₂, hnext₂, hprev₂⟩ := setPrev_spec hnode₁ before
  have hrel : Relinked (head :: (ys ++ zs).map Item.node) σ τ :=
    (hrel₁.mono (List.cons_subset.mpr ⟨hbeforemem, List.nil_subset _⟩)).trans
      (hrel₂.mono (List.cons_subset.mpr ⟨haftermem, List.nil_subset _⟩))
  have hnextτ : τ.links.next = Function.update σ.links.next before (some after) := by
    rw [hnext₂, hnext₁]
  have hprevτ : τ.links.prev = Function.update σ.links.prev after (some before) := by
    rw [hprev₂, hprev₁]
  refine ⟨τ, ?_, ?_, hrel⟩
  · simp only [unlink, hprev, hnext, hrun₁, hreadNext, hreadPrev, hrun₂, Option.bind_eq_bind,
      Option.bind_some]
  · refine h.relink hrel ?_ ?_
    · rw [List.map_append]
      refine hring.unlink ⟨?_, ?_⟩ ?_ ?_
      · rw [hnextτ, ← hbefore, Function.update_self]
      · rw [hprevτ, ← hafter, Function.update_self]
      · intro c _ hc
        rw [hnextτ, Function.update_of_ne hc]
      · intro c _ hc
        rw [hprevτ, Function.update_of_ne hc]
    · intro j hj
      simp only [List.mem_append, List.mem_cons] at hj ⊢
      tauto

/-- `free` of a live block. -/
theorem free_spec {a : A} (h : σ.block a ≠ none) : ∃ τ, σ.free a = some τ ∧ Frees [a] σ τ := by
  obtain ⟨b, hb⟩ := Option.ne_none_iff_exists'.mp h
  refine ⟨σ.put a none, by rw [Heap.free, hb, Option.map_some], ?_, ?_⟩
  · intro c hc
    rw [List.mem_singleton.mp hc, Heap.put_block_self]
  · intro c hc
    exact σ.put_block_ne none (by simpa using hc)

/-- `list_remove_free` takes a node out, cleans up what it points to and frees
it. -/
theorem listRemoveFree_spec {ys zs : List (Item A)} {i : Item A} {own : List A}
    {cleanup : Option (A → Heap A V → Option (Heap A V))} (h : Nodes σ head (ys ++ i :: zs))
    (hown : ∀ b ∈ own, b ∉ head :: (ys ++ i :: zs).map Item.node)
    (hclean : ∀ σ₁ : Heap A V,
      (∀ b, b ∉ head :: (ys ++ zs).map Item.node → σ₁.block b = σ.block b) →
        Cleans cleanup i.value own σ₁) :
    ∃ τ, listRemoveFree σ i.node cleanup = some τ ∧ Nodes τ head (ys ++ zs) ∧
      Footprint σ τ head (i.node :: own ++ (ys ++ zs).map Item.node)
        ((ys ++ zs).map Item.node) := by
  obtain ⟨σ₁, hunlink, hnodes₁, hrel⟩ := unlink_spec h
  have hi : i.node ∉ head :: (ys ++ zs).map Item.node := by
    have hnodup := h.ring.nodup
    rw [List.map_append, List.map_cons, ← List.cons_append, List.nodup_middle,
      List.nodup_cons] at hnodup
    simpa using hnodup.1
  have hiown : i.node ∉ own := fun hmem => hown i.node hmem (by simp)
  have hcontents : σ₁.contents i.node = some (some i.value, i.refcount) := by
    rw [hrel.contents]
    exact h.contents i (by simp)
  obtain ⟨node, hnode, hpair⟩ := Heap.nodeAt_of_contents hcontents
  have hvalue : node.value = some i.value := congrArg Prod.fst hpair
  -- the cleanup leaves the node where it is
  have hmiddle : ∃ σ₂, listRemove σ i.node cleanup = some σ₂ ∧ Frees own σ₁ σ₂ := by
    have hcl := hclean σ₁ hrel.block
    cases cleanup with
    | none =>
        have hnil : own = [] := hcl
        refine ⟨σ₁, by simp only [listRemove, hunlink, Option.bind_eq_bind, Option.bind_some,
          Option.pure_def], ?_, fun _ _ => rfl⟩
        intro b hb
        rw [hnil] at hb
        cases hb
    | some f =>
        obtain ⟨σ₂, hrun, hfrees⟩ := hcl
        exact ⟨σ₂, by simp only [listRemove, hunlink, hnode, hvalue, hrun, Option.bind_eq_bind,
          Option.bind_some], hfrees⟩
  obtain ⟨σ₂, hremove, hfrees⟩ := hmiddle
  have hlive : σ₂.block i.node ≠ none := by
    rw [hfrees.frame i.node hiown]
    exact Heap.block_ne_none hnode
  obtain ⟨τ, hfree, hfreed⟩ := free_spec hlive
  have hτ : ∀ b, b ∉ i.node :: own → τ.block b = σ₁.block b := by
    intro b hb
    have hne := List.ne_of_not_mem_cons hb
    rw [hfreed.frame b (by simpa using hne), hfrees.frame b (List.not_mem_of_not_mem_cons hb)]
  have hkept : ∀ b ∈ head :: (ys ++ zs).map Item.node, b ∉ i.node :: own := by
    intro b hb hmem
    rcases List.mem_cons.mp hmem with rfl | hmem
    · exact hi hb
    · refine hown b hmem ?_
      simp only [List.map_append, List.map_cons, List.mem_cons, List.mem_append] at hb ⊢
      tauto
  refine ⟨τ, by simp only [listRemoveFree, hremove, hfree, Option.bind_eq_bind,
    Option.bind_some], hnodes₁.frame fun b hb => Heap.nodeAt_congr (hτ b (hkept b hb)), ?_, ?_, ?_,
    ?_⟩
  · intro b hb hO hO'
    have hnot : b ∉ i.node :: own := fun hmem => hO (List.mem_append_left _ hmem)
    rw [hτ b hnot, hrel.block b (List.not_mem_cons_of_ne_of_not_mem hb hO')]
  · intro b _ hO hO'
    rcases List.mem_append.mp hO with hmem | hmem
    · by_cases hbi : b = i.node
      · exact hfreed.freed b (by simp [hbi])
      · rw [hfreed.frame b (by simpa using hbi)]
        exact hfrees.freed b (List.mem_of_ne_of_mem hbi hmem)
    · exact absurd hmem hO'
  · intro b _ hO' hO
    exact absurd (List.mem_append_right _ hO') hO
  · rw [Heap.nameAt_congr (hτ head (hkept head List.mem_cons_self)), hrel.nameAt]

theorem listEmpty_spec (h : Nodes σ head items) : listEmpty σ head = some items.isEmpty := by
  obtain ⟨node, hnode, hnext⟩ := h.exists_head
  simp only [listEmpty, hnode, Option.bind_eq_bind, Option.bind_some, Option.pure_def,
    Option.some.injEq, hnext]
  cases items with
  | nil => simp
  | cons i items =>
      have hne : i.node ≠ head := fun heq =>
        h.ring.head_notMem (heq ▸ by simp)
      simp [hne]

theorem listFirst_spec (h : Nodes σ head items) :
    listFirst σ head = some (items.head?.map Item.node) := by
  obtain ⟨node, hnode, hnext⟩ := h.exists_head
  simp only [listFirst, listEmpty_spec h, hnode, Option.bind_eq_bind, Option.bind_some]
  cases items with
  | nil => rfl
  | cons i items => simp [hnext]

/-- The loop of `list_find` looks at the nodes that are left, in order. -/
theorem listFindLoop_spec {ι : Type} {l : List ι} {item : ι → Item A}
    {equalFunc : A → Option Bool} {p : ι → Bool} (h : Nodes σ head (l.map item))
    (hequal : ∀ i ∈ l, equalFunc (item i).value = some (p i)) :
    ∀ (zs ys : List ι), l = ys ++ zs → ∀ fuel, zs.length < fuel →
      listFindLoop σ head equalFunc fuel ((zs.map fun i => (item i).node).headD head) =
        some ((zs.find? p).map fun i => (item i).node)
  | [], _, _, 0, hfuel => absurd hfuel (Nat.not_lt_zero _)
  | [], _, _, _ + 1, _ => by simp [listFindLoop]
  | i :: zs, ys, hsplit, fuel + 1, hfuel => by
      have hi : i ∈ l := by simp [hsplit]
      have hitem : item i ∈ l.map item := List.mem_map_of_mem hi
      have hne : (item i).node ≠ head := fun heq =>
        h.ring.head_notMem (heq ▸ List.mem_map_of_mem hitem)
      have hlinked : σ.links.next (item i).node =
          some ((zs.map fun i => (item i).node).headD head) := by
        have hring : LinkRing σ.links head ((ys.map fun i => (item i).node) ++
            (item i).node :: zs.map fun i => (item i).node) := by
          have hring := h.ring
          rwa [hsplit, List.map_map, List.map_append, List.map_cons] at hring
        exact hring.linked_of_split.2.1
      obtain ⟨node, hnode, hnext⟩ := Heap.nodeAt_of_next hlinked
      have hvalue : node.value = some (item i).value := by
        have hcontents := h.contents (item i) hitem
        rw [Heap.contents, hnode, Option.map_some, Option.some.injEq, Prod.mk.injEq] at hcontents
        exact hcontents.1
      have ih := listFindLoop_spec h hequal zs (ys ++ [i]) (by simp [hsplit]) fuel
        (by simpa using hfuel)
      simp only [List.map_cons, List.headD_cons, listFindLoop, if_neg hne, hnode, hvalue,
        hequal i hi, Option.bind_eq_bind, Option.bind_some, List.find?_cons]
      cases p i with
      | true => simp
      | false => simpa [hnext] using ih

/-- `list_find` finds the first node whose value is equal. -/
theorem listFind_spec {ι : Type} {l : List ι} {item : ι → Item A} {equalFunc : A → Option Bool}
    {p : ι → Bool} {fuel : Nat} (h : Nodes σ head (l.map item))
    (hequal : ∀ i ∈ l, equalFunc (item i).value = some (p i)) (hfuel : l.length < fuel) :
    listFind σ head equalFunc fuel = some ((l.find? p).map fun i => (item i).node) := by
  obtain ⟨node, hnode, hnext⟩ := h.exists_head
  rw [List.map_map] at hnext
  have hloop := listFindLoop_spec h hequal l [] rfl fuel hfuel
  simp only [listFind, hnode, Option.bind_eq_bind, Option.bind_some, hnext]
  exact hloop

/-- `list_free` empties the list; what the values own is freed. -/
theorem listFree_spec {ι : Type} {l : List ι} {item : ι → Item A} {own : ι → List A}
    {cleanup : A → Heap A V → Option (Heap A V)} {fuel : Nat} (h : Nodes σ head (l.map item))
    (hdisjoint : ∀ b ∈ l.flatMap own, b ∉ head :: (l.map item).map Item.node)
    (hnodup : (l.flatMap own).Nodup)
    (hclean : ∀ i ∈ l, ∀ σ₁ : Heap A V, (∀ b ∈ own i, σ₁.block b = σ.block b) →
      Cleans (some cleanup) (item i).value (own i) σ₁)
    (hfuel : l.length < fuel) :
    ∃ τ, listFree head cleanup fuel σ = some τ ∧ Nodes τ head [] ∧
      Footprint σ τ head ((l.map item).map Item.node ++ l.flatMap own) [] := by
  induction l generalizing σ fuel with
  | nil =>
      obtain ⟨fuel, rfl⟩ : ∃ n, fuel = n + 1 := ⟨fuel - 1, by simp at hfuel; omega⟩
      refine ⟨σ, ?_, h, Footprint.refl σ head []⟩
      simp only [listFree, listEmpty_spec h, Option.bind_eq_bind, Option.bind_some]
      rfl
  | cons i rest ih =>
      obtain ⟨fuel, rfl⟩ : ∃ n, fuel = n + 1 := ⟨fuel - 1, by simp at hfuel; omega⟩
      obtain ⟨node, hnode, hnext⟩ := h.exists_head
      have hnext : node.next = (item i).node := hnext
      rw [List.flatMap_cons, List.nodup_append] at hnodup
      rw [List.flatMap_cons] at hdisjoint
      obtain ⟨-, hnodupRest, hapart⟩ := hnodup
      have hownhead : ∀ b ∈ own i, b ∉ head :: ((i :: rest).map item).map Item.node :=
        fun b hb => hdisjoint b (List.mem_append_left _ hb)
      have hrest : ∀ b ∈ head :: (rest.map item).map Item.node,
          b ∈ head :: ((i :: rest).map item).map Item.node := fun b hb =>
        ((((List.sublist_cons_self i rest).map item).map Item.node).cons_cons head).subset hb
      have hdisjointRest : ∀ b ∈ rest.flatMap own, b ∉ head :: (rest.map item).map Item.node :=
        fun b hb hmem => hdisjoint b (List.mem_append_right _ hb) (hrest b hmem)
      obtain ⟨σ₁, hrun, hnodes₁, hfoot⟩ := @listRemoveFree_spec A V _ σ head [] (rest.map item)
        (item i) (own i) (some cleanup) h hownhead fun σ₁ hσ₁ =>
          hclean i List.mem_cons_self σ₁ fun b hb => hσ₁ b fun hmem =>
            hownhead b hb (hrest b hmem)
      simp only [List.nil_append] at hnodes₁ hfoot
      -- what the other items own is as it was
      have hkept : ∀ b ∈ rest.flatMap own, σ₁.block b = σ.block b := by
        intro b hb
        have hnot := hdisjoint b (List.mem_append_right _ hb)
        have hne := List.ne_of_not_mem_cons hnot
        have hnodes := List.not_mem_of_not_mem_cons hnot
        refine hfoot.frame b hne ?_ ?_
        · intro hmem
          rcases List.mem_append.mp hmem with hmem | hmem
          · rcases List.mem_cons.mp hmem with rfl | hmem
            · exact hnodes (by simp)
            · exact hapart b hmem b hb rfl
          · exact hnodes (List.mem_cons_of_mem _ hmem)
        · intro hmem
          exact hnodes (List.mem_cons_of_mem _ hmem)
      obtain ⟨τ, hfree, hnil, hfoot'⟩ := ih hnodes₁ hdisjointRest hnodupRest
        (fun j hj σ₂ hσ₂ => hclean j (List.mem_cons_of_mem i hj) σ₂ fun b hb => by
          rw [hσ₂ b hb, hkept b (List.mem_flatMap.mpr ⟨j, hj, hb⟩)])
        (by simpa using hfuel)
      refine ⟨τ, ?_, hnil, ?_⟩
      · rw [listFree, listEmpty_spec h]
        simp only [List.map_cons, List.isEmpty_cons, hnode, hnext, hrun, hfree,
          Option.bind_eq_bind, Option.bind_some]
        rfl
      · refine (hfoot.weaken ?_ ?_ ?_).trans hfoot'
        · intro b hP hP'
          simp only [List.map_cons, List.flatMap_cons, List.mem_append, List.mem_cons, not_or]
            at hP hP' ⊢
          tauto
        · intro b hP hP'
          simp only [List.map_cons, List.flatMap_cons, List.mem_append, List.mem_cons, not_or]
            at hP hP' ⊢
          tauto
        · intro b hP' hP
          simp only [List.map_cons, List.flatMap_cons, List.mem_append, List.mem_cons, not_or]
            at hP hP'
          tauto

end Specs

end TraceRecorderTests.Cmocka
