import TraceRecorderTests.Cmocka.SymbolRemove

/-!
# Clearing a symbol map before the leftovers are counted

At the end of a test `remove_always_return_values` drops the first value of every
queue if it may be served any number of times and is not owed any more
(`removeAlwaysReturnValues_spec`); what is left then is reported
(`checkForLeftoverValues_spec`). Only the first value of a queue is looked at.
-/

namespace TraceRecorderTests.Cmocka

variable {A V : Type}

/-- A queue without its first value, if that has a count below -1. -/
def dropAlways : List (V × Int) → List (V × Int)
  | [] => []
  | (v, count) :: rest => if count < -1 then rest else (v, count) :: rest

section Sweep

variable [DecidableEq A] {n : Nat}

/-- `f` drops the first value of every queue that may be dropped, in maps of
depth `n`. -/
def Sweeps (f : Heap A V → A → Option (Heap A V)) (fuel : Nat) (n : Nat) : Prop :=
  ∀ (σ : Heap A V) (head : A) (t : Tree A V n),
    Rep σ n head t → t.Tidy n → (head :: t.blocks n).Nodup → (n = 0 → t.items n ≠ []) →
    (t.blocks n).length < fuel →
    ∃ (τ : Heap A V) (t' : Tree A V n), f σ head = some τ ∧ Rep τ n head t' ∧ t'.Tidy n ∧
      (head :: t'.blocks n).Nodup ∧ Footprint σ τ head (t.blocks n) (t'.blocks n) ∧
      (t'.blocks n).length ≤ (t.blocks n).length ∧
      t'.queue n = fun names => dropAlways (t.queue n names)

/-- At the last level the first node is dropped, or stays. -/
theorem sweeps_removeAlwaysFirst (fuel : Nat) :
    Sweeps (removeAlwaysFirst (A := A) (V := V)) fuel 0 := by
  intro σ head t h _ hnodup hne _
  obtain ⟨e, rest, rfl⟩ : ∃ (e : Leaf A V) (rest : List (Leaf A V)), t = e :: rest := by
    cases t with
    | nil => exact absurd rfl (hne rfl)
    | cons e rest => exact ⟨e, rest, rfl⟩
  have hnodes : Nodes σ head (e.item :: List.map Leaf.item rest) := h.1
  obtain ⟨headNode, hheadNode, hnext⟩ := hnodes.exists_head
  have hnext : headNode.next = e.node := hnext
  obtain ⟨node, hnode, hpair⟩ :=
    Heap.nodeAt_of_contents (hnodes.contents e.item List.mem_cons_self)
  have hnode : σ.nodeAt e.node = some node := hnode
  have hcount : node.refcount = e.refcount := congrArg Prod.snd hpair
  simp only [removeAlwaysFirst, hheadNode, hnext, hnode, hcount, Option.bind_eq_bind,
    Option.bind_some]
  by_cases hdrop : e.refcount < -1
  · obtain ⟨τ, hrun, hrep, hnodup', hfoot⟩ := @Rep.freeLeaf A V _ σ head [] rest e h hnodup
    refine ⟨τ, rest, by rw [if_pos hdrop, hrun], hrep, trivial, hnodup', hfoot, ?_, ?_⟩
    · have hlen := (Tree.blocks_leaf_perm [] rest e).length_eq
      simp only [List.nil_append, List.length_cons] at hlen
      omega
    funext names
    cases names with
    | nil => simp [Tree.queue, dropAlways, hdrop]
    | cons s path => rfl
  · refine ⟨σ, e :: rest, by rw [if_neg hdrop], h, trivial, hnodup, Footprint.refl σ head _,
      le_refl _, ?_⟩
    funext names
    cases names with
    | nil => simp [Tree.queue, dropAlways, hdrop]
    | cons s path => rfl

omit [DecidableEq A] in
/-- The node of a symbol leads to its list, and on to the next symbol. -/
theorem nodeAt_branch_next {σ : Heap A V} {head : A} {ys zs : List (Branch A (Tree A V n))}
    {e : Branch A (Tree A V n)} (h : Rep σ (n + 1) head (ys ++ e :: zs)) :
    ∃ node, σ.nodeAt e.node = some node ∧ node.value = some e.block ∧
      node.next = (zs.map Branch.node).headD head := by
  obtain ⟨node, hnode, hvalue⟩ := nodeAt_branch h
  have hring : Base.LinkRing σ.links head (ys.map Branch.node ++ e.node :: zs.map Branch.node) := by
    have h1 : Nodes σ head (List.map Branch.item (ys ++ e :: zs)) := h.1
    have hring := h1.ring
    rwa [map_node_branch_item, List.map_append, List.map_cons] at hring
  obtain ⟨node', hnode', hnext⟩ := Heap.nodeAt_of_next hring.linked_of_split.2.1
  rw [hnode, Option.some.injEq] at hnode'
  exact ⟨node, hnode, hvalue, hnode' ▸ hnext⟩

omit [DecidableEq A] in
/-- The node of a value leads to it, and on to the next node. -/
theorem nodeAt_leaf {σ : Heap A V} {head : A} {ys zs : List (Leaf A V)} {e : Leaf A V}
    (h : Rep σ 0 head (ys ++ e :: zs)) :
    ∃ node, σ.nodeAt e.node = some node ∧ node.value = some e.ptr ∧
      node.refcount = e.refcount ∧ node.next = (zs.map Leaf.node).headD head := by
  have hnodes : Nodes σ head (List.map Leaf.item (ys ++ e :: zs)) := h.1
  obtain ⟨node, hnode, hpair⟩ := Heap.nodeAt_of_contents (hnodes.contents e.item (by simp))
  have hring : Base.LinkRing σ.links head (ys.map Leaf.node ++ e.node :: zs.map Leaf.node) := by
    have hring := hnodes.ring
    rwa [map_node_leaf_item, List.map_append, List.map_cons] at hring
  obtain ⟨node', hnode', hnext⟩ := Heap.nodeAt_of_next hring.linked_of_split.2.1
  have hnode : σ.nodeAt e.node = some node := hnode
  rw [hnode, Option.some.injEq] at hnode'
  exact ⟨node, hnode, congrArg Prod.fst hpair, congrArg Prod.snd hpair, hnode' ▸ hnext⟩

/-- The loop of `remove_always_return_values_from_list`: the values in front of
`zs` are done. -/
theorem removeAlwaysFromListLoop_spec {head : A} : ∀ (zs ys : List (Leaf A V)) (σ : Heap A V)
    (rounds : Nat), Rep σ 0 head (ys ++ zs) → (head :: Tree.blocks 0 (ys ++ zs)).Nodup →
    zs.length < rounds →
    ∃ τ, removeAlwaysFromListLoop head rounds ((zs.map Leaf.node).headD head) σ = some τ ∧
      Rep τ 0 head (ys ++ zs.filter fun e => ¬ e.refcount < -1) ∧
      (head :: Tree.blocks 0 (ys ++ zs.filter fun e => ¬ e.refcount < -1)).Nodup ∧
      Footprint σ τ head (Tree.blocks 0 (ys ++ zs))
        (Tree.blocks 0 (ys ++ zs.filter fun e => ¬ e.refcount < -1))
  | _, _, _, 0, _, _, hrounds => absurd hrounds (Nat.not_lt_zero _)
  | [], ys, σ, rounds + 1, h, hnodup, _ =>
      ⟨σ, by simp [removeAlwaysFromListLoop], h, hnodup, Footprint.refl σ head _⟩
  | e :: zs, ys, σ, rounds + 1, h, hnodup, hrounds => by
      obtain ⟨node, hnode, -, hcount, hnext⟩ := nodeAt_leaf h
      have hne : e.node ≠ head := by
        intro heq
        refine (List.nodup_cons.mp hnodup).1 (heq ▸ ?_)
        exact List.mem_append_left _ (List.mem_map_of_mem (by simp))
      have hrounds' : zs.length < rounds := by simpa using hrounds
      have hcurrent : ((e :: zs).map Leaf.node).headD head = e.node := rfl
      rw [hcurrent]
      by_cases hdrop : e.refcount < -1
      · obtain ⟨σ₁, hremove, hrep₁, hnodup₁, hfoot₁⟩ := h.freeLeaf hnodup
        obtain ⟨τ, hloop, hrep, hnodup', hfoot⟩ :=
          removeAlwaysFromListLoop_spec zs ys σ₁ rounds hrep₁ hnodup₁ hrounds'
        have hfilter : ((e :: zs).filter fun e => ¬ e.refcount < -1) =
            zs.filter fun e => ¬ e.refcount < -1 := List.filter_cons_of_neg (by simpa using hdrop)
        rw [hfilter]
        refine ⟨τ, ?_, hrep, hnodup', hfoot₁.trans hfoot⟩
        simp only [removeAlwaysFromListLoop, if_neg hne, hnode, hcount, if_pos hdrop, hremove,
          hnext, hloop, Option.bind_eq_bind, Option.bind_some]
      · have happend : ∀ l : List (Leaf A V), ys ++ e :: l = (ys ++ [e]) ++ l :=
          fun l => by rw [List.append_assoc, List.singleton_append]
        rw [happend zs] at h hnodup
        obtain ⟨τ, hloop, hrep, hnodup', hfoot⟩ :=
          removeAlwaysFromListLoop_spec zs (ys ++ [e]) σ rounds h hnodup hrounds'
        have hfilter : ((e :: zs).filter fun e => ¬ e.refcount < -1) =
            e :: zs.filter fun e => ¬ e.refcount < -1 :=
          List.filter_cons_of_pos (by simpa using hdrop)
        rw [hfilter, happend zs, happend (zs.filter fun e => ¬ e.refcount < -1)]
        refine ⟨τ, ?_, hrep, hnodup', hfoot⟩
        simp only [removeAlwaysFromListLoop, if_neg hne, hnode, hcount, if_neg hdrop, hnext, hloop,
          Option.bind_eq_bind, Option.bind_some]

/-- `remove_always_return_values_from_list` drops every value with a count below
-1, wherever it stands. -/
theorem removeAlwaysReturnValuesFromList_spec {σ : Heap A V} {head : A} {t : List (Leaf A V)}
    {fuel : Nat} (h : Rep σ 0 head t) (hnodup : (head :: Tree.blocks 0 t).Nodup)
    (hfuel : t.length < fuel) :
    ∃ τ, removeAlwaysReturnValuesFromList fuel σ head = some τ ∧
      Rep τ 0 head (t.filter fun e => ¬ e.refcount < -1) ∧
      (head :: Tree.blocks 0 (t.filter fun e => ¬ e.refcount < -1)).Nodup ∧
      Footprint σ τ head (Tree.blocks 0 t)
        (Tree.blocks 0 (t.filter fun e => ¬ e.refcount < -1)) := by
  have hnodes : Nodes σ head (List.map Leaf.item t) := h.1
  obtain ⟨node, hnode, hnext⟩ := hnodes.exists_head
  rw [map_node_leaf_item] at hnext
  obtain ⟨τ, hloop, hrep, hnodup', hfoot⟩ :=
    removeAlwaysFromListLoop_spec t [] σ fuel h hnodup hfuel
  refine ⟨τ, ?_, hrep, hnodup', hfoot⟩
  simp only [removeAlwaysReturnValuesFromList, hnode, hnext, hloop, Option.bind_eq_bind,
    Option.bind_some]

/-- The loop of `remove_always_return_values`: the symbols in front of `zs` are
done, those of `zs` are swept. -/
theorem removeAlwaysLoop_spec {f : Heap A V → A → Option (Heap A V)} {fuel : Nat}
    (hf : Sweeps f fuel n) {head : A} :
    ∀ (zs ys : List (Branch A (Tree A V n))) (σ : Heap A V) (rounds : Nat),
      Rep σ (n + 1) head (ys ++ zs) → (head :: Tree.blocks (n + 1) (ys ++ zs)).Nodup →
      (List.map Branch.name (ys ++ zs)).Nodup →
      (∀ d ∈ zs, d.child.items n ≠ [] ∧ d.child.Tidy n) →
      (Tree.blocks (n + 1) (ys ++ zs)).length < fuel → zs.length < rounds →
      ∃ (τ : Heap A V) (zs' : List (Branch A (Tree A V n))),
        removeAlwaysLoop head f rounds ((zs.map Branch.node).headD head) σ = some τ ∧
        Rep τ (n + 1) head (ys ++ zs') ∧ (head :: Tree.blocks (n + 1) (ys ++ zs')).Nodup ∧
        (zs'.map Branch.name).Sublist (zs.map Branch.name) ∧
        (∀ d ∈ zs', d.child.items n ≠ [] ∧ d.child.Tidy n) ∧
        Footprint σ τ head (Tree.blocks (n + 1) (ys ++ zs)) (Tree.blocks (n + 1) (ys ++ zs')) ∧
        (Tree.blocks (n + 1) (ys ++ zs')).length ≤ (Tree.blocks (n + 1) (ys ++ zs)).length ∧
        Tree.queue (n + 1) zs' = fun names => dropAlways (Tree.queue (n + 1) zs names)
  | _, _, _, 0, _, _, _, _, _, hrounds => absurd hrounds (Nat.not_lt_zero _)
  | [], ys, σ, rounds + 1, h, hnodup, _, _, _, _ => by
      refine ⟨σ, [], ?_, h, hnodup, List.Sublist.refl _, by simp, Footprint.refl σ head _,
        le_refl _, ?_⟩
      · simp [removeAlwaysLoop]
      · funext names
        cases names with
        | nil => rfl
        | cons s path => rfl
  | e :: zs, ys, σ, rounds + 1, h, hnodup, hnames, hchildren, hfuel, hrounds => by
      obtain ⟨node, hnode, hvalue, hnext⟩ := nodeAt_branch_next h
      obtain ⟨hitems, htidyE⟩ := hchildren e List.mem_cons_self
      obtain ⟨-, hchildE⟩ := h.2 e (by simp)
      have hperm := Tree.blocks_perm ys zs e
      have hlen := hperm.length_eq
      simp only [List.length_append, List.length_cons] at hlen
      have hnodupE : (e.block :: e.child.blocks n).Nodup :=
        ((hperm.nodup_iff.mp (List.nodup_cons.mp hnodup).2)).sublist (List.sublist_append_left _ _)
      obtain ⟨σ₁, child, hrun, hrepC, htidyC, hnodupC, hfootC, hsizeC, hqueueC⟩ :=
        hf σ e.block e.child hchildE htidyE hnodupE (fun _ => hitems) (by omega)
      let e' : Branch A (Tree A V n) := { e with child := child }
      obtain ⟨hrep₁, hnodup₁, hfoot₁⟩ := @Rep.replaceChild A V σ σ₁ head n _ ys zs e child
        [] [] h hnodup hrepC hnodupC hfootC
      have hrep₁ : Rep σ₁ (n + 1) head (ys ++ e' :: zs) := hrep₁
      have hnodup₁ : (head :: Tree.blocks (n + 1) (ys ++ e' :: zs)).Nodup := hnodup₁
      have hfoot₁ : Footprint σ σ₁ head (Tree.blocks (n + 1) (ys ++ e :: zs))
        (Tree.blocks (n + 1) (ys ++ e' :: zs)) := hfoot₁
      have hnames' : (List.map Branch.name (ys ++ e' :: zs)).Nodup := by simpa [e'] using hnames
      have hlen' : (Tree.blocks (n + 1) (ys ++ e' :: zs)).length =
          (child.blocks n).length + 1 + (Tree.others n ys e zs).length := by
        have hperm' := (Tree.blocks_perm ys zs e').length_eq
        simp only [List.length_append, List.length_cons] at hperm'
        exact hperm'
      have hchildren' : ∀ d ∈ zs, d.child.items n ≠ [] ∧ d.child.Tidy n := fun d hd =>
        hchildren d (List.mem_cons_of_mem e hd)
      have hrounds' : zs.length < rounds := by simpa using hrounds
      have hne : (e.child.items n).isEmpty = false := by
        simpa [List.isEmpty_eq_false_iff] using hitems
      have hnode' : e.node ≠ head := by
        intro heq
        refine (List.nodup_cons.mp hnodup).1 (heq ▸ ?_)
        exact List.mem_append_left _ (List.mem_map_of_mem (by simp))
      have hcurrent : ((e :: zs).map Branch.node).headD head = e.node := rfl
      rw [hcurrent]
      -- the queues of the symbol, and those of the others
      have hqueueE : ∀ (zs' : List (Branch A (Tree A V n))),
          Tree.queue (n + 1) zs' = (fun names => dropAlways (Tree.queue (n + 1) zs names)) →
          Tree.queue (n + 1) (e' :: zs') =
            fun names => dropAlways (Tree.queue (n + 1) (e :: zs) names) := by
        intro zs' hzs'
        funext names
        cases names with
        | nil => rfl
        | cons s path =>
            rw [Tree.queue_cons, Tree.queue_cons]
            split
            · exact congrFun hqueueC path
            · exact congrFun hzs' (s :: path)
      by_cases hempty : child.items n = []
      · have hblock : σ₁.block e'.block ≠ none := hrepC.live e.block List.mem_cons_self
        obtain ⟨σ₂, hremove, hrep₂, hnodup₂, hfoot₂⟩ := hrep₁.removeBranch hnodup₁ hempty
          (fun σ₂ hσ₂ => cleans_freeValue (by rwa [hσ₂]))
        have hlen₂ : (Tree.blocks (n + 1) (ys ++ zs)).length ≤
            (Tree.blocks (n + 1) (ys ++ e :: zs)).length := by
          simp only [Tree.blocks, List.map_append, List.map_cons, List.flatMap_append,
            List.flatMap_cons, List.length_append, List.length_cons]
          omega
        have hnames₂ : (List.map Branch.name (ys ++ zs)).Nodup :=
          hnames.sublist (((List.sublist_cons_self e zs).append_left ys).map Branch.name)
        obtain ⟨τ, zs', hloop, hrep, hnodup', hsub, htidy', hfoot', hsize, hqueue⟩ :=
          removeAlwaysLoop_spec hf zs ys σ₂ rounds hrep₂ hnodup₂ hnames₂ hchildren' (by omega)
            hrounds'
        refine ⟨τ, zs', ?_, hrep, hnodup', hsub.trans (List.sublist_cons_self _ _), htidy',
          (hfoot₁.trans hfoot₂).trans hfoot', by omega, ?_⟩
        · have hremove : listRemoveFree σ₁ e.node (some freeValue) = some σ₂ := hremove
          simp only [removeAlwaysLoop, if_neg hnode', hnode, hvalue, listEmpty_spec hchildE.nodes,
            hne, hrun, listEmpty_spec hrepC.nodes, hempty, List.isEmpty_nil, hremove, hnext, hloop,
            Option.bind_eq_bind, Option.bind_some, Bool.false_eq_true, if_false, if_true]
        · rw [← hqueueE zs' hqueue]
          have hnames₃ : (List.map Branch.name ([] ++ e' :: zs')).Nodup := by
            rw [List.map_append, List.map_cons] at hnames'
            refine (List.nodup_append.mp hnames').2.1.sublist ?_
            exact hsub.cons_cons e'.name
          exact (@Tree.queue_removeBranch A V n [] zs' e' hnames₃ hempty).symm
      · have hempty' : (child.items n).isEmpty = false := by
          simpa [List.isEmpty_eq_false_iff] using hempty
        have happend : ∀ l : List (Branch A (Tree A V n)), ys ++ e' :: l = (ys ++ [e']) ++ l :=
          fun l => by rw [List.append_assoc, List.singleton_append]
        rw [happend] at hrep₁ hnodup₁ hfoot₁ hnames'
        obtain ⟨τ, zs', hloop, hrep, hnodup', hsub, htidy', hfoot', hsize, hqueue⟩ :=
          removeAlwaysLoop_spec hf zs (ys ++ [e']) σ₁ rounds hrep₁ hnodup₁ hnames' hchildren'
            (by rw [← happend]; omega) hrounds'
        rw [← happend] at hrep hnodup' hfoot' hsize
        rw [← happend] at hfoot' hfoot₁ hsize
        refine ⟨τ, e' :: zs', ?_, hrep, hnodup', hsub.cons_cons e.name, ?_, hfoot₁.trans hfoot',
          by omega, hqueueE zs' hqueue⟩
        · simp only [removeAlwaysLoop, if_neg hnode', hnode, hvalue, listEmpty_spec hchildE.nodes,
            hne, hrun, listEmpty_spec hrepC.nodes, hempty', hnext, hloop,
            Option.bind_eq_bind, Option.bind_some, Bool.false_eq_true, if_false]
        · intro d hd
          rcases List.mem_cons.mp hd with rfl | hd
          · exact ⟨hempty, htidyC⟩
          · exact htidy' d hd

/-- One level of `remove_always_return_values`, over what it does to the lists
below. -/
theorem sweeps_succ {f : Heap A V → A → Option (Heap A V)} {fuel : Nat} (hf : Sweeps f fuel n) :
    Sweeps (fun σ head => do
      removeAlwaysLoop head f fuel (← σ.nodeAt head).next σ) fuel (n + 1) := by
  intro σ head t h htidy hnodup _ hfuel
  obtain ⟨hnames, hchildren⟩ := htidy
  have hnodes : Nodes σ head (List.map Branch.item t) := h.1
  obtain ⟨node, hnode, hnext⟩ := hnodes.exists_head
  rw [map_node_branch_item] at hnext
  have hlength : List.length t < fuel := by
    refine Nat.lt_of_le_of_lt ?_ hfuel
    show List.length t ≤ (List.map Branch.node t ++ _).length
    rw [List.length_append, List.length_map]
    exact Nat.le_add_right _ _
  obtain ⟨τ, t', hloop, hrep, hnodup', hsub, htidy', hfoot, hsize, hqueue⟩ :=
    removeAlwaysLoop_spec hf t [] σ fuel h hnodup hnames hchildren hfuel hlength
  refine ⟨τ, t', ?_, hrep, ⟨hnames.sublist hsub, htidy'⟩, hnodup', hfoot, hsize, hqueue⟩
  simp only [hnode, hnext, hloop, Option.bind_eq_bind, Option.bind_some]

/-- `remove_always_return_values` drops the first value of every queue that may
be dropped. -/
theorem removeAlwaysReturnValues_spec (fuel : Nat) :
    ∀ n : Nat, Sweeps (removeAlwaysReturnValues (A := A) (V := V) fuel (n + 1)) fuel (n + 1)
  | 0 => sweeps_succ (sweeps_removeAlwaysFirst fuel)
  | n + 1 => sweeps_succ (removeAlwaysReturnValues_spec fuel n)

end Sweep

/-! ## Counting what is left -/

section Leftover

variable [DecidableEq A] {σ : Heap A V} {head : A} {n : Nat}

/-- Every symbol that is left has values, so every one counts. -/
theorem leftoverMapLoop_spec : ∀ (zs ys : List (Branch A (Tree A V n))) (rounds count : Nat),
    Rep σ (n + 1) head (ys ++ zs) → (∀ d ∈ zs, d.child.items n ≠ []) → zs.length < rounds →
    leftoverMapLoop σ head rounds ((zs.map Branch.node).headD head) count =
      some (count + zs.length)
  | _, _, 0, _, _, _, hrounds => absurd hrounds (Nat.not_lt_zero _)
  | [], _, _ + 1, _, _, _, _ => by simp [leftoverMapLoop]
  | e :: zs, ys, rounds + 1, count, h, hchildren, hrounds => by
      obtain ⟨node, hnode, hvalue, hnext⟩ := nodeAt_branch_next h
      have hnodes : Nodes σ head (List.map Branch.item (ys ++ e :: zs)) := h.1
      have hne : e.node ≠ head := fun heq => hnodes.ring.head_notMem (by
        rw [← heq, map_node_branch_item]
        exact List.mem_map_of_mem (by simp))
      obtain ⟨-, hchild⟩ := h.2 e (by simp)
      have hempty : (e.child.items n).isEmpty = false := by
        simpa [List.isEmpty_eq_false_iff] using hchildren e List.mem_cons_self
      have ih := leftoverMapLoop_spec zs (ys ++ [e]) rounds (count + 1) (by simpa using h)
        (fun d hd => hchildren d (List.mem_cons_of_mem e hd)) (by simpa using hrounds)
      have hcurrent : ((e :: zs).map Branch.node).headD head = e.node := rfl
      simp only [hcurrent, leftoverMapLoop, if_neg hne, hnode, hvalue,
        listEmpty_spec hchild.nodes, hempty, hnext, ih, Option.bind_eq_bind, Option.bind_some,
        Bool.false_eq_true, if_false, List.length_cons]
      rw [Nat.add_assoc, Nat.add_comm 1]

/-- `check_for_leftover_values` counts the symbols that have values. -/
theorem checkForLeftoverValues_spec {t : Tree A V (n + 1)} {fuel : Nat}
    (h : Rep σ (n + 1) head t) (htidy : t.Tidy (n + 1))
    (hfuel : (t.blocks (n + 1)).length < fuel) :
    checkForLeftoverValues fuel σ head = some (t.items (n + 1)).length := by
  have hnodes : Nodes σ head (List.map Branch.item t) := h.1
  obtain ⟨node, hnode, hnext⟩ := hnodes.exists_head
  rw [map_node_branch_item] at hnext
  have hlength : List.length t < fuel := by
    refine Nat.lt_of_le_of_lt ?_ hfuel
    show List.length t ≤ (List.map Branch.node t ++ _).length
    rw [List.length_append, List.length_map]
    exact Nat.le_add_right _ _
  have hloop := leftoverMapLoop_spec t [] fuel 0 h (fun d hd => (htidy.2 d hd).1) hlength
  simp only [checkForLeftoverValues, hnode, hnext, hloop, Option.bind_eq_bind, Option.bind_some]
  simp [Tree.items]

/-- Every value that is left counts. -/
theorem leftoverListLoop_spec : ∀ (zs ys : List (Leaf A V)) (rounds count : Nat),
    Rep σ 0 head (ys ++ zs) → zs.length < rounds →
    leftoverListLoop σ head rounds ((zs.map Leaf.node).headD head) count =
      some (count + zs.length)
  | _, _, 0, _, _, hrounds => absurd hrounds (Nat.not_lt_zero _)
  | [], _, _ + 1, _, _, _ => by simp [leftoverListLoop]
  | e :: zs, ys, rounds + 1, count, h, hrounds => by
      obtain ⟨node, hnode, -, -, hnext⟩ := nodeAt_leaf h
      have hnodes : Nodes σ head (List.map Leaf.item (ys ++ e :: zs)) := h.1
      have hne : e.node ≠ head := fun heq => hnodes.ring.head_notMem (by
        rw [← heq, map_node_leaf_item]
        exact List.mem_map_of_mem (by simp))
      have ih := leftoverListLoop_spec zs (ys ++ [e]) rounds (count + 1) (by simpa using h)
        (by simpa using hrounds)
      have hcurrent : ((e :: zs).map Leaf.node).headD head = e.node := rfl
      simp only [hcurrent, leftoverListLoop, if_neg hne, hnode, hnext, ih, Option.bind_eq_bind,
        Option.bind_some, List.length_cons]
      rw [Nat.add_assoc, Nat.add_comm 1]

/-- `check_for_leftover_values_list` counts the nodes. -/
theorem checkForLeftoverValuesList_spec {t : List (Leaf A V)} {fuel : Nat} (h : Rep σ 0 head t)
    (hfuel : t.length < fuel) : checkForLeftoverValuesList fuel σ head = some t.length := by
  have hnodes : Nodes σ head (List.map Leaf.item t) := h.1
  obtain ⟨node, hnode, hnext⟩ := hnodes.exists_head
  rw [map_node_leaf_item] at hnext
  have hloop := leftoverListLoop_spec t [] fuel 0 h hfuel
  simp only [checkForLeftoverValuesList, hnode, hnext, hloop, Option.bind_eq_bind,
    Option.bind_some, Nat.zero_add]

omit [DecidableEq A] in
/-- A map has symbols exactly when it has a value under some names. -/
theorem Tree.items_ne_nil_iff : ∀ {n : Nat} {t : Tree A V n}, t.Tidy n →
    (t.items n ≠ [] ↔ ∃ names, t.queue n names ≠ [])
  | 0, t, _ => by
      constructor
      · intro h
        exact ⟨[], by simpa [Tree.queue, Tree.items] using h⟩
      · rintro ⟨names, hnames⟩ hnil
        exact hnames (Tree.queue_of_items_nil hnil names)
  | n + 1, [], _ => by
      constructor
      · intro h
        exact absurd rfl h
      · rintro ⟨names, hnames⟩ hnil
        exact hnames (Tree.queue_of_items_nil hnil names)
  | n + 1, e :: zs, htidy => by
      constructor
      · intro _
        obtain ⟨hitems, htidyE⟩ := htidy.2 e List.mem_cons_self
        obtain ⟨path, hpath⟩ := (Tree.items_ne_nil_iff htidyE).mp hitems
        exact ⟨e.name :: path, by rwa [Tree.queue_cons, if_pos rfl]⟩
      · rintro ⟨names, hnames⟩ hnil
        exact hnames (Tree.queue_of_items_nil hnil names)

end Leftover

end TraceRecorderTests.Cmocka
