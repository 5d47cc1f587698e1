import TraceRecorderTests.Cmocka.SymbolRemove

/-!
# Serving values from a symbol map

`get_symbol_value` serves the first value of the queue under the given symbols
and counts it down (`getSymbolValue_spec`); with its last value a symbol leaves
the map. A served value whose count was 1 is the caller's to free, every other
one stays in the map.
-/

namespace TraceRecorderTests.Cmocka

variable {A V : Type}

/-- The queue after its first value was served: a count of 1 is the last time, a
positive count and `WILL_RETURN_ALWAYS` are counted down, and what is below is
served for ever. -/
def served : List (V × Int) → List (V × Int)
  | [] => []
  | (v, count) :: rest =>
      if count - 1 = 0 then rest
      else if count > willReturnOnce then (v, count - 1) :: rest
      else (v, count) :: rest

/-- What the caller has to free after a value was served. -/
def taken (p : A) (count : Int) : List A := if count = 1 then [p] else []

section Get

variable [DecidableEq A] {n : Nat}

/-- `f` serves the first value of the queue under `names`, in maps of depth `n`:
where the queue is empty it finds nothing and changes nothing. -/
def Gets (f : Heap A V → A → Option (Option (A × Int) × Heap A V)) (fuel : Nat) (n : Nat)
    (names : List String) : Prop :=
  ∀ (σ : Heap A V) (head : A) (t : Tree A V n),
    Rep σ n head t → t.Tidy n → (head :: t.blocks n).Nodup → (n = 0 → t.items n ≠ []) →
    (t.blocks n).length < fuel →
    match t.queue n names with
    | [] => f σ head = some (none, σ)
    | (v, count) :: _ =>
        ∃ (p : A) (τ : Heap A V) (t' : Tree A V n), f σ head = some (some (p, count), τ) ∧
          Rep τ n head t' ∧ t'.Tidy n ∧ τ.valueAt p = some v ∧
          (head :: taken p count ++ t'.blocks n).Nodup ∧
          Footprint σ τ head (t.blocks n) (taken p count ++ t'.blocks n) ∧
          (t'.blocks n).length ≤ (t.blocks n).length ∧
          t'.queue n = Function.update (t.queue n) names (served (t.queue n names))

/-- What `getFirstValue` does to the first node. -/
theorem getFirstValue_eq {σ : Heap A V} {head : A} {e : Leaf A V} {rest : List (Leaf A V)}
    (h : Rep σ 0 head (e :: rest)) :
    getFirstValue σ head =
      (if e.refcount - 1 = 0 then listRemoveFree σ e.node none
        else if e.refcount > willReturnOnce then σ.setRefcount e.node (e.refcount - 1)
        else some σ).map fun τ => ((e.ptr, e.refcount), τ) := by
  have hnodes : Nodes σ head (e.item :: List.map Leaf.item rest) := h.1
  have hfirst : listFirst σ head = some (some e.node) := listFirst_spec hnodes
  obtain ⟨node, hnode, hpair⟩ :=
    Heap.nodeAt_of_contents (hnodes.contents e.item List.mem_cons_self)
  have hnode : σ.nodeAt e.node = some node := hnode
  have hvalue : node.value = some e.ptr := congrArg Prod.fst hpair
  have hcount : node.refcount = e.refcount := congrArg Prod.snd hpair
  simp only [getFirstValue, hfirst, hnode, hvalue, hcount, Option.bind_eq_bind, Option.bind_some]
  rw [Option.map_eq_bind]
  split_ifs
  · rfl
  · rfl
  · rfl

/-- At the last level the first node is counted down, or removed. -/
theorem gets_nil (fuel : Nat) :
    Gets (fun (σ : Heap A V) childList =>
      (getFirstValue σ childList).map fun r => (some r.1, r.2)) fuel 0 [] := by
  intro σ head t h _ hnodup hne _
  obtain ⟨e, rest, rfl⟩ : ∃ (e : Leaf A V) (rest : List (Leaf A V)), t = e :: rest := by
    cases t with
    | nil => exact absurd rfl (hne rfl)
    | cons e rest => exact ⟨e, rest, rfl⟩
  have hvalues : ∀ d ∈ e :: rest, σ.valueAt d.ptr = some d.value := h.2
  -- a queue at the last level is under no further name
  have hqueue : ∀ (t' : List (Leaf A V)),
      t'.map (fun e => (e.value, e.refcount)) =
        served ((e :: rest).map fun e => (e.value, e.refcount)) →
      Tree.queue 0 t' = Function.update (Tree.queue 0 (e :: rest)) []
        (served (Tree.queue 0 (e :: rest) [])) := by
    intro t' ht'
    funext names
    cases names with
    | nil =>
        rw [Function.update_self]
        exact ht'
    | cons s path => rw [Function.update_of_ne (by simp)]; rfl
  show ∃ (p : A) (τ : Heap A V) (t' : Tree A V 0), _
  simp only [getFirstValue_eq h]
  by_cases hlast : e.refcount = 1
  · have hone : e.refcount - 1 = 0 := by omega
    obtain ⟨τ, hrun, hrep, hnodup', hvalue, hfoot⟩ :=
      @Rep.takeLeaf A V _ σ head [] rest e h hnodup
    have htaken : taken e.ptr e.refcount = [e.ptr] := if_pos hlast
    have hlen := (Tree.blocks_leaf_perm [] rest e).length_eq
    simp only [List.nil_append, List.length_cons] at hlen
    refine ⟨e.ptr, τ, rest, ?_, hrep, trivial, hvalue, ?_, ?_, by omega, hqueue rest ?_⟩
    · rw [if_pos hone, hrun]
      rfl
    · rw [htaken]
      exact hnodup'
    · rw [htaken]
      exact hfoot
    · simp [served, hlast]
  · have hnot : ¬ e.refcount - 1 = 0 := by omega
    have htaken : taken e.ptr e.refcount = [] := if_neg hlast
    by_cases hmany : e.refcount > willReturnOnce
    · obtain ⟨τ, hrun, hrep, hfoot⟩ :=
        @Rep.recountLeaf A V _ σ head [] rest e h hnodup (e.refcount - 1)
      have hvalue : τ.valueAt e.ptr = some e.value :=
        hrep.2 { e with refcount := e.refcount - 1 } List.mem_cons_self
      refine ⟨e.ptr, τ, { e with refcount := e.refcount - 1 } :: rest, ?_, hrep, trivial, hvalue,
        ?_, ?_, (congrArg List.length (Tree.blocks_recount [] rest e (e.refcount - 1))).le,
        hqueue _ ?_⟩
      · rw [if_neg hnot, if_pos hmany, hrun]
        rfl
      · rw [htaken]
        exact hnodup
      · rw [htaken]
        exact hfoot
      · simp [served, hnot, hmany]
    · refine ⟨e.ptr, σ, e :: rest, ?_, h, trivial, hvalues e List.mem_cons_self, ?_, ?_,
        le_refl _, hqueue _ ?_⟩
      · rw [if_neg hnot, if_neg hmany]
        rfl
      · rw [htaken]
        exact hnodup
      · rw [htaken]
        exact Footprint.refl σ head _
      · simp [served, hnot, hmany]

/-- A served value of count 1 leaves its queue; otherwise the queue does not get
empty. -/
theorem served_ne_nil {v : V} {count : Int} {q : List (V × Int)} (h : count ≠ 1) :
    served ((v, count) :: q) ≠ [] := by
  have hnot : ¬ count - 1 = 0 := by omega
  simp only [served, if_neg hnot]
  split_ifs
  · simp
  · simp

/-- At an inner level the list of the symbol is asked, and the symbol leaves the
map with its last value. -/
theorem gets_cons {f : Heap A V → A → Option (Option (A × Int) × Heap A V)} {fuel : Nat}
    {rest : List String} (hf : Gets f fuel n rest) (name : String) :
    Gets (fun σ head => do
      match ← listFind σ head (symbolNamesMatch σ name) fuel with
      | none => return (none, σ)
      | some targetNode => do
          let childList ← (← σ.nodeAt targetNode).value
          let (result, σ) ← f σ childList
          if ← listEmpty σ childList then
            let σ ← listRemoveFree σ targetNode (some (freeSymbolMapValue fuel 0))
            return (result, σ)
          else return (result, σ)) fuel (n + 1) (name :: rest) := by
  intro σ head t h htidy hnodup _ hfuel
  obtain ⟨hnames, hchildren⟩ := htidy
  have hlength : List.length t < fuel := by
    refine Nat.lt_of_le_of_lt ?_ hfuel
    show List.length t ≤ (List.map Branch.node t ++ _).length
    rw [List.length_append, List.length_map]
    exact Nat.le_add_right _ _
  have hfind := listFind_symbol h name hlength
  cases hresult : List.find? (fun e : Branch A (Tree A V n) => decide (e.name = name)) t with
  | none =>
      have hnot : ∀ d ∈ t, d.name ≠ name := fun d hd => by
        simpa using List.find?_eq_none.mp hresult d hd
      rw [Tree.queue_of_notMem hnot]
      simp only [hfind, hresult, Option.map_none, Option.bind_eq_bind, Option.bind_some,
        Option.pure_def]
  | some e =>
      obtain ⟨hname, ys, zs, rfl, hysName⟩ := List.find?_eq_some_iff_append.mp hresult
      obtain rfl : e.name = name := by simpa using hname
      have hys : ∀ y ∈ ys, y.name ≠ e.name := fun y hy => by simpa using hysName y hy
      rw [hresult, Option.map_some] at hfind
      obtain ⟨node, hnode, hnodeValue⟩ := nodeAt_branch h
      obtain ⟨hitems, htidyE⟩ := hchildren e (by simp)
      obtain ⟨-, hchildE⟩ := h.2 e (by simp)
      have hperm := Tree.blocks_perm ys zs e
      have hnodupE : (e.block :: e.child.blocks n).Nodup :=
        ((hperm.nodup_iff.mp (List.nodup_cons.mp hnodup).2)).sublist (List.sublist_append_left _ _)
      have hfuelE : (e.child.blocks n).length < fuel := by
        have hlen := hperm.length_eq
        simp only [List.length_append, List.length_cons] at hlen
        have hfuel' : (Tree.blocks (n + 1) (ys ++ e :: zs)).length < fuel := hfuel
        omega
      have hget := hf σ e.block e.child hchildE htidyE hnodupE (fun _ => hitems) hfuelE
      have hqueue : Tree.queue (n + 1) (ys ++ e :: zs) (e.name :: rest) = e.child.queue n rest := by
        rw [Tree.queue_split hys, if_pos rfl]
      rw [hqueue]
      cases hq : e.child.queue n rest with
      | nil =>
          rw [hq] at hget
          have hne : (e.child.items n).isEmpty = false := by
            simpa [List.isEmpty_eq_false_iff] using hitems
          have hget : f σ e.block = some (none, σ) := hget
          show _ = some (none, σ)
          simp only [hfind, hnode, hnodeValue, hget, listEmpty_spec hchildE.nodes, hne,
            Option.bind_eq_bind, Option.bind_some, Option.pure_def, Bool.false_eq_true, if_false]
      | cons entry q =>
          obtain ⟨v, count⟩ := entry
          rw [hq] at hget
          obtain ⟨p, σ₁, child, hrun, hrepC, htidyC, hvalueC, hnodupC, hfootC, hsizeC, hqueueC⟩ :=
            hget
          obtain ⟨hrep₁, hnodup₁, hfoot₁⟩ := @Rep.replaceChild A V σ σ₁ head n _ ys zs e child
            [] (taken p count) h hnodup hrepC hnodupC hfootC
          have hqueue₁ := @Tree.queue_replaceChild A V n ys zs e child rest _ hys hqueueC
          let e' : Branch A (Tree A V n) := { e with child := child }
          have hnames' : (List.map Branch.name (ys ++ e' :: zs)).Nodup := by simpa [e'] using hnames
          have hsiblings : ∀ d ∈ ys ++ zs, d.child.items n ≠ [] ∧ d.child.Tidy n := by
            intro d hd
            refine hchildren d ?_
            simp only [List.mem_append, List.mem_cons] at hd ⊢
            tauto
          have hsub : (head :: Tree.blocks (n + 1) (ys ++ e' :: zs)).Nodup :=
            hnodup₁.sublist (((List.sublist_append_right _ _)).cons_cons head)
          rw [List.nil_append] at hfoot₁
          have hsize₁ : (Tree.blocks (n + 1) (ys ++ e' :: zs)).length ≤
              (Tree.blocks (n + 1) (ys ++ e :: zs)).length := by
            have hlen := hperm.length_eq
            have hlen' := (Tree.blocks_perm ys zs e').length_eq
            have hothers : Tree.others n ys e' zs = Tree.others n ys e zs := rfl
            have hchildBlocks : Tree.blocks n e'.child = Tree.blocks n child := rfl
            rw [hothers, hchildBlocks] at hlen'
            simp only [List.length_append, List.length_cons] at hlen hlen'
            omega
          show ∃ (p : A) (τ : Heap A V) (t' : Tree A V (n + 1)), _
          simp only [hfind, hnode, hnodeValue, hrun, listEmpty_spec hrepC.nodes,
            Option.bind_eq_bind, Option.bind_some, Option.pure_def]
          by_cases hempty : child.items n = []
          · -- the last value of the symbol: its node and block go too
            have hnil : Nodes σ₁ e'.block [] := hempty ▸ hrepC.nodes
            have hclean : ∀ σ₂ : Heap A V, σ₂.block e'.block = σ₁.block e'.block →
                Cleans (some (freeSymbolMapValue fuel 0)) e'.block [e'.block] σ₂ := by
              intro σ₂ hσ₂
              refine cleans_freeSymbolMapValue_nil (Nat.zero_lt_of_lt hfuel) (hnil.frame ?_)
              intro c hc
              rw [List.mem_singleton.mp hc]
              exact Heap.nodeAt_congr hσ₂
            obtain ⟨τ, hremove, hrep, hnodup₂, hfoot₂⟩ := hrep₁.removeBranch hsub hempty hclean
            have hone : count = 1 := by
              by_contra hne
              have hq' := congrFun hqueueC rest
              rw [Tree.queue_of_items_nil hempty, Function.update_self] at hq'
              exact served_ne_nil hne hq'.symm
            have htaken : taken p count = [p] := if_pos hone
            rw [htaken] at hfoot₁ hnodup₁
            have hp : p ≠ head ∧ p ∉ Tree.blocks (n + 1) (ys ++ e' :: zs) := by
              simp only [List.cons_append, List.nil_append, List.nodup_cons, List.mem_cons,
                not_or] at hnodup₁
              exact ⟨fun heq => hnodup₁.1.1 heq.symm, hnodup₁.2.1⟩
            have hpz : p ∉ Tree.blocks (n + 1) (ys ++ zs) := by
              intro hmem
              have hlive := hrep.live p (List.mem_cons_of_mem _ hmem)
              have hplive : σ₁.block p ≠ none := by
                intro hnone
                rw [Heap.valueAt, hnone] at hvalueC
                cases hvalueC
              exact hplive (hfoot₂.fresh p hp.1 hmem hp.2)
            refine ⟨p, τ, ys ++ zs, ?_, hrep, ⟨?_, hsiblings⟩, ?_, ?_, ?_, ?_, ?_⟩
            · have hremove : listRemoveFree σ₁ e.node (some (freeSymbolMapValue fuel 0)) = some τ :=
                hremove
              simp only [hempty, List.isEmpty_nil, if_true, hremove, Option.bind_some]
            · refine hnames'.sublist ?_
              exact ((List.sublist_cons_self e' zs).append_left ys).map Branch.name
            · rw [Heap.valueAt_congr (hfoot₂.frame p hp.1 hp.2 hpz)]
              exact hvalueC
            · rw [htaken]
              simp only [List.cons_append, List.nil_append, List.nodup_cons, List.mem_cons,
                not_or]
              exact ⟨⟨fun heq => hp.1 heq.symm, (List.nodup_cons.mp hnodup₂).1⟩, hpz,
                (List.nodup_cons.mp hnodup₂).2⟩
            · rw [htaken]
              refine hfoot₁.trans (hfoot₂.weaken ?_ ?_ ?_)
              · intro b hb hb'
                exact ⟨List.not_mem_of_not_mem_cons hb, List.not_mem_of_not_mem_cons hb'⟩
              · intro b hb hb'
                exact ⟨List.mem_of_ne_of_mem (List.ne_of_not_mem_cons hb') hb,
                  List.not_mem_of_not_mem_cons hb'⟩
              · intro b hb hb'
                exact ⟨List.mem_of_ne_of_mem (List.ne_of_not_mem_cons hb') hb,
                  List.not_mem_of_not_mem_cons hb'⟩
            · refine Nat.le_trans ?_ hsize₁
              simp only [Tree.blocks, List.map_append, List.map_cons, List.flatMap_append,
                List.flatMap_cons, List.length_append, List.length_cons]
              omega
            · rw [← Tree.queue_removeBranch hnames' hempty]
              exact hqueue₁
          · have hne : (child.items n).isEmpty = false := by
              simpa [List.isEmpty_eq_false_iff] using hempty
            refine ⟨p, σ₁, ys ++ e' :: zs, ?_, hrep₁, ⟨hnames', ?_⟩, hvalueC, hnodup₁, hfoot₁,
              hsize₁, hqueue₁⟩
            · simp only [hne, Bool.false_eq_true, if_false]
            · intro d hd
              simp only [List.mem_append, List.mem_cons] at hd
              rcases hd with hd | rfl | hd
              · exact hsiblings d (List.mem_append_left _ hd)
              · exact ⟨hempty, htidyC⟩
              · exact hsiblings d (List.mem_append_right _ hd)

/-- `get_symbol_value` serves the first value of the queue of its symbols. -/
theorem getSymbolValue_spec (fuel : Nat) :
    ∀ names : List String, names ≠ [] →
      Gets (fun (σ : Heap A V) head => getSymbolValue fuel names σ head) fuel names.length names
  | [], hne => absurd rfl hne
  | [name], _ => gets_cons (gets_nil fuel) name
  | name :: name' :: rest, _ =>
      gets_cons (getSymbolValue_spec fuel (name' :: rest) (by simp)) name

end Get

end TraceRecorderTests.Cmocka
