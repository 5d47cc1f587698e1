import TraceRecorderTests.Cmocka.SymbolSweep

/-!
# The order of mock calls

`_expect_function_call` puts the name of a function at the end of one list, with
a count; `_function_called` looks from its front for the first node that has the
name, or that must be called first: the nodes of a count below -1 may be called
any number of times and are passed over. What the functions do to the heap is
stated in terms of the list of names and counts (`functionCalled_spec`).
-/

namespace TraceRecorderTests.Cmocka

/-- `uintmax_t`. -/
abbrev UIntMax := BitVec 64

/-- `CheckParameterEvent`: the check function, and the data it is called with. -/
structure CheckParameterEvent where
  checkValue : UIntMax → UIntMax → Bool
  checkValueData : UIntMax

/-- The values of the lists, without the places they were declared at. -/
inductive MockValue
  | symbolValue (value : UIntMax)
  | checkParameterEvent (check : CheckParameterEvent)
  | funcOrderingValue (function : String)

/-- `((FuncOrderingValue *)value)->function`. -/
def MockValue.function? : MockValue → Option String
  | .funcOrderingValue function => some function
  | _ => none

variable {A : Type} [DecidableEq A]

/-- The loop of `_function_called`, from `current`: the node it stops at and
whether that has the name of the function, or `none` at the head. -/
def functionCalledLoop (σ : Heap A MockValue) (head : A) (function : String) :
    Nat → A → Option (Option (A × Bool))
  | 0, _ => none
  | fuel + 1, current => do
      let node ← σ.nodeAt current
      let expectedCall ← σ.valueAt (← node.value)
      let found : Bool := (← expectedCall.function?) = function
      if found ∨ node.refcount > -2 then return some (current, found)
      if node.next = head then return none
      functionCalledLoop σ head function fuel node.next

/-- The branch of `_function_called` for the node it was looking for. -/
def countCall (σ : Heap A MockValue) (current : A) : Option (Heap A MockValue) := do
  let node ← σ.nodeAt current
  if node.refcount > -2 then
    let σ ← σ.setRefcount current (node.refcount - 1)
    if node.refcount - 1 = 0 then listRemoveFree σ current (some freeValue)
    else return σ
  else return σ

/-- `_function_called`: whether the call was expected. -/
def functionCalled (fuel : Nat) (σ : Heap A MockValue) (head : A) (function : String) :
    Option (Bool × Heap A MockValue) := do
  if ← listEmpty σ head then return (false, σ)
  match ← functionCalledLoop σ head function fuel (← σ.nodeAt head).next with
  | none => return (false, σ)
  | some (_, false) => return (false, σ)
  | some (current, true) => return (true, ← countCall σ current)

/-! ## In terms of names and counts -/

/-- The expected calls after a call of `function`; `none` if the call is not
expected. -/
def called (function : String) : List (String × Int) → Option (List (String × Int))
  | [] => none
  | (name, count) :: rest =>
      if name = function then
        some (if count > -2 then if count - 1 = 0 then rest else (name, count - 1) :: rest
          else (name, count) :: rest)
      else if count > -2 then none
      else (called function rest).map ((name, count) :: ·)

/-- Whether `_function_called` stops at this node. -/
def stopsAt (function : String) (entry : String × Int) : Bool :=
  entry.1 = function ∨ entry.2 > -2

/-- The nodes in front of the one that decides stay as they are. -/
theorem called_append {function : String} {ys : List (String × Int)}
    (hys : ∀ y ∈ ys, stopsAt function y = false) (rest : List (String × Int)) :
    called function (ys ++ rest) = (called function rest).map (ys ++ ·) := by
  induction ys with
  | nil => simp
  | cons y ys ih =>
      obtain ⟨name, count⟩ := y
      have hy : ¬ name = function ∧ ¬ count > -2 := by
        simpa [stopsAt] using hys (name, count) List.mem_cons_self
      rw [List.cons_append, called, if_neg hy.1, if_neg hy.2,
        ih fun z hz => hys z (List.mem_cons_of_mem _ hz), Option.map_map]
      rfl

theorem called_eq_none {function : String} {l : List (String × Int)}
    (h : ∀ y ∈ l, stopsAt function y = false) : called function l = none := by
  have happend := called_append h []
  rwa [List.append_nil, called, Option.map_none] at happend

/-- The expected calls that a list of values stands for are `order`. -/
def OrderRep (t : Tree A MockValue 0) (order : List (String × Int)) : Prop :=
  Tree.queue 0 t [] = order.map fun entry => (.funcOrderingValue entry.1, entry.2)

/-- The name and the count of a leaf. -/
def Leaf.entry (e : Leaf A MockValue) : String × Int := (e.value.function?.getD "", e.refcount)

omit [DecidableEq A] in
theorem OrderRep.entries {t : List (Leaf A MockValue)} {order : List (String × Int)}
    (h : OrderRep t order) : t.map Leaf.entry = order := by
  have hmap := congrArg (List.map fun p : MockValue × Int => (p.1.function?.getD "", p.2)) h
  simp only [Tree.queue, List.map_map] at hmap
  rw [show Leaf.entry = ((fun p : MockValue × Int => (p.1.function?.getD "", p.2)) ∘
    fun e : Leaf A MockValue => (e.value, e.refcount)) from rfl, hmap]
  exact List.map_id order

omit [DecidableEq A] in
theorem OrderRep.function {t : List (Leaf A MockValue)} {order : List (String × Int)}
    (h : OrderRep t order) : ∀ e ∈ t, e.value = .funcOrderingValue e.entry.1 := by
  intro e he
  have hmem : (e.value, e.refcount) ∈ Tree.queue 0 t [] :=
    List.mem_map_of_mem (f := fun e : Leaf A MockValue => (e.value, e.refcount)) he
  rw [h] at hmem
  obtain ⟨entry, -, hentry⟩ := List.mem_map.mp hmem
  have hvalue : e.value = .funcOrderingValue entry.1 := (congrArg Prod.fst hentry).symm
  rw [Leaf.entry, hvalue]
  rfl

omit [DecidableEq A] in
theorem OrderRep.of_entries {t : List (Leaf A MockValue)} {order : List (String × Int)}
    (hentries : t.map Leaf.entry = order)
    (hvalues : ∀ e ∈ t, e.value = .funcOrderingValue e.entry.1) :
    OrderRep t order := by
  rw [OrderRep, ← hentries, List.map_map]
  refine List.map_congr_left fun e he => ?_
  rw [hvalues e he]
  rfl

section Specs

variable {σ : Heap A MockValue} {head : A} {t : List (Leaf A MockValue)}

/-- The loop finds the first node it has to stop at. -/
theorem functionCalledLoop_spec (function : String) : ∀ (zs : List (Leaf A MockValue))
    (ys : List (Leaf A MockValue)) (e : Leaf A MockValue) (rounds : Nat),
    Rep σ 0 head (ys ++ e :: zs) → (∀ d ∈ e :: zs, d.value = .funcOrderingValue d.entry.1) →
    zs.length < rounds →
    functionCalledLoop σ head function rounds e.node =
      some (((e :: zs).find? fun d => stopsAt function d.entry).map fun d =>
        (d.node, decide (d.entry.1 = function)))
  | _, _, _, 0, _, _, hrounds => absurd hrounds (Nat.not_lt_zero _)
  | zs, ys, e, rounds + 1, h, hvalues, hrounds => by
      obtain ⟨node, hnode, hvalue, hcount, hnext⟩ := nodeAt_leaf h
      have hat : σ.valueAt e.ptr = some (.funcOrderingValue e.entry.1) := by
        rw [h.2 e (by simp), hvalues e List.mem_cons_self]
      have hentry : e.entry.2 = e.refcount := rfl
      simp only [functionCalledLoop, hnode, hvalue, hat, hcount, MockValue.function?,
        Option.bind_eq_bind, Option.bind_some, List.find?_cons]
      by_cases hstop : e.entry.1 = function ∨ e.refcount > -2
      · have hstop' : stopsAt function e.entry = true := by simpa [stopsAt, hentry] using hstop
        rw [hstop', if_pos (by simpa using hstop)]
        rfl
      · have hstop' : stopsAt function e.entry = false := by
          simpa [stopsAt, hentry] using hstop
        rw [hstop', if_neg (by simpa using hstop), hnext]
        cases zs with
        | nil => simp
        | cons d zs =>
            have hnodes : Nodes σ head (List.map Leaf.item (ys ++ e :: d :: zs)) := h.1
            have hne : d.node ≠ head := fun heq => hnodes.ring.head_notMem (by
              rw [← heq, map_node_leaf_item]
              exact List.mem_map_of_mem (by simp))
            have ih := functionCalledLoop_spec function zs (ys ++ [e]) d rounds
              (by simpa using h) (fun c hc => hvalues c (List.mem_cons_of_mem e hc))
              (by simp only [List.length_cons] at hrounds; omega)
            simp only [List.map_cons, List.headD_cons, if_neg hne]
            exact ih

/-- A call that was found: it is counted down, and its node goes with the last
one. -/
theorem countCall_spec {ys zs : List (Leaf A MockValue)} {e : Leaf A MockValue}
    (h : Rep σ 0 head (ys ++ e :: zs)) (hnodup : (head :: Tree.blocks 0 (ys ++ e :: zs)).Nodup) :
    ∃ (τ : Heap A MockValue) (t' : List (Leaf A MockValue)), countCall σ e.node = some τ ∧
      Rep τ 0 head t' ∧ (head :: Tree.blocks 0 t').Nodup ∧
      Footprint σ τ head (Tree.blocks 0 (ys ++ e :: zs)) (Tree.blocks 0 t') ∧
      t' = if e.refcount > -2 then
          if e.refcount - 1 = 0 then ys ++ zs
          else ys ++ { e with refcount := e.refcount - 1 } :: zs
        else ys ++ e :: zs := by
  obtain ⟨node, hnode, -, hcount, -⟩ := nodeAt_leaf h
  simp only [countCall, hnode, hcount, Option.bind_eq_bind, Option.bind_some]
  by_cases hmany : e.refcount > -2
  · obtain ⟨σ₁, hset, hrep₁, hfoot₁⟩ := h.recountLeaf hnodup (e.refcount - 1)
    have hnodup₁ := hnodup
    rw [← Tree.blocks_recount ys zs e (e.refcount - 1)] at hnodup₁
    have hfoot₁ : Footprint σ σ₁ head (Tree.blocks 0 (ys ++ e :: zs))
        (Tree.blocks 0 (ys ++ { e with refcount := e.refcount - 1 } :: zs)) := by
      rwa [Tree.blocks_recount ys zs e (e.refcount - 1)]
    simp only [if_pos hmany, hset, Option.bind_some]
    by_cases hlast : e.refcount - 1 = 0
    · obtain ⟨τ, hremove, hrep, hnodup', hfoot⟩ := hrep₁.freeLeaf hnodup₁
      have hremove : listRemoveFree σ₁ e.node (some freeValue) = some τ := hremove
      refine ⟨τ, ys ++ zs, by rw [if_pos hlast, hremove], hrep, hnodup', hfoot₁.trans hfoot, ?_⟩
      rw [if_pos hlast]
    · refine ⟨σ₁, _, by rw [if_neg hlast]; rfl, hrep₁, hnodup₁, hfoot₁, ?_⟩
      rw [if_neg hlast]
  · refine ⟨σ, _, by rw [if_neg hmany]; rfl, h, hnodup, Footprint.refl σ head _, ?_⟩
    rw [if_neg hmany]

/-- `_function_called` on the heap is `called` on the list of names and counts. -/
theorem functionCalled_spec {order : List (String × Int)} {fuel : Nat} (function : String)
    (h : Rep σ 0 head t) (horder : OrderRep t order) (hnodup : (head :: Tree.blocks 0 t).Nodup)
    (hfuel : t.length < fuel) :
    match called function order with
    | none => functionCalled fuel σ head function = some (false, σ)
    | some order' => ∃ (τ : Heap A MockValue) (t' : List (Leaf A MockValue)),
        functionCalled fuel σ head function = some (true, τ) ∧ Rep τ 0 head t' ∧
        OrderRep t' order' ∧ (head :: Tree.blocks 0 t').Nodup ∧ t'.length ≤ t.length ∧
        Footprint σ τ head (Tree.blocks 0 t) (Tree.blocks 0 t') := by
  have hnodes : Nodes σ head (List.map Leaf.item t) := h.1
  have hvalues := horder.function
  obtain rfl := horder.entries
  cases t with
  | nil =>
      show functionCalled fuel σ head function = some (false, σ)
      simp only [functionCalled, listEmpty_spec hnodes, Option.bind_eq_bind, Option.bind_some]
      rfl
  | cons d rest =>
      obtain ⟨headNode, hheadNode, hnext⟩ := hnodes.exists_head
      have hnext : headNode.next = d.node := hnext
      have hloop := functionCalledLoop_spec function rest [] d fuel h hvalues
        (by simp only [List.length_cons] at hfuel; omega)
      have hnonempty : (List.map Leaf.item (d :: rest)).isEmpty = false := rfl
      cases hresult : (d :: rest).find? fun d => stopsAt function d.entry with
      | none =>
          have hnone : called function ((d :: rest).map Leaf.entry) = none := by
            refine called_eq_none fun entry hentry => ?_
            obtain ⟨e, he, rfl⟩ := List.mem_map.mp hentry
            simpa using List.find?_eq_none.mp hresult e he
          rw [hnone]
          rw [hresult, Option.map_none] at hloop
          simp only [functionCalled, listEmpty_spec hnodes, hnonempty, hheadNode, hnext, hloop,
            Option.bind_eq_bind, Option.bind_some, Bool.false_eq_true, if_false, Option.pure_def]
      | some e =>
          obtain ⟨hstop, ys, zs, hsplit, hys⟩ := List.find?_eq_some_iff_append.mp hresult
          rw [hresult, Option.map_some] at hloop
          have hcalled : called function ((d :: rest).map Leaf.entry) =
              (called function (e.entry :: zs.map Leaf.entry)).map (ys.map Leaf.entry ++ ·) := by
            rw [hsplit, List.map_append, List.map_cons]
            refine called_append (fun entry hentry => ?_) _
            obtain ⟨y, hy, rfl⟩ := List.mem_map.mp hentry
            simpa using hys y hy
          by_cases hname : e.entry.1 = function
          · -- the node has the name: it is counted down
            have hrep : Rep σ 0 head (ys ++ e :: zs) := hsplit ▸ h
            obtain ⟨τ, t', hcount, hrep', hnodup', hfoot, ht'⟩ :=
              countCall_spec hrep (hsplit ▸ hnodup)
            have hentry : e.entry = (function, e.refcount) := Prod.ext hname rfl
            have hstep : called function ((d :: rest).map Leaf.entry) =
                some (t'.map Leaf.entry) := by
              rw [hcalled, hentry, called, if_pos rfl, Option.map_some, ht']
              split_ifs
              · rw [List.map_append]
              · have hnew : Leaf.entry { e with refcount := e.refcount - 1 } =
                    (function, e.refcount - 1) := Prod.ext hname rfl
                rw [List.map_append, List.map_cons, hnew]
              · rw [List.map_append, List.map_cons, hentry]
            rw [hstep]
            refine ⟨τ, t', ?_, hrep', OrderRep.of_entries rfl ?_, hnodup', ?_, hsplit ▸ hfoot⟩
            · simp only [functionCalled, listEmpty_spec hnodes, hnonempty, hheadNode, hnext,
                hloop, decide_eq_true hname, hcount, Option.bind_eq_bind, Option.bind_some,
                Bool.false_eq_true, if_false, Option.pure_def]
            · intro c hc
              have hall : ∀ c ∈ ys ++ e :: zs, c.value = .funcOrderingValue c.entry.1 :=
                hsplit ▸ hvalues
              rw [ht'] at hc
              split_ifs at hc
              · refine hall c ?_
                simp only [List.mem_append, List.mem_cons] at hc ⊢
                tauto
              · simp only [List.mem_append, List.mem_cons] at hc
                rcases hc with hc | rfl | hc
                · exact hall c (by simp [hc])
                · exact hall e (by simp)
                · exact hall c (by simp [hc])
              · exact hall c hc
            · rw [hsplit, ht']
              split_ifs
              · simp only [List.length_append, List.length_cons]
                omega
              · simp
              · exact le_refl _
          · -- the node must be called first
            have hmust : e.entry.2 > -2 := by simpa [stopsAt, hname] using hstop
            have hnone : called function ((d :: rest).map Leaf.entry) = none := by
              rw [hcalled, called, if_neg hname, if_pos hmust]
              rfl
            rw [hnone]
            simp only [functionCalled, listEmpty_spec hnodes, hnonempty, hheadNode, hnext,
              hloop, decide_eq_false hname, Option.bind_eq_bind, Option.bind_some,
              Bool.false_eq_true, if_false, Option.pure_def]

end Specs

end TraceRecorderTests.Cmocka
