import Mathlib.Algebra.Ring.Nat
import TraceRecorderTests.Cmocka.Simulation

/-!
# Tests on one heap

`cmocka_run_one_test_or_fixture` runs a test between `initialize_testing` and
`teardown_testing`; the list heads are global, and the tests of a program share
them. The results are those of the queues, test by test, and after every test
nothing is live but the heads and the blocks that were lost (`runTests_spec`).
What `malloc` returns in a call is part of the input, and assumed to be free and
different; everything else is the code's.
-/

namespace TraceRecorderTests.Cmocka

variable {A : Type}

/-- How a test function leaves when no call ends the test: it returns, it calls
`_stop`, or an assertion of its own fails. -/
inductive Ending
  | returns
  | stops
  | fails
  deriving DecidableEq, Repr

/-- A test: its calls, each with the addresses `malloc` returns in it, and how it
leaves. -/
structure TestRun (A : Type) where
  calls : List (Call × List A)
  ending : Ending

/-! ## On the heap -/

section Code

variable [DecidableEq A] (fuel : Nat) (heads : Heads A)

/-- The calls of a test, up to the first that ends it. -/
def runCalls : List (Call × List A) → Heap A MockValue → Option (List Reply × Heap A MockValue)
  | [], σ => some ([], σ)
  | (c, mallocs) :: rest, σ => do
      let (reply, σ) ← c.run fuel heads { σ with mallocs := mallocs }
      if reply = .failed then return ([reply], σ)
      let (replies, σ) ← runCalls rest σ
      return (reply :: replies, σ)

/-- `cmocka_run_one_test_or_fixture` with a test function: the replies to its
calls, and `rc`. -/
def runOneTest (test : TestRun A) (σ : Heap A MockValue) :
    Option ((List Reply × Int) × Heap A MockValue) := do
  let σ ← initializeTesting heads σ
  let (replies, σ) ← runCalls fuel heads test.calls σ
  let (rc, σ) ←
    if .failed ∈ replies ∨ test.ending = .fails then some (-1, σ)
    -- a stopped test asks for leftovers like one that returns
    else (hasLeftoverValues fuel heads σ).map fun (leftover, σ) => (if leftover then -1 else 0, σ)
  let σ ← teardownTesting fuel heads σ
  return ((replies, rc), σ)

/-- One test after the other. -/
def runTests : List (TestRun A) → Heap A MockValue →
    Option (List (List Reply × Int) × Heap A MockValue)
  | [], σ => some ([], σ)
  | test :: rest, σ => do
      let (result, σ) ← runOneTest fuel heads test σ
      let (results, σ) ← runTests rest σ
      return (result :: results, σ)

/-- In every call `malloc` has enough blocks that are free at that time. -/
def MallocsFresh : List (Call × List A) → Heap A MockValue → Prop
  | [], _ => True
  | (c, mallocs) :: rest, σ => Supply { σ with mallocs := mallocs } 6 ∧
      ∀ reply τ, c.run fuel heads { σ with mallocs := mallocs } = some (reply, τ) →
        MallocsFresh rest τ

/-- The same over a list of tests. -/
def TestsFresh : List (TestRun A) → Heap A MockValue → Prop
  | [], _ => True
  | test :: rest, σ =>
      (∀ τ, initializeTesting heads σ = some τ → MallocsFresh fuel heads test.calls τ) ∧
      ∀ result τ, runOneTest fuel heads test σ = some (result, τ) → TestsFresh rest τ

end Code

/-! ## On queues -/

/-- The calls of a test on the queues, up to the first that ends it. -/
def applyCalls : List Call → Expectations → List Reply × Expectations
  | [], E => ([], E)
  | c :: rest, E =>
      if (c.apply E).1 = .failed then ([(c.apply E).1], (c.apply E).2)
      else ((c.apply E).1 :: (applyCalls rest (c.apply E).2).1, (applyCalls rest (c.apply E).2).2)

/-- The replies a test gets and what it returns, without a heap. -/
noncomputable def TestRun.result (test : TestRun A) : List Reply × Int :=
  open Classical in
  let (replies, E) := applyCalls (test.calls.map Prod.fst) Expectations.none
  (replies, if .failed ∈ replies ∨ test.ending = .fails ∨ E.Leftover then -1 else 0)

/-- The blocks a test loses: those of the calls it got a reply to. -/
noncomputable def TestRun.loses (test : TestRun A) : Nat :=
  ((test.calls.map Prod.fst).take test.result.1.length |>.map Call.loses).sum

/-! ## The calls of a test -/

section Run

variable {fuel : Nat} {heads : Heads A} {σ : Heap A MockValue} {E : Expectations}
  {size lost : Nat}

theorem Holding.withMallocs (h : Holding heads σ E size lost) (mallocs : List A) :
    Holding heads { σ with mallocs := mallocs } E size lost := by
  obtain ⟨r, p, o, l, h, hsize⟩ := h
  exact ⟨r, p, o, l, h.congr rfl, hsize⟩

variable [DecidableEq A]

/-- The calls of a test give the replies they give on the queues. -/
theorem runCalls_spec : ∀ {calls : List (Call × List A)} {σ : Heap A MockValue}
    {E : Expectations} {size lost : Nat}, Holding heads σ E size lost →
    MallocsFresh fuel heads calls σ → size + 6 * calls.length < fuel →
    ∃ τ, runCalls fuel heads calls σ = some ((applyCalls (calls.map Prod.fst) E).1, τ) ∧
      Holding heads τ (applyCalls (calls.map Prod.fst) E).2 (size + 6 * calls.length)
        (lost + ((calls.map Prod.fst).take (applyCalls (calls.map Prod.fst) E).1.length
          |>.map Call.loses).sum)
  | [], σ, E, size, lost, h, _, _ => ⟨σ, rfl, by simpa [applyCalls] using h⟩
  | (c, mallocs) :: rest, σ, E, size, lost, h, hfresh, hfuel => by
      rw [List.length_cons] at hfuel
      obtain ⟨σ₁, hrun, h₁⟩ := (h.withMallocs mallocs).run_spec c hfresh.1
        (by omega : size < fuel)
      simp only [runCalls, hrun, Option.bind_eq_bind, Option.bind_some, List.map_cons, applyCalls]
      by_cases hfailed : (c.apply E).1 = .failed
      · rw [if_pos hfailed, if_pos hfailed]
        refine ⟨σ₁, rfl, ?_⟩
        obtain ⟨r, p, o, l, h₁, hsize, hlost⟩ := h₁
        refine ⟨r, p, o, l, h₁, ?_, by simpa using hlost⟩
        rw [List.length_cons]
        omega
      · rw [if_neg hfailed, if_neg hfailed]
        obtain ⟨τ, hrest, h'⟩ := runCalls_spec h₁ (hfresh.2 _ _ hrun) (by omega)
        refine ⟨τ, by rw [hrest]; rfl, ?_⟩
        have hsize : size + 6 * (rest.length + 1) = size + 6 + 6 * rest.length := by omega
        rw [List.length_cons, List.length_cons, List.take_succ_cons, List.map_cons, List.sum_cons,
          ← Nat.add_assoc, hsize]
        exact h'

end Run

/-! ## What is left at the end -/

/-- The expectations after `has_leftover_values` has dropped what need not be used
up. -/
def Expectations.swept (E : Expectations) : Expectations where
  results function := dropAlways (E.results function)
  parameters function parameter := dropAlways (E.parameters function parameter)
  order := E.order.filter fun entry => ¬ entry.2 < -1

/-- Values are queued under as many names as the map is deep. -/
theorem Tree.length_of_queue_ne_nil {V : Type} : ∀ {n : Nat} {t : Tree A V n}
    {names : List String}, t.queue n names ≠ [] → names.length = n
  | 0, _, [], _ => rfl
  | 0, _, _ :: _, h => absurd rfl h
  | _ + 1, _, [], h => absurd rfl h
  | n + 1, t, name :: rest, h => by
      simp only [Tree.queue] at h
      cases hfind : List.find? (fun e => e.name = name) t with
      | none => exact absurd (by rw [hfind]) h
      | some e =>
          rw [hfind] at h
          rw [List.length_cons, Tree.length_of_queue_ne_nil h]

section Leftover

variable [DecidableEq A] {fuel : Nat} {heads : Heads A} {σ : Heap A MockValue} {E : Expectations}
  {r : Tree A MockValue 1} {p : Tree A MockValue 2} {o : Tree A MockValue 0} {lost : List A}
  {l : Nat}

namespace Holds

omit [DecidableEq A] in
/-- The map has symbols as long as a function has values. -/
theorem results_ne_nil_iff (h : Holds heads σ E r p o lost) :
    r.items 1 ≠ [] ↔ ∃ function, E.results function ≠ [] := by
  rw [Tree.items_ne_nil_iff h.tidyResults]
  constructor
  · rintro ⟨names, hnames⟩
    obtain ⟨function, rfl⟩ := List.length_eq_one_iff.mp (Tree.length_of_queue_ne_nil hnames)
    rw [h.resultsQueue] at hnames
    exact ⟨function, fun hnil => hnames (by rw [hnil, List.map_nil])⟩
  · rintro ⟨function, hfunction⟩
    exact ⟨[function], by rw [h.resultsQueue]; simpa using hfunction⟩

omit [DecidableEq A] in
theorem parameters_ne_nil_iff (h : Holds heads σ E r p o lost) :
    p.items 2 ≠ [] ↔ ∃ function parameter, E.parameters function parameter ≠ [] := by
  rw [Tree.items_ne_nil_iff h.tidyParameters]
  constructor
  · rintro ⟨names, hnames⟩
    obtain ⟨function, parameter, rfl⟩ :=
      List.length_eq_two.mp (Tree.length_of_queue_ne_nil hnames)
    rw [h.parametersQueue] at hnames
    exact ⟨function, parameter, fun hnil => hnames (by rw [hnil, List.map_nil])⟩
  · rintro ⟨function, parameter, hparameter⟩
    exact ⟨[function, parameter], by rw [h.parametersQueue]; simpa using hparameter⟩

omit [DecidableEq A] in
theorem order_ne_nil_iff (h : Holds heads σ E r p o lost) :
    (o : List (Leaf A MockValue)) ≠ [] ↔ E.order ≠ [] := by
  rw [← h.orderRep.entries]
  exact (not_congr List.map_eq_nil_iff).symm

omit [DecidableEq A] in
theorem length_le_blocks (t : List (Leaf A MockValue)) : t.length ≤ (Tree.blocks 0 t).length := by
  rw [Tree.blocks, List.length_append, List.length_map]
  exact Nat.le_add_right _ _

/-- The first sweep. -/
theorem sweepResults (h : Holds heads σ E r p o lost) (hfuel : (r.blocks 1).length < fuel) :
    ∃ (τ : Heap A MockValue) (r' : Tree A MockValue 1),
      removeAlwaysReturnValues fuel 1 σ heads.functionResultMapHead = some τ ∧
      Holds heads τ { E with results := E.swept.results } r' p o lost ∧
      (r'.blocks 1).length ≤ (r.blocks 1).length := by
  obtain ⟨τ, r', hrun, hrep, htidy, hnodup, hfoot, hsize, hqueue⟩ :=
    removeAlwaysReturnValues_spec fuel 0 σ heads.functionResultMapHead r h.results h.tidyResults
      (List.nodup_append.mp h.owns.nodup).1 (by omega) hfuel
  refine ⟨τ, r', hrun, ?_, hsize⟩
  refine h.withResults (fun b hb => h.owns.kept hfoot b ?_) hrep htidy
    (h.owns.step hfoot hnodup hrep.live) fun function => ?_
  · rw [← List.append_assoc]
    exact List.mem_append_left _ hb
  · have hdrop : r'.queue 1 [function] = dropAlways (r.queue 1 [function]) :=
      congrFun hqueue [function]
    rw [hdrop, h.resultsQueue, dropAlways_map]
    rfl

/-- The second. -/
theorem sweepParameters (h : Holds heads σ E r p o lost) (hfuel : (p.blocks 2).length < fuel) :
    ∃ (τ : Heap A MockValue) (p' : Tree A MockValue 2),
      removeAlwaysReturnValues fuel 2 σ heads.functionParameterMapHead = some τ ∧
      Holds heads τ { E with parameters := E.swept.parameters } r p' o lost ∧
      (p'.blocks 2).length ≤ (p.blocks 2).length := by
  obtain ⟨τ, p', hrun, hrep, htidy, hnodup, hfoot, hsize, hqueue⟩ :=
    removeAlwaysReturnValues_spec fuel 1 σ heads.functionParameterMapHead p h.parameters
      h.tidyParameters (List.nodup_append.mp h.ownsParameters.nodup).1 (by omega) hfuel
  refine ⟨τ, p', hrun, ?_, hsize⟩
  refine h.withParameters (fun b hb => h.ownsParameters.kept hfoot b ?_) hrep htidy
    (h.ownsParameters.step hfoot hnodup hrep.live) fun function parameter => ?_
  · rw [← List.append_assoc]
    exact List.mem_append_left _ hb
  · have hdrop : p'.queue 2 [function, parameter] = dropAlways (p.queue 2 [function, parameter]) :=
      congrFun hqueue [function, parameter]
    rw [hdrop, h.parametersQueue, dropAlways_map]
    rfl

/-- The third. -/
theorem sweepOrder (h : Holds heads σ E r p o lost) (hfuel : (o.blocks 0).length < fuel) :
    ∃ (τ : Heap A MockValue) (o' : Tree A MockValue 0),
      removeAlwaysReturnValuesFromList fuel σ heads.callOrderingHead = some τ ∧
      Holds heads τ { E with order := E.swept.order } r p o' lost ∧
      (o'.blocks 0).length ≤ (o.blocks 0).length := by
  have hlist : List.length o < fuel := (length_le_blocks o).trans_lt hfuel
  obtain ⟨τ, hrun, hrep, hnodup, hfoot⟩ :=
    removeAlwaysReturnValuesFromList_spec h.order (List.nodup_append.mp h.ownsOrder.nodup).1 hlist
  refine ⟨τ, List.filter (fun e : Leaf A MockValue => ¬ e.refcount < -1) o, hrun, ?_, ?_⟩
  · refine h.withOrder (fun b hb => h.ownsOrder.kept hfoot b ?_) hrep
      (h.ownsOrder.step hfoot hnodup hrep.live) (OrderRep.of_entries ?_ fun e he => ?_)
    · rw [← List.append_assoc]
      exact List.mem_append_left _ hb
    · show _ = E.order.filter fun entry => ¬ entry.2 < -1
      rw [← h.orderRep.entries, List.filter_map]
      rfl
    · exact h.orderRep.function e (List.mem_of_mem_filter he)
  · have hle := List.length_filter_le (fun e : Leaf A MockValue => ¬ e.refcount < -1) o
    simp only [Tree.blocks, List.length_append, List.length_map]
    omega

/-- `has_leftover_values` asks whether anything is left after the sweeps. -/
theorem hasLeftoverValues_spec {size : Nat} (h : Holding heads σ E size l) (hfuel : size < fuel) :
    ∃ (leftover : Bool) (τ : Heap A MockValue),
      hasLeftoverValues fuel heads σ = some (leftover, τ) ∧
      (leftover ↔ E.Leftover) ∧ Holding heads τ E.swept size l := by
  obtain ⟨r, p, o, lost, h, hsize, hlost⟩ := h
  have hr : (r.blocks 1).length < fuel := by omega
  have hp : (p.blocks 2).length < fuel := by omega
  have ho : (o.blocks 0).length < fuel := by omega
  obtain ⟨σ₁, r', hrun₁, h₁, hr'⟩ := h.sweepResults hr
  obtain ⟨σ₂, p', hrun₂, h₂, hp'⟩ := h₁.sweepParameters hp
  obtain ⟨τ, o', hrun₃, h₃, ho'⟩ := h₂.sweepOrder ho
  have hresults := checkForLeftoverValues_spec h₁.results h₁.tidyResults (hr'.trans_lt hr)
  have hparameters := checkForLeftoverValues_spec h₂.parameters h₂.tidyParameters (hp'.trans_lt hp)
  have hcalls := checkForLeftoverValuesList_spec h₃.order
    ((length_le_blocks o').trans_lt (ho'.trans_lt ho))
  have h₃ : Holds heads τ E.swept r' p' o' lost := h₃
  refine ⟨decide ((r'.items 1).length ≠ 0 ∨ (p'.items 2).length ≠ 0 ∨ List.length o' ≠ 0), τ,
    ?_, ?_, r', p', o', lost, h₃, by omega, hlost⟩
  · simp only [hasLeftoverValues, hrun₁, hrun₂, hrun₃, hresults, hparameters, hcalls,
      Option.bind_eq_bind, Option.bind_some]
    rfl
  · have hleft₁ := h₃.results_ne_nil_iff
    have hleft₂ := h₃.parameters_ne_nil_iff
    have hleft₃ := h₃.order_ne_nil_iff
    rw [decide_eq_true_iff, Expectations.Leftover, Ne, Ne, Ne, List.length_eq_zero_iff,
      List.length_eq_zero_iff, List.length_eq_zero_iff]
    exact or_congr hleft₁ (or_congr hleft₂ hleft₃)

end Holds

end Leftover

/-! ## Between tests -/

/-- The three heads, and blocks that nothing points to. -/
structure Idle (heads : Heads A) (σ : Heap A MockValue) (lost : List A) : Prop where
  owns : Owns σ (heads.functionResultMapHead :: heads.functionParameterMapHead ::
    heads.callOrderingHead :: lost)
  results : σ.nodeAt heads.functionResultMapHead ≠ none
  parameters : σ.nodeAt heads.functionParameterMapHead ≠ none
  order : σ.nodeAt heads.callOrderingHead ≠ none

section Between

variable [DecidableEq A] {fuel : Nat} {heads : Heads A} {σ τ : Heap A MockValue}
  {E : Expectations} {lost : List A}

omit [DecidableEq A] in
theorem Owns.overwrite {b : A} {blocks : List A} (h : Owns σ blocks) (hb : b ∈ blocks)
    (hlive : τ.block b ≠ none) (hother : ∀ c, c ≠ b → τ.block c = σ.block c) : Owns τ blocks where
  nodup := h.nodup
  live c := by
    by_cases hc : c = b
    · subst hc
      exact iff_of_true hlive hb
    · rw [hother c hc, h.live]

/-- A list head is initialized; the others are left alone. -/
theorem Owns.initialize {head : A} {blocks : List A} (h : Owns σ blocks) (hhead : head ∈ blocks)
    (hnode : σ.nodeAt head ≠ none) :
    ∃ τ, listInitialize σ head = some τ ∧ Nodes τ head [] ∧ Owns τ blocks ∧
      ∀ c, c ≠ head → τ.block c = σ.block c := by
  obtain ⟨node, hnode⟩ := Option.ne_none_iff_exists'.mp hnode
  obtain ⟨τ, hrun, hnil, -, hother, -⟩ := listInitialize_spec hnode
  obtain ⟨node', hnode', -⟩ := hnil.exists_head
  exact ⟨τ, hrun, hnil, h.overwrite hhead (Heap.block_ne_none hnode') hother, hother⟩

omit [DecidableEq A] in
theorem Nodes.frame_nil {head : A} (h : Nodes σ head []) (hblock : τ.block head = σ.block head) :
    Nodes τ head [] :=
  h.frame fun a ha => by
    obtain rfl : a = head := by simpa using ha
    exact Heap.nodeAt_congr hblock

/-- `initialize_testing` sets up three empty lists. -/
theorem Idle.initializeTesting_spec (h : Idle heads σ lost) :
    ∃ τ, initializeTesting heads σ = some τ ∧ Holding heads τ Expectations.none 0 lost.length := by
  have hnodup := h.owns.nodup
  simp only [List.nodup_cons, List.mem_cons, not_or] at hnodup
  obtain ⟨⟨hab, hac, -⟩, ⟨hbc, -⟩, -⟩ := hnodup
  obtain ⟨σ₁, hrun₁, hnil₁, howns₁, hother₁⟩ := h.owns.initialize (by simp) h.results
  have hparameters : σ₁.nodeAt heads.functionParameterMapHead ≠ none := by
    rw [Heap.nodeAt_congr (hother₁ _ (Ne.symm hab))]
    exact h.parameters
  obtain ⟨σ₂, hrun₂, hnil₂, howns₂, hother₂⟩ := howns₁.initialize (by simp) hparameters
  have horder : σ₂.nodeAt heads.callOrderingHead ≠ none := by
    rw [Heap.nodeAt_congr (hother₂ _ (Ne.symm hbc)), Heap.nodeAt_congr (hother₁ _ (Ne.symm hac))]
    exact h.order
  obtain ⟨τ, hrun₃, hnil₃, howns₃, hother₃⟩ := howns₂.initialize (by simp) horder
  refine ⟨τ, ?_, Tree.empty 1, Tree.empty 2, Tree.empty 0, lost, ?_, le_refl 0, rfl⟩
  · simp only [initializeTesting, hrun₁, hrun₂, hrun₃, Option.bind_eq_bind, Option.bind_some]
  · exact {
      results := rep_empty ((hnil₁.frame_nil (hother₂ _ hab)).frame_nil (hother₃ _ hac))
      parameters := rep_empty (hnil₂.frame_nil (hother₃ _ hbc))
      order := rep_empty hnil₃
      tidyResults := ⟨List.nodup_nil, fun _ he => absurd he List.not_mem_nil⟩
      tidyParameters := ⟨List.nodup_nil, fun _ he => absurd he List.not_mem_nil⟩
      owns := howns₃
      resultsQueue := fun _ => rfl
      parametersQueue := fun _ _ => rfl
      orderRep := rfl }

/-- One list is freed; what it is beside stays. -/
theorem Owns.freeList {n : Nat} {head : A} {t : Tree A MockValue n} {rest : List A}
    (howns : Owns σ (t.all head n ++ rest)) (h : Rep σ n head t)
    (hfuel : (t.blocks n).length < fuel) :
    ∃ τ, listFree head (cleanupFor fuel n) fuel σ = some τ ∧ Nodes τ head [] ∧
      Owns τ (head :: rest) ∧ ∀ b ∈ rest, τ.block b = σ.block b := by
  obtain ⟨τ, hrun, hnil, hfoot⟩ := listFree_tree h (List.nodup_append.mp howns.nodup).1 hfuel
  obtain ⟨node, hnode, -⟩ := hnil.exists_head
  refine ⟨τ, hrun, hnil, howns.step hfoot (List.nodup_singleton head) ?_, howns.kept hfoot⟩
  intro b hb
  obtain rfl := List.mem_singleton.mp hb
  exact Heap.block_ne_none hnode

/-- `teardown_testing` frees everything but the heads and what was lost. -/
theorem Holding.teardownTesting_spec {size l : Nat} (h : Holding heads σ E size l)
    (hfuel : size < fuel) :
    ∃ (τ : Heap A MockValue) (lost : List A), teardownTesting fuel heads σ = some τ ∧
      Idle heads τ lost ∧ lost.length = l := by
  obtain ⟨r, p, o, lost, h, hsize, hlost⟩ := h
  obtain ⟨σ₁, hrun₁, hnil₁, howns₁, hkept₁⟩ := h.owns.freeList h.results (by omega : _ < fuel)
  have hp₁ : Rep σ₁ 2 heads.functionParameterMapHead p :=
    h.parameters.frame fun b hb => hkept₁ b (List.mem_append_left _ hb)
  have ho₁ : Rep σ₁ 0 heads.callOrderingHead o :=
    h.order.frame fun b hb => hkept₁ b (List.mem_append_right _ (List.mem_append_left _ hb))
  have howns₁ : Owns σ₁ (p.all heads.functionParameterMapHead 2 ++
      (heads.functionResultMapHead :: (o.all heads.callOrderingHead 0 ++ lost))) :=
    howns₁.perm List.perm_middle.symm
  obtain ⟨σ₂, hrun₂, hnil₂, howns₂, hkept₂⟩ := howns₁.freeList hp₁ (by omega : _ < fuel)
  have ho₂ : Rep σ₂ 0 heads.callOrderingHead o := ho₁.frame fun b hb =>
    hkept₂ b (List.mem_cons_of_mem _ (List.mem_append_left _ hb))
  have howns₂ : Owns σ₂ (o.all heads.callOrderingHead 0 ++
      (heads.functionParameterMapHead :: heads.functionResultMapHead :: lost)) := by
    refine howns₂.perm ?_
    rw [List.perm_iff_count]
    intro c
    simp only [List.count_cons, List.count_append]
    omega
  obtain ⟨τ, hrun₃, hnil₃, howns₃, hkept₃⟩ := howns₂.freeList ho₂ (by omega : _ < fuel)
  have hlive : ∀ head, Nodes τ head [] → τ.nodeAt head ≠ none := fun head hnil => by
    obtain ⟨node, hnode, -⟩ := hnil.exists_head
    rw [hnode]
    exact Option.some_ne_none node
  refine ⟨τ, lost, ?_, ⟨howns₃.perm ?_, ?_, ?_, hlive _ hnil₃⟩, hlost⟩
  · simp only [teardownTesting, Option.bind_eq_bind]
    rw [show listFree heads.functionResultMapHead (freeSymbolMapValue fuel 0) fuel σ = some σ₁ from
      hrun₁, Option.bind_some,
      show listFree heads.functionParameterMapHead (freeSymbolMapValue fuel 1) fuel σ₁ = some σ₂
        from hrun₂, Option.bind_some]
    exact hrun₃
  · rw [List.perm_iff_count]
    intro c
    simp only [List.count_cons]
    omega
  · refine hlive _ ((hnil₁.frame_nil (hkept₂ _ (by simp))).frame_nil (hkept₃ _ (by simp)))
  · exact hlive _ (hnil₂.frame_nil (hkept₃ _ (by simp)))

/-! ## Whole tests -/

omit [DecidableEq A] in
/-- The result of a test in terms of what its calls did on the queues. -/
theorem TestRun.result_eq (test : TestRun A) {replies : List Reply} {E : Expectations} {rc : Int}
    (hcalls : applyCalls (test.calls.map Prod.fst) Expectations.none = (replies, E))
    (hfail : .failed ∈ replies ∨ test.ending = .fails ∨ E.Leftover → rc = -1)
    (hpass : ¬ (.failed ∈ replies ∨ test.ending = .fails ∨ E.Leftover) → rc = 0) :
    test.result = (replies, rc) := by
  unfold TestRun.result
  rw [hcalls]
  by_cases hends : .failed ∈ replies ∨ test.ending = .fails ∨ E.Leftover
  · simp only [if_pos hends, hfail hends]
  · simp only [if_neg hends, hpass hends]

/-- A test on the heap has the result it has on the queues, whatever ran before it,
and frees what it allocates up to the blocks its calls lose. -/
theorem runOneTest_spec (h : Idle heads σ lost) (test : TestRun A)
    (hfresh : ∀ τ, initializeTesting heads σ = some τ → MallocsFresh fuel heads test.calls τ)
    (hfuel : 6 * test.calls.length < fuel) :
    ∃ (τ : Heap A MockValue) (lost' : List A),
      runOneTest fuel heads test σ = some (test.result, τ) ∧ Idle heads τ lost' ∧
      lost'.length = lost.length + test.loses := by
  obtain ⟨σ₁, hinit, h₁⟩ := h.initializeTesting_spec
  obtain ⟨σ₂, hcalls, h₂⟩ := runCalls_spec h₁ (hfresh σ₁ hinit) (by omega)
  rw [Nat.zero_add] at h₂
  have hloses : test.loses = ((test.calls.map Prod.fst).take
      (applyCalls (test.calls.map Prod.fst) Expectations.none).1.length |>.map
        Call.loses).sum := rfl
  rw [← hloses] at h₂
  rcases happly : applyCalls (test.calls.map Prod.fst) Expectations.none with ⟨replies, E⟩
  rw [happly] at hcalls h₂
  simp only [runOneTest, hinit, hcalls, Option.bind_eq_bind, Option.bind_some]
  by_cases hends : .failed ∈ replies ∨ test.ending = .fails
  · obtain ⟨τ, lost', hteardown, hidle, hlost⟩ := h₂.teardownTesting_spec hfuel
    have hresult : test.result = (replies, -1) :=
      test.result_eq happly (fun _ => rfl) fun hnot => absurd (hends.imp id Or.inl) hnot
    refine ⟨τ, lost', ?_, hidle, hlost⟩
    simp only [if_pos hends, hresult, Option.bind_some, hteardown, Option.pure_def]
  · obtain ⟨leftover, σ₃, hleft, hiff, h₃⟩ := Holds.hasLeftoverValues_spec h₂ hfuel
    obtain ⟨τ, lost', hteardown, hidle, hlost⟩ := h₃.teardownTesting_spec hfuel
    refine ⟨τ, lost', ?_, hidle, hlost⟩
    have hresult : test.result = (replies, if leftover then -1 else 0) := by
      refine test.result_eq happly (fun hany => if_pos ?_) fun hnone => if_neg ?_
      · rcases hany with hany | hany | hany
        · exact absurd (Or.inl hany) hends
        · exact absurd (Or.inr hany) hends
        · exact hiff.mpr hany
      · exact fun hleftover => hnone (Or.inr (Or.inr (hiff.mp hleftover)))
    rw [if_neg hends, hleft, hresult]
    simp only [Option.map_some, Option.bind_some, hteardown, Option.pure_def]

/-- A program of tests: each has the result it has on the queues alone, so no test
sees what another one has left, and in the end only the lost blocks are live beside
the heads. -/
theorem runTests_spec : ∀ {tests : List (TestRun A)} {σ : Heap A MockValue} {lost : List A},
    Idle heads σ lost → TestsFresh fuel heads tests σ →
    (∀ test ∈ tests, 6 * test.calls.length < fuel) →
    ∃ (τ : Heap A MockValue) (lost' : List A),
      runTests fuel heads tests σ = some (tests.map TestRun.result, τ) ∧ Idle heads τ lost' ∧
      lost'.length = lost.length + (tests.map TestRun.loses).sum
  | [], σ, lost, h, _, _ => ⟨σ, lost, rfl, h, rfl⟩
  | test :: rest, σ, lost, h, hfresh, hfuel => by
      obtain ⟨σ₁, lost₁, hrun, h₁, hlost₁⟩ :=
        runOneTest_spec h test hfresh.1 (hfuel test List.mem_cons_self)
      obtain ⟨τ, lost', hrest, h', hlost'⟩ := runTests_spec h₁ (hfresh.2 _ _ hrun)
        fun next hnext => hfuel next (List.mem_cons_of_mem _ hnext)
      refine ⟨τ, lost', ?_, h', ?_⟩
      · simp only [runTests, hrun, hrest, Option.bind_eq_bind, Option.bind_some, List.map_cons,
          Option.pure_def]
      · rw [hlost', hlost₁, List.map_cons, List.sum_cons, Nat.add_assoc]

end Between

/-! ## Two tests on one heap -/

/-- In an idle heap every address but the heads is free for the first call. -/
theorem Idle.mallocsFresh [DecidableEq A] {fuel : Nat} {heads : Heads A} {σ : Heap A MockValue}
    {mallocs : List A} (h : Idle heads σ []) (hnodup : mallocs.Nodup) (hlength : 6 ≤ mallocs.length)
    (hapart : ∀ a ∈ mallocs, a ∉ [heads.functionResultMapHead, heads.functionParameterMapHead,
      heads.callOrderingHead]) (c : Call) :
    ∀ τ, initializeTesting heads σ = some τ → MallocsFresh fuel heads [(c, mallocs)] τ := by
  intro τ hinit
  obtain ⟨τ', hinit', r, p, o, lost, hholds, hsize, hlost⟩ := h.initializeTesting_spec
  obtain rfl : τ' = τ := Option.some.inj (hinit'.symm.trans hinit)
  have hr : r.blocks 1 = [] := List.length_eq_zero_iff.mp (by omega)
  have hp : p.blocks 2 = [] := List.length_eq_zero_iff.mp (by omega)
  have ho : o.blocks 0 = [] := List.length_eq_zero_iff.mp (by omega)
  obtain rfl : lost = [] := List.length_eq_zero_iff.mp (by simpa using hlost)
  refine ⟨⟨hnodup, fun a ha => ?_, hlength⟩, fun _ _ _ => trivial⟩
  by_contra hlive
  have hmem := (hholds.owns.live a).mp hlive
  rw [Tree.all, Tree.all, Tree.all, hr, hp, ho] at hmem
  exact hapart a ha (by simpa using hmem)

/-- The heads and the heap of a program that has run no test yet. -/
def startHeads : Heads Nat := ⟨0, 1, 2⟩

def startHeap : Heap Nat MockValue where
  block b := if b < 3 then some (.listNode { value := none, refcount := 0, next := b, prev := b })
    else none
  mallocs := []

theorem idle_startHeap : Idle startHeads startHeap [] where
  owns := ⟨by simp [startHeads], fun b => by
    simp only [startHeap, startHeads]
    split_ifs with hb
    · simp only [ne_eq, reduceCtorEq, not_false_eq_true, true_iff, List.mem_cons]
      omega
    · simp only [ne_eq, not_true_eq_false, List.mem_cons, List.not_mem_nil, or_false, false_iff]
      omega⟩
  results := by decide
  parameters := by decide
  order := by decide

/-- A test that expects two calls and makes none. -/
def expectingTest : TestRun Nat := ⟨[(.expectFunctionCall "f" 2, [3, 4, 5, 6, 7, 8])], .returns⟩

/-- A test that makes a call that is not expected. -/
def callingTest : TestRun Nat := ⟨[(.functionCalled "f", [3, 4, 5, 6, 7, 8])], .returns⟩

theorem expectingTest_result : expectingTest.result = ([.done], -1) := by
  refine expectingTest.result_eq (E := ⟨fun _ => [], fun _ _ => [], [("f", 2)]⟩) rfl (fun _ => rfl)
    fun hnot => absurd (Or.inr (Or.inr (Or.inr (Or.inr ?_)))) hnot
  simp

theorem callingTest_result : callingTest.result = ([.failed], -1) :=
  callingTest.result_eq rfl (fun _ => rfl) fun hnot => absurd (Or.inl (by simp)) hnot

/-- What the first test expects is gone when the second one runs. -/
theorem runTests_spec_isolated : ∃ (τ : Heap Nat MockValue) (lost : List Nat),
    runTests 7 startHeads [expectingTest, callingTest] startHeap =
      some ([([.done], -1), ([.failed], -1)], τ) ∧ Idle startHeads τ lost := by
  have hfresh : ∀ {σ : Heap Nat MockValue}, Idle startHeads σ [] → ∀ c τ,
      initializeTesting startHeads σ = some τ →
      MallocsFresh 7 startHeads [(c, [3, 4, 5, 6, 7, 8])] τ := fun hidle c =>
    hidle.mallocsFresh (by simp) (by simp) (by simp [startHeads]) c
  have hnext : ∀ result τ, runOneTest 7 startHeads expectingTest startHeap = some (result, τ) →
      TestsFresh 7 startHeads [callingTest] τ := by
    intro result τ hrun
    obtain ⟨τ', lost', hrun', hidle, hlost⟩ := runOneTest_spec idle_startHeap expectingTest
      (hfresh idle_startHeap _) (by decide : 6 * expectingTest.calls.length < 7)
    obtain ⟨-, rfl⟩ : _ ∧ τ' = τ := by simpa using hrun'.symm.trans hrun
    obtain rfl : lost' = [] := by
      rw [TestRun.loses, expectingTest_result] at hlost
      exact List.length_eq_zero_iff.mp hlost
    exact ⟨hfresh hidle _, fun _ _ _ => trivial⟩
  have htests : TestsFresh 7 startHeads [expectingTest, callingTest] startHeap :=
    ⟨hfresh idle_startHeap _, hnext⟩
  obtain ⟨τ, lost, hrun, hidle, -⟩ :=
    runTests_spec idle_startHeap htests (by simp [expectingTest, callingTest])
  refine ⟨τ, lost, ?_, hidle⟩
  rw [hrun, List.map_cons, List.map_cons, expectingTest_result, callingTest_result]
  rfl

end TraceRecorderTests.Cmocka
