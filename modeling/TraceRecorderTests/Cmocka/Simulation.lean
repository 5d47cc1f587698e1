import TraceRecorderTests.Cmocka.Holds

/-!
# Every call does on the heap what it does on the queues

One lemma for each of the six calls, and `Holding.run_spec` over them: from a heap
that holds the expectations `E`, a call runs to its end, replies what `Call.apply`
replies, and leaves a heap that holds the new expectations.
-/

namespace TraceRecorderTests.Cmocka

variable {A : Type}

/-! ## Queues of the two kinds of values -/

theorem served_map {V W : Type} (f : V → W) (q : List (V × Int)) :
    served (q.map fun e => (f e.1, e.2)) = (served q).map fun e => (f e.1, e.2) := by
  cases q with
  | nil => rfl
  | cons e rest =>
      simp only [List.map_cons, served]
      split_ifs
      · rfl
      · rfl
      · rfl

theorem dropAlways_map {V W : Type} (f : V → W) (q : List (V × Int)) :
    dropAlways (q.map fun e => (f e.1, e.2)) = (dropAlways q).map fun e => (f e.1, e.2) := by
  cases q with
  | nil => rfl
  | cons e rest =>
      simp only [List.map_cons, dropAlways]
      split_ifs
      · rfl
      · rfl

/-- A new queue for one function. -/
theorem results_update {q q' : List String → List (MockValue × Int)}
    {results : String → List (UIntMax × Int)} {function : String} {l : List (UIntMax × Int)}
    (h : ∀ f, q [f] = (results f).map fun e => (.symbolValue e.1, e.2))
    (hq' : q' = Function.update q [function] (l.map fun e => (.symbolValue e.1, e.2))) :
    ∀ f, q' [f] = (Function.update results function l f).map fun e => (.symbolValue e.1, e.2) := by
  intro f
  rw [hq']
  by_cases hf : f = function
  · subst hf
    rw [Function.update_self, Function.update_self]
  · rw [Function.update_of_ne hf, Function.update_of_ne (by simpa using hf), h]

/-- A new queue for one parameter of one function. -/
theorem parameters_update {q q' : List String → List (MockValue × Int)}
    {parameters : String → String → List (CheckParameterEvent × Int)} {function parameter : String}
    {l : List (CheckParameterEvent × Int)}
    (h : ∀ f p, q [f, p] = (parameters f p).map fun e => (.checkParameterEvent e.1, e.2))
    (hq' : q' = Function.update q [function, parameter]
      (l.map fun e => (.checkParameterEvent e.1, e.2))) :
    ∀ f p, q' [f, p] = (Function.update parameters function
      (Function.update (parameters function) parameter l) f p).map
        fun e => (.checkParameterEvent e.1, e.2) := by
  intro f p
  rw [hq']
  by_cases hf : f = function
  · subst hf
    by_cases hp : p = parameter
    · subst hp
      rw [Function.update_self, Function.update_self, Function.update_self]
    · rw [Function.update_self, Function.update_of_ne hp, Function.update_of_ne (by simpa using hp),
        h]
  · rw [Function.update_of_ne hf, Function.update_of_ne (by simp [hf]), h]

/-! ## One map beside the others -/

section Maps

variable [DecidableEq A] {σ : Heap A MockValue} {head : A} {n : Nat} {t : Tree A MockValue n}
  {rest : List A} {fuel : Nat} {names : List String}

/-- The value that was served for the last time is freed. -/
theorem Owns.freeTaken {a : A} {count : Int} {blocks : List A}
    (h : Owns σ (taken a count ++ blocks)) :
    ∃ τ, (if count = 1 then σ.free a else some σ) = some τ ∧
      (∀ b ∈ blocks, τ.block b = σ.block b) ∧ Owns τ blocks := by
  by_cases hcount : count = 1
  · rw [taken, if_pos hcount] at h
    rw [if_pos hcount]
    exact h.free
  · rw [taken, if_neg hcount] at h
    rw [if_neg hcount]
    exact ⟨σ, rfl, fun _ _ => rfl, h⟩

/-- What comes after a value was freed or kept. -/
private theorem ite_bind {α β : Type} {c : Prop} [Decidable c] {x : Option α} {a b : α}
    (h : (if c then x else some a) = some b) (k : α → Option β) :
    (if c then x.bind k else k a) = k b := by
  by_cases hc : c
  · rw [if_pos hc] at h
    rw [if_pos hc, h, Option.bind_some]
  · rw [if_neg hc] at h
    rw [if_neg hc, Option.some.inj h]

/-- A value is allocated and put at the end of its queue. -/
theorem Owns.append {f : A → Heap A MockValue → A → Option (Heap A MockValue)} {v : MockValue}
    {count : Int} (howns : Owns σ (t.all head n ++ rest)) (h : Rep σ n head t) (htidy : t.Tidy n)
    (hadds : ∀ a, Adds (f a) fuel a v count n names) (hsupply : Supply σ (2 * n + 2))
    (hfuel : (t.blocks n).length < fuel) :
    ∃ (a : A) (σ₁ τ : Heap A MockValue) (t' : Tree A MockValue n),
      σ.malloc (fun _ => .value v) = some (a, σ₁) ∧ f a σ₁ head = some τ ∧ Rep τ n head t' ∧
      t'.Tidy n ∧ (∀ b ∈ rest, τ.block b = σ.block b) ∧ Owns τ (t'.all head n ++ rest) ∧
      (t'.blocks n).length ≤ (t.blocks n).length + (2 * n + 2) ∧
      t'.queue n = Function.update (t.queue n) names (t.queue n names ++ [(v, count)]) := by
  obtain ⟨a, σ₁, hmalloc, ha, hkept, howns₁, hsupply₁⟩ := howns.malloc hsupply fun _ => .value v
  have hvalue : σ₁.valueAt a = some v := by
    rw [Heap.valueAt, ha]
    rfl
  have hrep₁ : Rep σ₁ n head t := h.frame fun b hb => hkept b (List.mem_append_left _ hb)
  have howns₂ : Owns σ₁ (head :: (a :: t.blocks n) ++ rest) :=
    howns₁.perm (List.Perm.swap _ _ _)
  obtain ⟨τ, t', hrun, hrep, htidy', hnodup, hfoot, -, hsize, hqueue⟩ :=
    hadds a σ₁ head t hrep₁ htidy (List.nodup_append.mp howns₂.nodup).1 hvalue hsupply₁ hfuel
  refine ⟨a, σ₁, τ, t', hmalloc, hrun, hrep, htidy', fun b hb => ?_,
    howns₂.step hfoot hnodup hrep.live, hsize, hqueue⟩
  rw [howns₂.kept hfoot b hb, hkept b (List.mem_append_right _ hb)]

/-- The first value of a queue is served, and freed if it was for the last time. -/
theorem Owns.serve {f : Heap A MockValue → A → Option (Option (A × Int) × Heap A MockValue)}
    {v : MockValue} {count : Int} {queue : List (MockValue × Int)}
    (howns : Owns σ (t.all head n ++ rest)) (h : Rep σ n head t) (htidy : t.Tidy n)
    (hn : n ≠ 0) (hgets : Gets f fuel n names) (hfuel : (t.blocks n).length < fuel)
    (hfirst : t.queue n names = (v, count) :: queue) :
    ∃ (a : A) (σ₁ τ : Heap A MockValue) (t' : Tree A MockValue n),
      f σ head = some (some (a, count), σ₁) ∧ σ₁.valueAt a = some v ∧
      (if count = 1 then σ₁.free a else some σ₁) = some τ ∧ Rep τ n head t' ∧ t'.Tidy n ∧
      (∀ b ∈ rest, τ.block b = σ.block b) ∧ Owns τ (t'.all head n ++ rest) ∧
      (t'.blocks n).length ≤ (t.blocks n).length ∧
      t'.queue n = Function.update (t.queue n) names (served (t.queue n names)) := by
  have hget := hgets σ head t h htidy (List.nodup_append.mp howns.nodup).1 (absurd · hn) hfuel
  rw [hfirst] at hget
  obtain ⟨a, σ₁, t', hrun, hrep, htidy', hvalue, hnodup, hfoot, hsize, hqueue⟩ := hget
  have hlive : ∀ b ∈ head :: (taken a count ++ t'.blocks n), σ₁.block b ≠ none := by
    intro b hb
    rw [List.mem_cons, List.mem_append] at hb
    rcases hb with rfl | hb | hb
    · exact hrep.live _ List.mem_cons_self
    · have hba : b = a := by
        rw [taken] at hb
        split_ifs at hb
        · exact List.mem_singleton.mp hb
        · cases hb
      intro hnone
      rw [Heap.valueAt, ← hba, hnone] at hvalue
      cases hvalue
    · exact hrep.live b (List.mem_cons_of_mem _ hb)
  have howns₁ : Owns σ₁ (taken a count ++ (t'.all head n ++ rest)) := by
    refine (howns.step hfoot hnodup hlive).perm ?_
    rw [List.perm_iff_count]
    intro c
    simp only [Tree.all, List.count_cons, List.count_append]
    omega
  obtain ⟨τ, hfree, hkept, howns₂⟩ := howns₁.freeTaken
  refine ⟨a, σ₁, τ, t', hrun, hvalue, hfree,
    hrep.frame fun b hb => hkept b (List.mem_append_left _ hb), htidy', fun b hb => ?_, howns₂,
    hsize, hqueue.trans (by rw [hfirst])⟩
  rw [hkept b (List.mem_append_right _ hb), howns.kept hfoot b hb]

end Maps

/-! ## The calls -/

section Calls

variable [DecidableEq A] {heads : Heads A} {σ : Heap A MockValue} {E : Expectations}
  {r : Tree A MockValue 1} {p : Tree A MockValue 2} {o : Tree A MockValue 0} {lost : List A}
  {fuel : Nat}

namespace Holds

/-- `_will_return`: with a count of 0 the block it allocated is lost. -/
theorem willReturn_spec (h : Holds heads σ E r p o lost) (hsupply : Supply σ 4)
    (hfuel : (r.blocks 1).length < fuel) (function : String) (value : UIntMax) (count : Int) :
    ∃ (τ : Heap A MockValue) (r' : Tree A MockValue 1) (lost' : List A),
      willReturn fuel heads σ function value count =
        some (((Call.willReturn function value count).apply E).1, τ) ∧
      Holds heads τ ((Call.willReturn function value count).apply E).2 r' p o lost' ∧
      (r'.blocks 1).length ≤ (r.blocks 1).length + 4 ∧
      lost'.length = lost.length + if count = 0 then 1 else 0 := by
  simp only [willReturn, Call.apply, Option.bind_eq_bind]
  by_cases hcount : count = 0
  · obtain ⟨a, τ, hmalloc, -, hkept, howns, -⟩ :=
      h.owns.malloc hsupply fun _ => .value (.symbolValue value)
    refine ⟨τ, r, a :: lost, ?_, ?_, Nat.le_add_right _ _, ?_⟩
    · rw [hmalloc, Option.bind_some, if_pos hcount, if_pos hcount]
      rfl
    · rw [if_pos hcount]
      exact h.lose hkept howns
    · rw [if_pos hcount, List.length_cons]
  · have hadds : ∀ a : A, Adds (fun σ head => addSymbolValue fuel a count [function] σ head) fuel a
        (MockValue.symbolValue value) count 1 [function] := fun a =>
      addSymbolValue_spec fuel a (MockValue.symbolValue value) count [function] (by simp)
    obtain ⟨a, σ₁, τ, r', hmalloc, hrun, hrep, htidy, hkept, howns, hsize, hqueue⟩ :=
      h.owns.append h.results h.tidyResults hadds hsupply hfuel
    refine ⟨τ, r', lost, ?_, ?_, hsize, by rw [if_neg hcount, Nat.add_zero]⟩
    · rw [hmalloc, Option.bind_some, if_neg hcount, if_neg hcount, hrun]
      rfl
    · rw [if_neg hcount]
      refine h.withResults (fun b hb => hkept b ?_) hrep htidy howns ?_
      · rw [← List.append_assoc]
        exact List.mem_append_left _ hb
      · refine results_update h.resultsQueue (hqueue.trans ?_)
        rw [h.resultsQueue, List.map_append]
        rfl

/-- `_mock` serves the first value of the queue of its function. -/
theorem mock_spec (h : Holds heads σ E r p o lost) (hfuel : (r.blocks 1).length < fuel)
    (function : String) :
    ∃ (τ : Heap A MockValue) (r' : Tree A MockValue 1),
      mock fuel heads σ function = some (((Call.mock function).apply E).1, τ) ∧
      Holds heads τ ((Call.mock function).apply E).2 r' p o lost ∧
      (r'.blocks 1).length ≤ (r.blocks 1).length := by
  have hgets : Gets (fun (σ : Heap A MockValue) head => getSymbolValue fuel [function] σ head) fuel
      1 [function] := getSymbolValue_spec fuel [function] (by simp)
  simp only [mock, Call.apply, Option.bind_eq_bind, Option.pure_def]
  rcases hq : E.results function with _ | ⟨⟨value, count⟩, rest⟩
  · have hget := hgets σ heads.functionResultMapHead r h.results h.tidyResults
      (List.nodup_append.mp h.owns.nodup).1 (by omega) hfuel
    rw [h.resultsQueue, hq] at hget
    have hget : getSymbolValue fuel [function] σ heads.functionResultMapHead = some (none, σ) :=
      hget
    exact ⟨σ, r, by rw [hget, Option.bind_some], h, le_refl _⟩
  · obtain ⟨a, σ₁, τ, r', hrun, hvalue, hfree, hrep, htidy, hkept, howns, hsize, hqueue⟩ :=
      h.owns.serve h.results h.tidyResults (by omega) hgets hfuel
        (by rw [h.resultsQueue, hq, List.map_cons])
    have hfree : (if count = 1 then σ₁.free a else some σ₁) = some τ := hfree
    refine ⟨τ, r', ?_, ?_, hsize⟩
    · rw [hrun, Option.bind_some]
      by_cases hcount : count = 0
      · have hstay : σ₁ = τ := by
          rw [if_neg (by omega)] at hfree
          exact Option.some.inj hfree
        simp only [if_pos hcount, hstay]
      · simp only [if_neg hcount, hvalue, Option.bind_some]
        exact ite_bind hfree _
    · refine h.withResults (fun b hb => hkept b ?_) hrep htidy howns ?_
      · rw [← List.append_assoc]
        exact List.mem_append_left _ hb
      · refine results_update h.resultsQueue (hqueue.trans ?_)
        rw [h.resultsQueue, hq, served_map]

/-- `_expect_check` puts the check at the end of the queue of its parameter. -/
theorem expectCheck_spec (h : Holds heads σ E r p o lost) (hsupply : Supply σ 6)
    (hfuel : (p.blocks 2).length < fuel) (function parameter : String)
    (check : CheckParameterEvent) (count : Int) :
    ∃ (τ : Heap A MockValue) (p' : Tree A MockValue 2),
      expectCheck fuel heads σ function parameter check count =
        some (((Call.expectCheck function parameter check count).apply E).1, τ) ∧
      Holds heads τ ((Call.expectCheck function parameter check count).apply E).2 r p' o lost ∧
      (p'.blocks 2).length ≤ (p.blocks 2).length + 6 := by
  have hadds : ∀ a : A, Adds
      (fun σ head => addSymbolValue fuel a count [function, parameter] σ head) fuel a
      (MockValue.checkParameterEvent check) count 2 [function, parameter] := fun a =>
    addSymbolValue_spec fuel a (MockValue.checkParameterEvent check) count [function, parameter]
      (by simp)
  obtain ⟨a, σ₁, τ, p', hmalloc, hrun, hrep, htidy, hkept, howns, hsize, hqueue⟩ :=
    h.ownsParameters.append h.parameters h.tidyParameters hadds hsupply hfuel
  refine ⟨τ, p', ?_, ?_, hsize⟩
  · simp only [expectCheck, hmalloc, hrun, Option.bind_eq_bind, Option.bind_some]
    rfl
  · refine h.withParameters (fun b hb => hkept b ?_) hrep htidy howns ?_
    · rw [← List.append_assoc]
      exact List.mem_append_left _ hb
    · refine parameters_update h.parametersQueue (hqueue.trans ?_)
      rw [h.parametersQueue, List.map_append]
      rfl

/-- `_check_expected` uses the first check of the queue of its parameter. -/
theorem checkExpected_spec (h : Holds heads σ E r p o lost) (hfuel : (p.blocks 2).length < fuel)
    (function parameter : String) (value : UIntMax) :
    ∃ (τ : Heap A MockValue) (p' : Tree A MockValue 2),
      checkExpected fuel heads σ function parameter value =
        some (((Call.checkExpected function parameter value).apply E).1, τ) ∧
      Holds heads τ ((Call.checkExpected function parameter value).apply E).2 r p' o lost ∧
      (p'.blocks 2).length ≤ (p.blocks 2).length := by
  have hgets : Gets (fun (σ : Heap A MockValue) head =>
      getSymbolValue fuel [function, parameter] σ head) fuel 2 [function, parameter] :=
    getSymbolValue_spec fuel [function, parameter] (by simp)
  simp only [checkExpected, Call.apply, Option.bind_eq_bind, Option.pure_def]
  rcases hq : E.parameters function parameter with _ | ⟨⟨check, count⟩, rest⟩
  · have hget := hgets σ heads.functionParameterMapHead p h.parameters h.tidyParameters
      (List.nodup_append.mp h.ownsParameters.nodup).1 (by omega) hfuel
    rw [h.parametersQueue, hq] at hget
    have hget : getSymbolValue fuel [function, parameter] σ heads.functionParameterMapHead =
        some (none, σ) := hget
    exact ⟨σ, p, by rw [hget, Option.bind_some], h, le_refl _⟩
  · obtain ⟨a, σ₁, τ, p', hrun, hvalue, hfree, hrep, htidy, hkept, howns, hsize, hqueue⟩ :=
      h.ownsParameters.serve h.parameters h.tidyParameters (by omega) hgets hfuel
        (by rw [h.parametersQueue, hq, List.map_cons])
    have hfree : (if count = 1 then σ₁.free a else some σ₁) = some τ := hfree
    refine ⟨τ, p', ?_, ?_, hsize⟩
    · rw [hrun, Option.bind_some]
      by_cases hcount : count = 0
      · have hstay : σ₁ = τ := by
          rw [if_neg (by omega)] at hfree
          exact Option.some.inj hfree
        simp only [if_pos hcount, hstay]
      · simp only [if_neg hcount, hvalue, Option.bind_some]
        rw [ite_bind hfree]
        by_cases hpass : check.checkValue value check.checkValueData
        · rw [if_pos hpass, if_pos hpass]
        · rw [if_neg hpass, if_neg hpass]
    · refine h.withParameters (fun b hb => hkept b ?_) hrep htidy howns ?_
      · rw [← List.append_assoc]
        exact List.mem_append_left _ hb
      · refine parameters_update h.parametersQueue (hqueue.trans ?_)
        rw [h.parametersQueue, hq, served_map]

/-- `_expect_function_call` puts the name at the end of the list. -/
theorem expectFunctionCall_spec (h : Holds heads σ E r p o lost) (hsupply : Supply σ 2)
    (hfuel : (o.blocks 0).length < fuel) (function : String) (count : Int) :
    ∃ (τ : Heap A MockValue) (o' : Tree A MockValue 0),
      expectFunctionCall heads σ function count =
        some (((Call.expectFunctionCall function count).apply E).1, τ) ∧
      Holds heads τ ((Call.expectFunctionCall function count).apply E).2 r p o' lost ∧
      (o'.blocks 0).length ≤ (o.blocks 0).length + 2 := by
  simp only [expectFunctionCall, Call.apply, Option.bind_eq_bind, Option.pure_def]
  by_cases hcount : count = 0
  · rw [if_pos hcount, if_pos hcount]
    exact ⟨σ, o, rfl, h, Nat.le_add_right _ _⟩
  · rw [if_neg hcount, if_neg hcount]
    obtain ⟨a, σ₁, τ, o', hmalloc, hrun, hrep, -, hkept, howns, hsize, hqueue⟩ :=
      h.ownsOrder.append h.order trivial
        (fun a => adds_nil fuel a (MockValue.funcOrderingValue function) count) hsupply hfuel
    obtain ⟨⟨node, τ'⟩, hadd, rfl⟩ := Option.map_eq_some_iff.mp hrun
    refine ⟨τ', o', ?_, ?_, hsize⟩
    · simp only [hmalloc, hadd, Option.bind_some]
    · refine h.withOrder (fun b hb => hkept b ?_) hrep howns ?_
      · rw [← List.append_assoc]
        exact List.mem_append_left _ hb
      · rw [OrderRep, hqueue, Function.update_self, h.orderRep, List.map_append]
        rfl

/-- `_function_called` uses the first expected call that has to come now. -/
theorem functionCalled_spec (h : Holds heads σ E r p o lost) (hfuel : (o.blocks 0).length < fuel)
    (function : String) :
    ∃ (τ : Heap A MockValue) (o' : Tree A MockValue 0),
      (Call.functionCalled function).run fuel heads σ =
        some (((Call.functionCalled function).apply E).1, τ) ∧
      Holds heads τ ((Call.functionCalled function).apply E).2 r p o' lost ∧
      (o'.blocks 0).length ≤ (o.blocks 0).length := by
  have hlength : ∀ t : Tree A MockValue 0, (t.blocks 0).length = List.length t + List.length t :=
    fun t => by rw [Tree.blocks, List.length_append, List.length_map, List.length_map]
  have hlist : List.length o < fuel := by
    rw [hlength] at hfuel
    omega
  have hspec := Cmocka.functionCalled_spec function h.order h.orderRep
    (List.nodup_append.mp h.ownsOrder.nodup).1 hlist
  simp only [Call.run, Call.apply, Option.bind_eq_bind, Option.pure_def]
  cases hcalled : called function E.order with
  | none =>
      rw [hcalled] at hspec
      exact ⟨σ, o, by rw [hspec]; rfl, h, le_refl _⟩
  | some order =>
      rw [hcalled] at hspec
      obtain ⟨τ, o', hrun, hrep, horder, hnodup, hsize, hfoot⟩ := hspec
      refine ⟨τ, o', by rw [hrun]; rfl, ?_, by rw [hlength, hlength]; omega⟩
      refine h.withOrder (fun b hb => h.ownsOrder.kept hfoot b ?_) hrep
        (h.ownsOrder.step hfoot hnodup hrep.live) horder
      rw [← List.append_assoc]
      exact List.mem_append_left _ hb

end Holds

/-- The blocks that a call loses. -/
def Call.loses : Call → Nat
  | .willReturn _ _ count => if count = 0 then 1 else 0
  | _ => 0

/-- The heap holds `E` in at most `size` blocks beside the list heads, and `lost`
more are lost. -/
def Holding (heads : Heads A) (σ : Heap A MockValue) (E : Expectations) (size lost : Nat) : Prop :=
  ∃ (r : Tree A MockValue 1) (p : Tree A MockValue 2) (o : Tree A MockValue 0) (l : List A),
    Holds heads σ E r p o l ∧
    (r.blocks 1).length + (p.blocks 2).length + (o.blocks 0).length ≤ size ∧ l.length = lost

omit [DecidableEq A] in
theorem Supply.mono {k k' : Nat} (h : Supply σ k) (hle : k' ≤ k) : Supply σ k' :=
  ⟨h.nodup, h.free, hle.trans h.enough⟩

/-- Every call runs to its end and does to the heap what it does to the queues. -/
theorem Holding.run_spec {size lost : Nat} (h : Holding heads σ E size lost) (c : Call)
    (hsupply : Supply σ 6) (hfuel : size < fuel) :
    ∃ τ, c.run fuel heads σ = some ((c.apply E).1, τ) ∧
      Holding heads τ (c.apply E).2 (size + 6) (lost + c.loses) := by
  obtain ⟨r, p, o, l, h, hsize, rfl⟩ := h
  have hr : (r.blocks 1).length < fuel := by omega
  have hp : (p.blocks 2).length < fuel := by omega
  have ho : (o.blocks 0).length < fuel := by omega
  cases c with
  | willReturn function value count =>
      obtain ⟨τ, r', l', hrun, h', hr', hl'⟩ :=
        h.willReturn_spec (hsupply.mono (by omega)) hr function value count
      exact ⟨τ, hrun, r', p, o, l', h', by omega, hl'⟩
  | mock function =>
      obtain ⟨τ, r', hrun, h', hr'⟩ := h.mock_spec hr function
      exact ⟨τ, hrun, r', p, o, l, h', by omega, rfl⟩
  | expectCheck function parameter check count =>
      obtain ⟨τ, p', hrun, h', hp'⟩ :=
        h.expectCheck_spec hsupply hp function parameter check count
      exact ⟨τ, hrun, r, p', o, l, h', by omega, rfl⟩
  | checkExpected function parameter value =>
      obtain ⟨τ, p', hrun, h', hp'⟩ := h.checkExpected_spec hp function parameter value
      exact ⟨τ, hrun, r, p', o, l, h', by omega, rfl⟩
  | expectFunctionCall function count =>
      obtain ⟨τ, o', hrun, h', ho'⟩ :=
        h.expectFunctionCall_spec (hsupply.mono (by omega)) ho function count
      exact ⟨τ, hrun, r, p, o', l, h', by omega, rfl⟩
  | functionCalled function =>
      obtain ⟨τ, o', hrun, h', ho'⟩ := h.functionCalled_spec ho function
      exact ⟨τ, hrun, r, p, o', l, h', by omega, rfl⟩

end Calls

end TraceRecorderTests.Cmocka
