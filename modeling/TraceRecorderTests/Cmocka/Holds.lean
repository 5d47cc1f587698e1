import TraceRecorderTests.Cmocka.Expectations

/-!
# The heap holds what a test expects

`Holds` relates the heap to the queues of `Expectations`: three symbol trees that
share no block, and beside them only blocks that were lost before. The lemmas here
say how the relation goes on when one of the three trees changes and the others
are left alone.
-/

namespace TraceRecorderTests.Cmocka

variable {A : Type}

/-! ## Live blocks -/

/-- The live blocks are exactly these, all different. -/
structure Owns (σ : Heap A MockValue) (blocks : List A) : Prop where
  nodup : blocks.Nodup
  live : ∀ b, σ.block b ≠ Option.none ↔ b ∈ blocks

namespace Owns

variable {σ τ : Heap A MockValue} {blocks blocks' rest O O' : List A} {head : A}

theorem perm (h : Owns σ blocks) (hperm : blocks.Perm blocks') : Owns σ blocks' where
  nodup := hperm.nodup_iff.mp h.nodup
  live b := (h.live b).trans hperm.mem_iff

/-- A change within one part leaves the rest alone. -/
theorem kept (h : Owns σ (head :: O ++ rest)) (hfoot : Footprint σ τ head O O') :
    ∀ b ∈ rest, τ.block b = σ.block b := by
  intro b hb
  have hapart := (List.nodup_append.mp h.nodup).2.2
  have hne : b ≠ head := fun heq => hapart head List.mem_cons_self b hb heq.symm
  have hO : b ∉ O := fun hmem => hapart b (List.mem_cons_of_mem _ hmem) b hb rfl
  have hlive : σ.block b ≠ Option.none := (h.live b).mpr (List.mem_append_right _ hb)
  exact hfoot.frame b hne hO fun hmem => hlive (hfoot.fresh b hne hmem hO)

/-- The part owns what it has after the change, and the rest stays. -/
theorem step (h : Owns σ (head :: O ++ rest)) (hfoot : Footprint σ τ head O O')
    (hnodup : (head :: O').Nodup) (hlive : ∀ b ∈ head :: O', τ.block b ≠ Option.none) :
    Owns τ (head :: O' ++ rest) := by
  have hkept := h.kept hfoot
  have hapart := (List.nodup_append.mp h.nodup).2.2
  have hrestLive : ∀ b ∈ rest, σ.block b ≠ Option.none := fun b hb =>
    (h.live b).mpr (List.mem_append_right _ hb)
  refine ⟨List.nodup_append.mpr ⟨hnodup, (List.nodup_append.mp h.nodup).2.1, ?_⟩, fun b => ?_⟩
  · rintro b hb c hc rfl
    have hne : b ≠ head := fun heq => hapart head List.mem_cons_self b hc heq.symm
    have hO : b ∉ O := fun hmem => hapart b (List.mem_cons_of_mem _ hmem) b hc rfl
    exact hrestLive b hc (hfoot.fresh b hne (List.mem_of_ne_of_mem hne hb) hO)
  · constructor
    · intro hb
      by_contra hnot
      rw [List.mem_append, not_or] at hnot
      have hne := List.ne_of_not_mem_cons hnot.1
      have hO' := List.not_mem_of_not_mem_cons hnot.1
      by_cases hO : b ∈ O
      · exact hb (hfoot.freed b hne hO hO')
      · rw [hfoot.frame b hne hO hO', h.live, List.mem_append] at hb
        rcases hb with hb | hb
        · rcases List.mem_cons.mp hb with hb | hb
          · exact hne hb
          · exact hO hb
        · exact hnot.2 hb
    · intro hb
      rcases List.mem_append.mp hb with hb | hb
      · exact hlive b hb
      · rw [hkept b hb]
        exact hrestLive b hb

/-- A new block is one more. -/
theorem malloc [DecidableEq A] {k : Nat} (h : Owns σ blocks) (hsupply : Supply σ (k + 1))
    (f : A → Block A MockValue) :
    ∃ (a : A) (τ : Heap A MockValue), σ.malloc f = some (a, τ) ∧ τ.block a = some (f a) ∧
      (∀ b ∈ blocks, τ.block b = σ.block b) ∧ Owns τ (a :: blocks) ∧ Supply τ k := by
  obtain ⟨a, rest, hmallocs, ha, harest, hnodup, hrest, henough⟩ := hsupply.exists_cons
  have hself : (σ.put a (some (f a))).block a = some (f a) := σ.put_block_self a _
  have hother : ∀ b, b ≠ a → (σ.put a (some (f a))).block b = σ.block b :=
    fun b hb => σ.put_block_ne _ hb
  have hnot : a ∉ blocks := fun hmem => (h.live a).mpr hmem ha
  refine ⟨a, _, Heap.malloc_eq hmallocs ha f, hself, fun b hb => hother b ?_, ⟨?_, fun b => ?_⟩,
    hnodup, fun b hb => ?_, henough⟩
  · rintro rfl
    exact hnot hb
  · exact List.nodup_cons.mpr ⟨hnot, h.nodup⟩
  · by_cases hb : b = a
    · subst hb
      simp
    · show (σ.put a (some (f a))).block b ≠ Option.none ↔ _
      rw [hother b hb, h.live, List.mem_cons]
      tauto
  · show (σ.put a (some (f a))).block b = Option.none
    rw [hother b (by rintro rfl; exact harest hb)]
    exact hrest b hb

/-- A freed block is one less. -/
theorem free [DecidableEq A] {a : A} (h : Owns σ (a :: blocks)) :
    ∃ τ, σ.free a = some τ ∧ (∀ b ∈ blocks, τ.block b = σ.block b) ∧ Owns τ blocks := by
  have hnot := (List.nodup_cons.mp h.nodup).1
  obtain ⟨τ, hrun, hfrees⟩ := free_spec ((h.live a).mpr List.mem_cons_self)
  have hother : ∀ b, b ≠ a → τ.block b = σ.block b := fun b hb =>
    hfrees.frame b (by simpa using hb)
  refine ⟨τ, hrun, fun b hb => hother b ?_, (List.nodup_cons.mp h.nodup).2, fun b => ?_⟩
  · rintro rfl
    exact hnot hb
  · by_cases hb : b = a
    · subst hb
      simp [hfrees.freed b List.mem_cons_self, hnot]
    · rw [hother b hb, h.live, List.mem_cons]
      tauto

end Owns

/-! ## The relation -/

/-- The blocks of a map with its head. -/
def Tree.all (head : A) (n : Nat) (t : Tree A MockValue n) : List A := head :: t.blocks n

private theorem third_to_front (a b c d : List A) :
    (a ++ (b ++ (c ++ d))).Perm (c ++ (a ++ (b ++ d))) := by
  have hcomm := List.perm_append_comm_assoc (a ++ b) c d
  rwa [List.append_assoc, List.append_assoc] at hcomm

/-- The heap holds the expectations `E`, in three trees. -/
structure Holds (heads : Heads A) (σ : Heap A MockValue) (E : Expectations)
    (r : Tree A MockValue 1) (p : Tree A MockValue 2) (o : Tree A MockValue 0)
    (lost : List A) : Prop where
  results : Rep σ 1 heads.functionResultMapHead r
  parameters : Rep σ 2 heads.functionParameterMapHead p
  order : Rep σ 0 heads.callOrderingHead o
  tidyResults : r.Tidy 1
  tidyParameters : p.Tidy 2
  owns : Owns σ (r.all heads.functionResultMapHead 1 ++
    (p.all heads.functionParameterMapHead 2 ++ (o.all heads.callOrderingHead 0 ++ lost)))
  resultsQueue : ∀ function, r.queue 1 [function] =
    (E.results function).map fun e => (.symbolValue e.1, e.2)
  parametersQueue : ∀ function parameter, p.queue 2 [function, parameter] =
    (E.parameters function parameter).map fun e => (.checkParameterEvent e.1, e.2)
  orderRep : OrderRep o E.order

namespace Holds

variable {heads : Heads A} {σ τ : Heap A MockValue} {E : Expectations}
  {r r' : Tree A MockValue 1} {p p' : Tree A MockValue 2} {o o' : Tree A MockValue 0}
  {lost lost' : List A}

/-- The blocks from the point of view of the parameter map, and of the order. -/
theorem ownsParameters (h : Holds heads σ E r p o lost) :
    Owns σ (p.all heads.functionParameterMapHead 2 ++
      (r.all heads.functionResultMapHead 1 ++ (o.all heads.callOrderingHead 0 ++ lost))) :=
  h.owns.perm (List.perm_append_comm_assoc _ _ _)

theorem ownsOrder (h : Holds heads σ E r p o lost) :
    Owns σ (o.all heads.callOrderingHead 0 ++
      (r.all heads.functionResultMapHead 1 ++ (p.all heads.functionParameterMapHead 2 ++ lost))) :=
  h.owns.perm (third_to_front _ _ _ _)

/-- Only the blocks count. -/
theorem congr (h : Holds heads σ E r p o lost) (hblock : τ.block = σ.block) :
    Holds heads τ E r p o lost where
  results := h.results.frame fun b _ => congrFun hblock b
  parameters := h.parameters.frame fun b _ => congrFun hblock b
  order := h.order.frame fun b _ => congrFun hblock b
  tidyResults := h.tidyResults
  tidyParameters := h.tidyParameters
  owns := ⟨h.owns.nodup, fun b => by rw [hblock]; exact h.owns.live b⟩
  resultsQueue := h.resultsQueue
  parametersQueue := h.parametersQueue
  orderRep := h.orderRep

/-- A new block that nothing points to. -/
theorem lose [DecidableEq A] {a : A} (h : Holds heads σ E r p o lost)
    (hkept : ∀ b ∈ r.all heads.functionResultMapHead 1 ++ (p.all heads.functionParameterMapHead 2 ++
      (o.all heads.callOrderingHead 0 ++ lost)), τ.block b = σ.block b)
    (howns : Owns τ (a :: (r.all heads.functionResultMapHead 1 ++
      (p.all heads.functionParameterMapHead 2 ++ (o.all heads.callOrderingHead 0 ++ lost))))) :
    Holds heads τ E r p o (a :: lost) where
  results := h.results.frame fun b hb => hkept b (List.mem_append_left _ hb)
  parameters := h.parameters.frame fun b hb =>
    hkept b (List.mem_append_right _ (List.mem_append_left _ hb))
  order := h.order.frame fun b hb => hkept b
    (List.mem_append_right _ (List.mem_append_right _ (List.mem_append_left _ hb)))
  tidyResults := h.tidyResults
  tidyParameters := h.tidyParameters
  owns := by
    refine howns.perm ?_
    rw [List.perm_iff_count]
    intro c
    simp only [List.count_cons, List.count_append]
    omega
  resultsQueue := h.resultsQueue
  parametersQueue := h.parametersQueue
  orderRep := h.orderRep

/-- Another results map, the rest untouched. -/
theorem withResults {results : String → List (UIntMax × Int)} (h : Holds heads σ E r p o lost)
    (hkept : ∀ b ∈ p.all heads.functionParameterMapHead 2 ++ o.all heads.callOrderingHead 0,
      τ.block b = σ.block b)
    (hrep : Rep τ 1 heads.functionResultMapHead r') (htidy : r'.Tidy 1)
    (howns : Owns τ (r'.all heads.functionResultMapHead 1 ++
      (p.all heads.functionParameterMapHead 2 ++ (o.all heads.callOrderingHead 0 ++ lost'))))
    (hqueue : ∀ function, r'.queue 1 [function] =
      (results function).map fun e => (.symbolValue e.1, e.2)) :
    Holds heads τ { E with results := results } r' p o lost' where
  results := hrep
  parameters := h.parameters.frame fun b hb => hkept b (List.mem_append_left _ hb)
  order := h.order.frame fun b hb => hkept b (List.mem_append_right _ hb)
  tidyResults := htidy
  tidyParameters := h.tidyParameters
  owns := howns
  resultsQueue := hqueue
  parametersQueue := h.parametersQueue
  orderRep := h.orderRep

/-- Another parameter map, the rest untouched. -/
theorem withParameters {parameters : String → String → List (CheckParameterEvent × Int)}
    (h : Holds heads σ E r p o lost)
    (hkept : ∀ b ∈ r.all heads.functionResultMapHead 1 ++ o.all heads.callOrderingHead 0,
      τ.block b = σ.block b)
    (hrep : Rep τ 2 heads.functionParameterMapHead p') (htidy : p'.Tidy 2)
    (howns : Owns τ (p'.all heads.functionParameterMapHead 2 ++
      (r.all heads.functionResultMapHead 1 ++ (o.all heads.callOrderingHead 0 ++ lost'))))
    (hqueue : ∀ function parameter, p'.queue 2 [function, parameter] =
      (parameters function parameter).map fun e => (.checkParameterEvent e.1, e.2)) :
    Holds heads τ { E with parameters := parameters } r p' o lost' where
  results := h.results.frame fun b hb => hkept b (List.mem_append_left _ hb)
  parameters := hrep
  order := h.order.frame fun b hb => hkept b (List.mem_append_right _ hb)
  tidyResults := h.tidyResults
  tidyParameters := htidy
  owns := howns.perm (List.perm_append_comm_assoc _ _ _)
  resultsQueue := h.resultsQueue
  parametersQueue := hqueue
  orderRep := h.orderRep

/-- Another list of expected calls, the rest untouched. -/
theorem withOrder {order : List (String × Int)} (h : Holds heads σ E r p o lost)
    (hkept : ∀ b ∈ r.all heads.functionResultMapHead 1 ++ p.all heads.functionParameterMapHead 2,
      τ.block b = σ.block b)
    (hrep : Rep τ 0 heads.callOrderingHead o')
    (howns : Owns τ (o'.all heads.callOrderingHead 0 ++
      (r.all heads.functionResultMapHead 1 ++ (p.all heads.functionParameterMapHead 2 ++ lost'))))
    (horder : OrderRep o' order) : Holds heads τ { E with order := order } r p o' lost' where
  results := h.results.frame fun b hb => hkept b (List.mem_append_left _ hb)
  parameters := h.parameters.frame fun b hb => hkept b (List.mem_append_right _ hb)
  order := hrep
  tidyResults := h.tidyResults
  tidyParameters := h.tidyParameters
  owns := howns.perm (third_to_front _ _ _ _).symm
  resultsQueue := h.resultsQueue
  parametersQueue := h.parametersQueue
  orderRep := horder

end Holds

end TraceRecorderTests.Cmocka
