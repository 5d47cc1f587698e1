import Mathlib.Data.List.Basic

/-!
# Interleavings of independent components

A state has components, every operation belongs to one of them: what it does there,
and what it puts out, depends on that component only, and it leaves the others
alone. A sequence of operations then does to each component what the operations
of that component do by themselves (`Independent.run_filter`), so sequences that
differ in the interleaving only have the same outcome (`Independent.run_interleaving`).
-/

namespace TraceRecorderTests.Base

variable {Op State Out : Type}

/-- The operations in their order, up to the end or the first that fails; with what
each of them puts out. -/
def runTraced (step : Op → State → Option (Out × State)) :
    List Op → State → Option (List (Op × Out) × State)
  | [], s => some ([], s)
  | op :: rest, s =>
      (step op s).bind fun (out, s') =>
        (runTraced step rest s').map fun (trace, s'') => ((op, out) :: trace, s'')

section Traced

variable {step : Op → State → Option (Out × State)}

theorem runTraced_cons {op : Op} {out : Out} {ops : List Op} {s s' s'' : State}
    {trace : List (Op × Out)} (hstep : step op s = some (out, s'))
    (hrest : runTraced step ops s' = some (trace, s'')) :
    runTraced step (op :: ops) s = some ((op, out) :: trace, s'') := by
  simp only [runTraced, hstep, hrest, Option.bind_some, Option.map_some]

/-- A run that is not empty, taken apart. -/
theorem runTraced_cons_inv {op : Op} {ops : List Op} {s s'' : State} {trace : List (Op × Out)}
    (h : runTraced step (op :: ops) s = some (trace, s'')) :
    ∃ (out : Out) (s' : State) (rest : List (Op × Out)), step op s = some (out, s') ∧
      runTraced step ops s' = some (rest, s'') ∧ trace = (op, out) :: rest := by
  obtain ⟨⟨out, s'⟩, hstep, h⟩ := Option.bind_eq_some_iff.mp h
  obtain ⟨⟨rest, s₂⟩, hrest, heq⟩ := Option.map_eq_some_iff.mp h
  obtain ⟨rfl, rfl⟩ := Prod.mk.inj heq
  exact ⟨out, s', rest, hstep, hrest, rfl⟩

/-- A run in two parts. -/
theorem runTraced_append (rest : List Op) : ∀ {ops : List Op} {s s' : State}
    {trace : List (Op × Out)}, runTraced step ops s = some (trace, s') →
    runTraced step (ops ++ rest) s =
      (runTraced step rest s').map fun out => (trace ++ out.1, out.2)
  | [], s, s', trace, h => by
      cases h
      simp
  | op :: ops, s, s', trace, h => by
      obtain ⟨out, s₁, trace', hstep, hrest, rfl⟩ := runTraced_cons_inv h
      simp only [List.cons_append, runTraced, hstep, Option.bind_some, runTraced_append rest hrest,
        Option.map_map]
      rfl

end Traced

variable {ι : Type} {Component : ι → Type}

/-- Every operation acts on the component it belongs to. -/
structure Independent (step : Op → State → Option (Out × State)) (owner : Op → ι)
    (view : (i : ι) → State → Component i) : Prop where
  other : ∀ {op s out s'}, step op s = some (out, s') → ∀ i, i ≠ owner op → view i s' = view i s
  own : ∀ {op s t out s'}, view (owner op) s = view (owner op) t → step op s = some (out, s') →
    ∃ t', step op t = some (out, t') ∧ view (owner op) t' = view (owner op) s'

namespace Independent

variable [DecidableEq ι] {step : Op → State → Option (Out × State)} {owner : Op → ι}
  {view : (i : ι) → State → Component i} {ops ops' : List Op} {s s' t : State}
  {trace : List (Op × Out)}

omit [DecidableEq ι] in
/-- The operations of one component depend on that component only. -/
theorem run_congr (h : Independent step owner view) {i : ι} : ∀ {ops : List Op} {s s' t : State}
    {trace : List (Op × Out)}, (∀ op ∈ ops, owner op = i) → view i s = view i t →
    runTraced step ops s = some (trace, s') →
    ∃ t', runTraced step ops t = some (trace, t') ∧ view i t' = view i s'
  | [], s, s', t, trace, _, hview, hrun => by
      cases hrun
      exact ⟨t, rfl, hview.symm⟩
  | op :: ops, s, s', t, trace, hops, hview, hrun => by
      obtain ⟨out, s₁, rest, hstep, hrest, rfl⟩ := runTraced_cons_inv hrun
      obtain rfl := hops op List.mem_cons_self
      obtain ⟨t₁, hstep', hview₁⟩ := h.own hview hstep
      obtain ⟨t', hrest', hview'⟩ :=
        h.run_congr (fun op' hop' => hops op' (List.mem_cons_of_mem op hop')) hview₁.symm hrest
      exact ⟨t', runTraced_cons hstep' hrest', hview'⟩

/-- What a run does to a component, and what comes out of it there, is the run of the
operations of that component. -/
theorem run_filter (h : Independent step owner view) (i : ι) : ∀ {ops : List Op} {s s' : State}
    {trace : List (Op × Out)}, runTraced step ops s = some (trace, s') →
    ∃ t', runTraced step (ops.filter fun op => owner op = i) s =
      some (trace.filter fun e => owner e.1 = i, t') ∧ view i t' = view i s'
  | [], s, s', trace, hrun => by
      cases hrun
      exact ⟨s, rfl, rfl⟩
  | op :: ops, s, s', trace, hrun => by
      obtain ⟨out, s₁, rest, hstep, hrest, rfl⟩ := runTraced_cons_inv hrun
      obtain ⟨t₁, hfilter, hview₁⟩ := h.run_filter i hrest
      by_cases hi : owner op = i
      · refine ⟨t₁, ?_, hview₁⟩
        rw [List.filter_cons_of_pos (by simpa using hi),
          List.filter_cons_of_pos (by simpa using hi)]
        exact runTraced_cons hstep hfilter
      · have hsame : view i s₁ = view i s := h.other hstep i (Ne.symm hi)
        obtain ⟨t', hrun', hview'⟩ := h.run_congr
          (fun op' hop' => by simpa using (List.mem_filter.mp hop').2) hsame hfilter
        refine ⟨t', ?_, hview'.trans hview₁⟩
        rw [List.filter_cons_of_neg (by simpa using hi),
          List.filter_cons_of_neg (by simpa using hi)]
        exact hrun'

/-- A sequence runs to its end if the operations of every component do. -/
theorem exists_run (h : Independent step owner view) : ∀ {ops : List Op} {s : State},
    (∀ i, ∃ out, runTraced step (ops.filter fun op => owner op = i) s = some out) →
    ∃ out, runTraced step ops s = some out
  | [], s, _ => ⟨([], s), rfl⟩
  | op :: ops, s, hall => by
      obtain ⟨⟨trace, s'⟩, hrun⟩ := hall (owner op)
      rw [List.filter_cons_of_pos (by simp)] at hrun
      obtain ⟨out, s₁, rest, hstep, hrest, -⟩ := runTraced_cons_inv hrun
      have hnext : ∀ i, ∃ out,
          runTraced step (ops.filter fun op => owner op = i) s₁ = some out := by
        intro i
        by_cases hi : owner op = i
        · subst hi
          exact ⟨_, hrest⟩
        · obtain ⟨⟨trace', t⟩, hrun'⟩ := hall i
          rw [List.filter_cons_of_neg (by simpa using hi)] at hrun'
          obtain ⟨t', hrun₁, -⟩ := h.run_congr
            (fun op' hop' => by simpa using (List.mem_filter.mp hop').2)
            (h.other hstep i (Ne.symm hi)).symm hrun'
          exact ⟨_, hrun₁⟩
      obtain ⟨⟨trace₁, s₂⟩, hrest'⟩ := h.exists_run hnext
      exact ⟨_, runTraced_cons hstep hrest'⟩

/-- Another interleaving runs to its end as well, leaves every component in the same
state, and the same comes out of every component. -/
theorem run_interleaving (h : Independent step owner view)
    (hsame : ∀ i, (ops'.filter fun op => owner op = i) = ops.filter fun op => owner op = i)
    (hrun : runTraced step ops s = some (trace, s')) :
    ∃ trace' t', runTraced step ops' s = some (trace', t') ∧
      (∀ i, (trace'.filter fun e => owner e.1 = i) = trace.filter fun e => owner e.1 = i) ∧
      ∀ i, view i t' = view i s' := by
  have hall : ∀ i, ∃ out, runTraced step (ops'.filter fun op => owner op = i) s = some out := by
    intro i
    obtain ⟨t₁, hfilter, -⟩ := h.run_filter i hrun
    exact ⟨_, by rw [hsame i, hfilter]⟩
  obtain ⟨⟨trace', t'⟩, hrun'⟩ := h.exists_run hall
  have hboth : ∀ i, (trace'.filter fun e => owner e.1 = i) = (trace.filter fun e => owner e.1 = i) ∧
      view i t' = view i s' := by
    intro i
    obtain ⟨t₁, hfilter, hview⟩ := h.run_filter i hrun
    obtain ⟨t₂, hfilter', hview'⟩ := h.run_filter i hrun'
    rw [hsame i, hfilter] at hfilter'
    obtain ⟨htrace, rfl⟩ := Prod.mk.inj (Option.some.inj hfilter')
    exact ⟨htrace.symm, hview'.symm.trans hview⟩
  exact ⟨trace', t', hrun', fun i => (hboth i).1, fun i => (hboth i).2⟩

end Independent

end TraceRecorderTests.Base
