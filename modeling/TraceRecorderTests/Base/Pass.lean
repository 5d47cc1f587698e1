import Mathlib.Data.List.Nodup
import Mathlib.Logic.Function.Basic

/-!
# Passes over a work list

A pass handles items one after another. Each item has a cell; handling an item
sees and changes its own cell only, and reports what it did. What a pass does to
an item is then what handling it alone would do (`Pass.spec`), and where that
leaves no choice, the order of the items does not matter (`Pass.unique`).
-/

namespace TraceRecorderTests.Base

variable {ι C L : Type*}

/-- A pass: the items handled so far, the cells they leave, and the reports put
together. -/
inductive Pass (handle : ι → C → C → List L → Prop) (before : ι → C) :
    List ι → (ι → C) → List L → Prop
  | start : Pass handle before [] before []
  | handled {order : List ι} {cells cells' : ι → C} {log report : List L} {i : ι}
      (hpass : Pass handle before order cells log)
      (hhandle : handle i (cells i) (cells' i) report)
      (hframe : ∀ j, j ≠ i → cells' j = cells j) :
      Pass handle before (order ++ [i]) cells' (log ++ report)

section pass

variable {handle : ι → C → C → List L → Prop} {before after after' : ι → C}
  {order order' : List ι} {log log' : List L}

/-- What is not among the items stays as it was. -/
theorem Pass.frame (h : Pass handle before order after log) {i : ι} (hi : i ∉ order) :
    after i = before i := by
  induction h with
  | start => rfl
  | handled _ _ hframe ih =>
      rw [List.mem_append, not_or, List.mem_singleton] at hi
      rw [hframe i hi.2, ih hi.1]

/-- A pass over different items handles each of them on the cell it had at the
start, and leaves it the cell it has at the end. -/
theorem Pass.spec (h : Pass handle before order after log) (hnodup : order.Nodup) :
    ∃ report : ι → List L, log = order.flatMap report ∧
      ∀ i ∈ order, handle i (before i) (after i) (report i) := by
  classical
  induction h with
  | start => exact ⟨fun _ => [], rfl, fun i hi => absurd hi List.not_mem_nil⟩
  | @handled order cells cells' log last i hpass hhandle hframe ih =>
      obtain ⟨hn, -, hdisjoint⟩ := List.nodup_append.mp hnodup
      have hi : i ∉ order := fun hmem => hdisjoint i hmem i List.mem_cons_self rfl
      obtain ⟨report, hlog, hreport⟩ := ih hn
      have hother : ∀ j ∈ order, Function.update report i last j = report j := by
        intro j hj
        have hne : j ≠ i := fun heq => hi (heq ▸ hj)
        exact Function.update_of_ne hne last report
      refine ⟨Function.update report i last, ?_, fun j hj => ?_⟩
      · rw [List.flatMap_append, List.flatMap_singleton, Function.update_self, hlog]
        congr 1
        exact (List.flatMap_congr hother).symm
      · rcases List.mem_append.mp hj with hj | hj
        · have hne : j ≠ i := fun heq => hi (heq ▸ hj)
          rw [hother j hj, hframe j hne]
          exact hreport j hj
        · -- the last item still had its first cell
          rw [List.mem_singleton.mp hj, Function.update_self, ← hpass.frame hi]
          exact hhandle

/-- Where handling an item has one outcome, two passes over the same items end in
the same cells, with the same reports up to their order. -/
theorem Pass.unique (hunique : ∀ i x y y' r r', handle i x y r → handle i x y' r' →
      y = y' ∧ r = r')
    (h : Pass handle before order after log) (h' : Pass handle before order' after' log')
    (hnodup : order.Nodup) (hnodup' : order'.Nodup) (hmem : ∀ i, i ∈ order ↔ i ∈ order') :
    after = after' ∧ log.Perm log' := by
  obtain ⟨report, hlog, hreport⟩ := h.spec hnodup
  obtain ⟨report', hlog', hreport'⟩ := h'.spec hnodup'
  constructor
  · funext i
    by_cases hi : i ∈ order
    · exact (hunique i _ _ _ _ _ (hreport i hi) (hreport' i ((hmem i).mp hi))).1
    · rw [h.frame hi, h'.frame (fun hi' => hi ((hmem i).mpr hi'))]
  · have hperm : order.Perm order' := (List.perm_ext_iff_of_nodup hnodup hnodup').mpr hmem
    have hsame : order.flatMap report = order.flatMap report' :=
      List.flatMap_congr fun i hi =>
        (hunique i _ _ _ _ _ (hreport i hi) (hreport' i ((hmem i).mp hi))).2
    rw [hlog, hlog', hsame]
    exact hperm.flatMap_right report'

end pass

/-! ## Reading reports put together -/

section reports

variable {report : ι → List L} {order : List ι} {a b : L}

theorem exists_head_of_flatMap (h : (order.flatMap report).head? = some b) :
    ∃ i ∈ order, (report i).head? = some b := by
  induction order with
  | nil => cases h
  | cons i rest ih =>
      rw [List.flatMap_cons, List.head?_append] at h
      rcases Option.or_eq_some_iff.mp h with hi | ⟨-, hrest⟩
      · exact ⟨i, List.mem_cons_self, hi⟩
      · obtain ⟨j, hj, hhead⟩ := ih hrest
        exact ⟨j, List.mem_cons_of_mem i hj, hhead⟩

/-- Two entries that follow each other, the second of which starts no report,
are from one report. -/
theorem pair_infix_flatMap (hstart : ∀ i ∈ order, (report i).head? ≠ some b) :
    [a, b] <:+: order.flatMap report ↔ ∃ i ∈ order, [a, b] <:+: report i := by
  constructor
  · intro h
    induction order with
    | nil =>
        rw [List.flatMap_nil, List.infix_nil] at h
        cases h
    | cons i rest ih =>
        rw [List.flatMap_cons, List.infix_append_iff_ne_nil] at h
        rcases h with hi | hrest | ⟨l, r, hl, hr, heq, -, hpre⟩
        · exact ⟨i, List.mem_cons_self, hi⟩
        · obtain ⟨j, hj, hpair⟩ := ih (fun j hj => hstart j (List.mem_cons_of_mem i hj)) hrest
          exact ⟨j, List.mem_cons_of_mem i hj, hpair⟩
        · -- the second entry would start what comes after the first report
          have hsplit : l = [a] ∧ r = [b] := by
            cases l with
            | nil => exact absurd rfl hl
            | cons x l =>
                cases l with
                | nil =>
                    obtain ⟨rfl, rfl⟩ := List.cons.inj heq
                    exact ⟨rfl, rfl⟩
                | cons y l =>
                    have hnil := (List.cons.inj (List.cons.inj heq).2).2
                    exact absurd (List.append_eq_nil_iff.mp hnil.symm).2 hr
          obtain ⟨-, rfl⟩ := hsplit
          obtain ⟨tail, htail⟩ := hpre
          have hhead : (rest.flatMap report).head? = some b := by
            rw [← htail]
            rfl
          obtain ⟨j, hj, hstarts⟩ := exists_head_of_flatMap hhead
          exact absurd hstarts (hstart j (List.mem_cons_of_mem i hj))
  · rintro ⟨i, hi, hpair⟩
    rw [List.flatMap_def]
    exact hpair.trans (List.infix_of_mem_flatten (List.mem_map_of_mem hi))

end reports

end TraceRecorderTests.Base
