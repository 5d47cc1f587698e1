import Mathlib.Logic.Function.Iterate
import Mathlib.Order.WellFounded

/-!
# Runs of a deterministic step

A run is the iteration of a total `step`. A state that `step` does not move has
halted. The rules here carry an invariant along a run whose steps meet a guard,
say that a run ends when each step that moves decreases a measure, and that a
run ends in one state only.
-/

namespace TraceRecorderTests.Base

variable {σ : Type*} {step : σ → σ}

/-- An invariant of the steps that meet `guard` holds after every run whose
steps all meet it. -/
theorem iterate_invariant {Inv guard : σ → Prop}
    (hstep : ∀ s, guard s → Inv s → Inv (step s)) {s : σ} (hinit : Inv s) :
    ∀ k, (∀ j < k, guard (step^[j] s)) → Inv (step^[k] s)
  | 0, _ => hinit
  | k + 1, hguard => by
      rw [Function.iterate_succ_apply']
      exact hstep _ (hguard k k.lt_succ_self)
        (iterate_invariant hstep hinit k fun j hj => hguard j (hj.trans k.lt_succ_self))

/-- After the run has halted it stays where it is. -/
theorem iterate_add_of_halted {s : σ} {k : Nat} (h : step (step^[k] s) = step^[k] s)
    (m : Nat) : step^[m + k] s = step^[k] s := by
  rw [Function.iterate_add_apply, Function.iterate_fixed h]

/-- A run halts in one state only. -/
theorem halted_unique {s : σ} {k m : Nat} (hk : step (step^[k] s) = step^[k] s)
    (hm : step (step^[m] s) = step^[m] s) : step^[k] s = step^[m] s := by
  rw [← iterate_add_of_halted hk m, Nat.add_comm, iterate_add_of_halted hm k]

/-- When every state of a run that has not halted takes a step down a
well-founded relation, the run halts. -/
theorem exists_halted {β : Type*} {r : β → β → Prop} (hwf : WellFounded r) (measure : σ → β)
    (hdown : ∀ s, step s ≠ s → r (measure (step s)) (measure s)) (s : σ) :
    ∃ k, step (step^[k] s) = step^[k] s := by
  by_cases hfix : step s = s
  · exact ⟨0, hfix⟩
  · obtain ⟨k, hk⟩ := exists_halted hwf measure hdown (step s)
    exact ⟨k + 1, hk⟩
termination_by hwf.wrap (measure s)
decreasing_by exact hdown s hfix

end TraceRecorderTests.Base
