import Mathlib.Combinatorics.Enumerative.DyckWord
import Mathlib.Data.BitVec
import Mathlib.Data.Nat.ModEq
import Mathlib.Tactic.Ring

/-!
# Nested sections and the counters that watch them

A trace of opening steps `U` and closing steps `D` is well nested when it is a
Dyck word: every `D` closes an earlier open `U`, and no `U` is left open. A
counter that is bumped at each step and compared at the end sees only the
difference of the two counts, modulo its range (`runCounter_eq_self_iff`). On a
trace that never closes more than it opened, and leaves fewer sections open
than the counter can hold, that is all there is to see
(`runCounter_eq_self_iff_wellNested`).
-/

namespace TraceRecorderTests.Base

open DyckStep

/-- The trace is a Dyck word. -/
def WellNested (trace : List DyckStep) : Prop := ∃ word : DyckWord, word.toList = trace

/-- No `D` of the trace comes without an earlier open `U`. -/
def NeverUnderflows (trace : List DyckStep) : Prop :=
  ∀ i, (trace.take i).count D ≤ (trace.take i).count U

theorem wellNested_iff (trace : List DyckStep) :
    WellNested trace ↔ trace.count U = trace.count D ∧ NeverUnderflows trace := by
  constructor
  · rintro ⟨word, rfl⟩
    exact ⟨word.count_U_eq_count_D, word.count_D_le_count_U⟩
  · rintro ⟨balanced, nonneg⟩
    exact ⟨⟨trace, balanced, nonneg⟩, rfl⟩

section Counter

variable {w : Nat}

/-- A counter after one step. -/
def countStep (c : BitVec w) : DyckStep → BitVec w
  | U => c + 1
  | D => c - 1

/-- A counter after a trace. -/
def runCounter (trace : List DyckStep) (c : BitVec w) : BitVec w :=
  trace.foldl countStep c

theorem runCounter_eq (trace : List DyckStep) (c : BitVec w) :
    runCounter trace c = c + (trace.count U : BitVec w) - (trace.count D : BitVec w) := by
  induction trace generalizing c with
  | nil => simp [runCounter]
  | cons step rest ih =>
      have unfold : runCounter (step :: rest) c = runCounter rest (countStep c step) := rfl
      rw [unfold, ih]
      cases step with
      | U =>
          simp only [countStep, List.count_cons_self, ne_eq, reduceCtorEq,
            not_false_eq_true, List.count_cons_of_ne, Nat.cast_add, Nat.cast_one]
          ring
      | D =>
          simp only [countStep, List.count_cons_self, ne_eq, reduceCtorEq,
            not_false_eq_true, List.count_cons_of_ne, Nat.cast_add, Nat.cast_one]
          ring

/-- The counter is back at its start exactly when the numbers of opening and
closing steps agree modulo its range. -/
theorem runCounter_eq_self_iff (trace : List DyckStep) (c : BitVec w) :
    runCounter trace c = c ↔ trace.count U ≡ trace.count D [MOD 2 ^ w] := by
  rw [runCounter_eq, add_sub_assoc, add_eq_left, sub_eq_zero]
  constructor
  · intro h
    have hnat := congrArg BitVec.toNat h
    simpa [Nat.ModEq] using hnat
  · intro h
    apply BitVec.eq_of_toNat_eq
    simpa [Nat.ModEq] using h

theorem WellNested.runCounter_eq {trace : List DyckStep} (h : WellNested trace)
    (c : BitVec w) : runCounter trace c = c := by
  rw [runCounter_eq_self_iff, ((wellNested_iff trace).mp h).1]

/-- Without underflow and with fewer open sections than the counter's range,
the counter tells exactly the well-nested traces. -/
theorem runCounter_eq_self_iff_wellNested {trace : List DyckStep}
    (nonneg : NeverUnderflows trace)
    (bound : trace.count U - trace.count D < 2 ^ w) (c : BitVec w) :
    runCounter trace c = c ↔ WellNested trace := by
  refine ⟨fun h => ?_, fun h => h.runCounter_eq c⟩
  rw [runCounter_eq_self_iff] at h
  have le : trace.count D ≤ trace.count U := by
    simpa using nonneg trace.length
  -- the number of open sections is below the range and a multiple of it
  have divides : 2 ^ w ∣ trace.count U - trace.count D :=
    (Nat.modEq_iff_dvd' le).mp h.symm
  have zero : trace.count U - trace.count D = 0 :=
    Nat.eq_zero_of_dvd_of_lt divides bound
  exact (wellNested_iff trace).mpr ⟨by omega, nonneg⟩

end Counter

end TraceRecorderTests.Base
