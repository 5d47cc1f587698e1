import TraceRecorderTests.Base.Nesting
import TraceRecorderTests.Mock.EventOracle

/-!
# What the critical-section check accepts

`assert_int_equal_cs` closes nearly every test step with a comparison of a
wrapping 32-bit counter with its expected value. The counter is bumped by every
ENTER and dropped by every EXIT, so the comparison sees the difference of the
two counts and not their order.
-/

namespace TraceRecorderTests.Mock

open Base DyckStep

variable {ws : WordSize}

/-- The step of the critical-section trace an action makes, if it makes one. -/
def MockAction.criticalStep : MockAction ws → Option DyckStep
  | .enterCriticalSection => some U
  | .exitCriticalSection => some D
  | .record _ | .store _ _ _ => none

/-- The ENTERs and EXITs of a trace, in order. -/
def criticalSteps (trace : List (MockAction ws)) : List DyckStep :=
  trace.filterMap MockAction.criticalStep

/-- The counter follows the ENTERs and EXITs of a trace, and the expected value
stays. -/
theorem runActions_criticalSection (trace : List (MockAction ws)) (s : MockState ws) :
    (runActions trace s).uiCriticalSection =
        runCounter (criticalSteps trace) s.uiCriticalSection ∧
      (runActions trace s).uiCriticalSectionExpectedValue =
        s.uiCriticalSectionExpectedValue := by
  induction trace generalizing s with
  | nil => exact ⟨rfl, rfl⟩
  | cons a rest ih =>
      have step : runActions (a :: rest) s = runActions rest (a.run s) := rfl
      rw [step]
      obtain ⟨counter, expected⟩ := ih (a.run s)
      cases a <;> exact ⟨counter, expected⟩

/-- The closing comparison sees the counter return to its start. -/
theorem passes_closing_iff {E : BitVec 32} {s : MockState ws}
    (counter : s.uiCriticalSection = E) (expected : s.uiCriticalSectionExpectedValue = E)
    (trace : List (MockAction ws)) :
    Passes (assertCriticalSection (runActions trace s)) ↔
      runCounter (criticalSteps trace) E = E := by
  obtain ⟨hcounter, hexpected⟩ := runActions_criticalSection trace s
  rw [passes_assertCriticalSection, MockState.Balanced, hcounter, hexpected, counter,
    expected]

/-- The closing comparison succeeds exactly when the code under test made as
many ENTERs as EXITs, modulo `2 ^ 32`. So it accepts every well-nested trace;
and on a trace without an EXIT that lacks an open ENTER, and with fewer than
`2 ^ 32` ENTERs left open, it accepts nothing else. -/
theorem closing_comparison_iff (E : BitVec 32) (s : MockState ws)
    (trace : List (MockAction ws)) (counter : s.uiCriticalSection = E)
    (expected : s.uiCriticalSectionExpectedValue = E) :
    (Passes (assertCriticalSection (runActions trace s)) ↔
      (criticalSteps trace).count U ≡ (criticalSteps trace).count D [MOD 2 ^ 32]) ∧
    (WellNested (criticalSteps trace) →
      Passes (assertCriticalSection (runActions trace s))) ∧
    (NeverUnderflows (criticalSteps trace) →
      (criticalSteps trace).count U - (criticalSteps trace).count D < 2 ^ 32 →
      (Passes (assertCriticalSection (runActions trace s)) ↔
        WellNested (criticalSteps trace))) := by
  rw [passes_closing_iff counter expected]
  exact ⟨runCounter_eq_self_iff _ E, fun nested => nested.runCounter_eq E,
    fun nonneg bound => runCounter_eq_self_iff_wellNested nonneg bound E⟩

theorem closing_comparison_iff_nested :
    Passes (assertCriticalSection (runActions
      [.enterCriticalSection, .record (.create0 5), .exitCriticalSection]
      (initialState .bits64 payloadMemory))) :=
  (closing_comparison_iff 0 (initialState .bits64 payloadMemory)
    [.enterCriticalSection, .record (.create0 5), .exitCriticalSection] rfl rfl).1.mpr
    rfl

/-- Leaving a section before entering it goes unnoticed. -/
theorem exit_before_enter_accepted :
    Passes (assertCriticalSection (runActions
      [.exitCriticalSection, .enterCriticalSection]
      (initialState .bits64 payloadMemory))) ∧
    ¬ WellNested (criticalSteps
      ([.exitCriticalSection, .enterCriticalSection] : List (MockAction .bits64))) := by
  refine ⟨by decide, fun nested => ?_⟩
  have nonneg := ((wellNested_iff _).mp nested).2 1
  exact absurd nonneg (by decide)

end TraceRecorderTests.Mock
