import Mathlib.Data.List.Basic
import Mathlib.Tactic.Tauto

/-!
# The exit status of UnitTest_RUNNER

Every component program returns the number of failed tests of its group from
`main`; the runner starts each component with `system()` and returns the sum of
what `system()` returned. On the way a count is cut to the 8 bits of an exit
status, shifted left by 8 bits in the value `system()` returns, summed with the
others modulo `2 ^ 32`, and cut to 8 bits again: the shifted counts leave
nothing in the low byte (`runTests_lowByte`), so the runner reports only the
commands for which `system()` could create no child.
-/

namespace TraceRecorderTests.Runner

/-- What becomes of a component: its command runs and ends with a number, the failed
tests of its group, or `system()` returns -1, as no child could be created. A program
that is missing is a command that runs: the shell ends with 127. -/
inductive Launch
  | ran (failedTests : Nat)
  | notStarted
  deriving DecidableEq, Repr

/-- One entry of the runner's tables: the program's name, and its outcome. -/
structure Component where
  name : String
  launch : Launch
  deriving DecidableEq, Repr

/-- The value `main` of a component returns: the count, as a 32-bit integer. -/
def componentMain (failedTests : Nat) : BitVec 32 := BitVec.ofNat 32 failedTests

/-- The exit status of a process: the value `main` returned, modulo 256. -/
def exitStatus (value : BitVec 32) : Nat := value.toNat % 256

/-- The value `system()` returns. -/
def system : Launch → BitVec 32
  | .ran failedTests => BitVec.ofNat 32 (256 * exitStatus (componentMain failedTests))
  | .notStarted => -1

/-- One of the three loops of `main`: skip the empty names, add up the rest. -/
def runTests : List Component → BitVec 32 → BitVec 32
  | [], ret => ret
  | c :: rest, ret =>
      if c.name = "" then runTests rest ret
      else runTests rest (ret + system c.launch)

/-- `main` of UnitTest_RUNNER. -/
def runnerMain (testComponents testKernelports testStreamports : List Component) :
    BitVec 32 :=
  let ret := runTests testComponents 0
  let ret := runTests testKernelports ret
  runTests testStreamports ret

/-- The components a table launches. -/
def launched (table : List Component) : List Component :=
  table.filter fun c => c.name ≠ ""

/-- How many components of a table `system()` could create no child for. -/
def notStarted (table : List Component) : Nat :=
  (launched table).countP fun c => c.launch = .notStarted

theorem runTests_append (first second : List Component) (ret : BitVec 32) :
    runTests (first ++ second) ret = runTests second (runTests first ret) := by
  induction first generalizing ret with
  | nil => rfl
  | cons c rest ih =>
      simp only [List.cons_append, runTests]
      split
      · exact ih ret
      · exact ih (ret + system c.launch)

/-- A component that ran adds a multiple of 256. -/
theorem toNat_add_ran (ret : BitVec 32) (failedTests : Nat) :
    (ret + system (.ran failedTests)).toNat % 256 = ret.toNat % 256 := by
  have hsys : (system (.ran failedTests)).toNat % 256 = 0 := by
    rw [system, BitVec.toNat_ofNat]
    omega
  rw [BitVec.toNat_add]
  omega

/-- A component that got no child takes one away. -/
theorem toNat_add_notStarted (ret : BitVec 32) :
    ((ret + system .notStarted).toNat + 1) % 256 = ret.toNat % 256 := by
  have hsys : (system .notStarted).toNat = 4294967295 := by decide
  rw [BitVec.toNat_add, hsys]
  omega

/-- The low byte of the sum: each component that got no child takes one from
it, and the failure counts of the others do not reach it. -/
theorem runTests_lowByte (table : List Component) (ret : BitVec 32) :
    ((runTests table ret).toNat + notStarted table) % 256 = ret.toNat % 256 := by
  induction table generalizing ret with
  | nil => simp [runTests, notStarted, launched]
  | cons c rest ih =>
      by_cases hname : c.name = ""
      · have hcount : notStarted (c :: rest) = notStarted rest := by
          simp [notStarted, launched, hname]
        simpa only [runTests, if_pos hname, hcount] using ih ret
      · have hstep := ih (ret + system c.launch)
        simp only [runTests, if_neg hname]
        cases hlaunch : c.launch with
        | ran failedTests =>
            -- the count stays above the low byte
            have hcount : notStarted (c :: rest) = notStarted rest := by
              simp [notStarted, launched, hname, hlaunch]
            rw [hlaunch] at hstep
            rw [hcount, hstep, toNat_add_ran]
        | notStarted =>
            have hcount : notStarted (c :: rest) = notStarted rest + 1 := by
              simp [notStarted, launched, hname, hlaunch]
            rw [hlaunch] at hstep
            have hone := toNat_add_notStarted ret
            rw [hcount]
            omega

/-- The runner's exit status is zero exactly when the number of components that got
no child is a multiple of 256, whatever the failure counts are. -/
theorem exitStatus_runnerMain_eq_zero_iff (components kernelports streamports : List Component) :
    exitStatus (runnerMain components kernelports streamports) = 0 ↔
      notStarted (components ++ kernelports ++ streamports) % 256 = 0 := by
  have hmain : runnerMain components kernelports streamports =
      runTests (components ++ kernelports ++ streamports) 0 := by
    rw [runTests_append, runTests_append]
    rfl
  have hbyte := runTests_lowByte (components ++ kernelports ++ streamports) 0
  have hzero : (0 : BitVec 32).toNat = 0 := rfl
  rw [← hmain, hzero] at hbyte
  rw [exitStatus]
  omega

/-- Every launched component ran and had no failed test. -/
def AllPassed (table : List Component) : Prop :=
  ∀ c ∈ launched table, c.launch = .ran 0

instance (table : List Component) : Decidable (AllPassed table) :=
  inferInstanceAs (Decidable (∀ c ∈ launched table, c.launch = .ran 0))

/-- The exit status tells a clean run from a failing one exactly when the run is
clean, or when the number of components that got no child is no multiple of 256: a
failed test alone never reaches it. -/
theorem exitStatus_faithful_iff (components kernelports streamports : List Component) :
    (exitStatus (runnerMain components kernelports streamports) = 0 ↔
      AllPassed (components ++ kernelports ++ streamports)) ↔
    (AllPassed (components ++ kernelports ++ streamports) ∨
      notStarted (components ++ kernelports ++ streamports) % 256 ≠ 0) := by
  rw [exitStatus_runnerMain_eq_zero_iff]
  have hclean : AllPassed (components ++ kernelports ++ streamports) →
      notStarted (components ++ kernelports ++ streamports) % 256 = 0 := by
    intro hall
    have hnone : notStarted (components ++ kernelports ++ streamports) = 0 := by
      rw [notStarted, List.countP_eq_zero]
      intro c hc
      simp [hall c hc]
    rw [hnone]
  tauto

/-- One failed test in one component: the runner exits with status 0. -/
theorem failure_not_reported :
    ¬ (exitStatus (runnerMain [⟨"UnitTest_trcCounter", .ran 1⟩] [⟨"", .ran 0⟩]
        [⟨"", .ran 0⟩]) = 0 ↔
      AllPassed ([⟨"UnitTest_trcCounter", .ran 1⟩] ++ [⟨"", .ran 0⟩] ++
        [⟨"", .ran 0⟩])) := by
  decide

end TraceRecorderTests.Runner
