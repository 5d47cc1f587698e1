import TraceRecorderTests.Base.Refine
import TraceRecorderTests.Cmocka.StrMatch
import TraceRecorderTests.Runner.Main

/-!
# Groups of tests

`_cmocka_run_group_tests` runs the tests of a group that its filters select, each
between a setup and a teardown, and the whole between a group setup and a group
teardown; every function runs under `cmocka_run_one_test_or_fixture`, and what it
does reaches the runner as a number and a global flag, `global_skip_test`. The
runner is over any world that has the operations it calls (`Runtime`).

The flag is cleared by a test that does not pass, and by nothing else. So a fixture
that calls `_skip` leaves it set, and the next test that fails counts as skipped.
What the runner counts is compared here with a report of what each of the functions
did (`runGroupTests_spec`). A test that counts as skipped though it failed is never
the difference between a run that is reported clean and one that is not; a group
teardown that failed is.
-/

namespace TraceRecorderTests.Cmocka

open Base

/-! ## What the runner calls -/

/-- How a test function or a fixture leaves: it returns, an assertion in it fails,
or it calls `_skip` or `_stop`. A test function returns nothing; its `rc` is not
looked at. `CMOCKA_TEST_ABORT`, with which a failure aborts the program, is not set. -/
inductive Exit
  | returned (rc : Int)
  | failed
  | skipped
  | stopped
  deriving DecidableEq, Repr

/-- A test function or a fixture: it gets the state pointer (`none` for `NULL`), may
change it, and works on the world. -/
abbrev Body (P W : Type) := Option P → W → Option (Exit × Option P × W)

/-- The operations of the world, `C` being the check points. Those that tell a
boolean tell whether `exit_test` was called and whether values are left over. -/
structure Runtime (W C : Type) where
  checkPointAllocatedBlocks : W → Option C
  initializeTesting : W → Option W
  failIfBlocksAllocated : C → W → Option (Bool × W)
  hasLeftoverValues : W → Option (Bool × W)
  teardownTesting : W → Option W

/-- The world and `global_skip_test`. -/
structure Globals (W : Type) where
  world : W
  skipTest : Bool

/-- `struct CMUnitTest`. -/
structure CMUnitTest (P W : Type) where
  name : Option (List Char)
  testFunc : Option (Body P W)
  setupFunc : Option (Body P W)
  teardownFunc : Option (Body P W)
  initialState : Option P

/-- `enum CMUnitTestStatus`. -/
inductive Status
  | notStarted
  | passed
  | failed
  | error
  | skipped
  deriving DecidableEq, Repr

/-- The counters of a group. -/
structure Totals where
  executed : Nat
  passed : Nat
  failed : Nat
  errors : Nat
  skipped : Nat
  deriving DecidableEq, Repr

/-- The filters that `cmocka_set_test_filter` and `cmocka_set_skip_filter` set. -/
structure Filters where
  test : Option (List Char)
  skip : Option (List Char)

/-- How `_cmocka_run_group_tests` ends: with the number it returns, or with
`exit(EXIT_FAILURE)`. -/
inductive GroupEnd
  | returned (value : BitVec 32)
  | exitFailure
  deriving DecidableEq, Repr

/-! ## The runner -/

section Code

variable {P W C : Type} (rt : Runtime W C)

/-- A call of a test function or a fixture; `_skip` sets the flag. -/
def callBody (f : Body P W) (state : Option P) (g : Globals W) :
    Option (Exit × Option P × Globals W) := do
  let (exit, state, w) ← f state g.world
  return (exit, state, ⟨w, g.skipTest || decide (exit = .skipped)⟩)

/-- `fail_if_blocks_allocated` after a function that returned. -/
def checkBlocks (checkPoint : C) (exit : Exit) (g : Globals W) : Option (Exit × Globals W) :=
  match exit with
  | .returned rc => do
      let (returns, w) ← rt.failIfBlocksAllocated checkPoint g.world
      return (if returns then .returned rc else .failed, { g with world := w })
  | exit => some (exit, g)

/-- A function that must free what it allocates. -/
def runChecked (f : Body P W) (checkPoint : C) (state : Option P) (g : Globals W) :
    Option (Exit × Option P × Globals W) := do
  let (exit, state, g) ← callBody f state g
  let (exit, g) ← checkBlocks rt checkPoint exit g
  return (exit, state, g)

/-- `rc = 0` after a test function that returned. -/
def Exit.ofTest : Exit → Exit
  | .returned _ => .returned 0
  | exit => exit

/-- What `cmocka_run_one_test_or_fixture` does after `setjmp` and before
`fail_if_leftover_values`. -/
def runFunction (testFunc setupFunc teardownFunc : Option (Body P W)) (checkPoint : C)
    (state : Option P) (g : Globals W) : Option (Exit × Option P × Globals W) :=
  match testFunc, setupFunc, teardownFunc with
  | some test, _, _ => do
      let (exit, state, g) ← runChecked rt test checkPoint state g
      return (exit.ofTest, state, g)
  -- a setup may leave blocks to its teardown
  | none, some setup, _ => callBody setup state g
  | none, none, some teardown => runChecked rt teardown checkPoint state g
  | none, none, none => some (.returned 0, state, g)

/-- `rc` after the function: leftover values make it -1, and a function that did not
return has -1 but for one that was stopped. -/
def exitCode (exit : Exit) (w : W) : Option (Int × W) :=
  match exit with
  | .returned rc => do
      let (leftover, w) ← rt.hasLeftoverValues w
      return (if leftover then -1 else rc, w)
  | .stopped => do
      let (leftover, w) ← rt.hasLeftoverValues w
      return (if leftover then -1 else 0, w)
  | .failed => some (-1, w)
  | .skipped => some (-1, w)

/-- `cmocka_run_one_test_or_fixture` from `initialize_testing` on. -/
def runInside (testFunc setupFunc teardownFunc : Option (Body P W)) (checkPoint : C)
    (state : Option P) (g : Globals W) : Option (Int × Option P × Globals W) := do
  let w ← rt.initializeTesting g.world
  let (exit, state, g) ←
    runFunction rt testFunc setupFunc teardownFunc checkPoint state { g with world := w }
  let (rc, w) ← exitCode rt exit g.world
  let w ← rt.teardownTesting w
  return (rc, state, { g with world := w })

/-- `cmocka_run_one_test_or_fixture`. -/
def runOneTestOrFixture (testFunc setupFunc teardownFunc : Option (Body P W))
    (state : Option P) (heapCheckPoint : Option C) (g : Globals W) :
    Option (Int × Option P × Globals W) :=
  match heapCheckPoint with
  | some checkPoint => runInside rt testFunc setupFunc teardownFunc checkPoint state g
  | none => do
      let checkPoint ← rt.checkPointAllocatedBlocks g.world
      runInside rt testFunc setupFunc teardownFunc checkPoint state g

/-- The setup of `cmocka_run_one_tests`. -/
def runSetup (test : CMUnitTest P W) (state : Option P) (g : Globals W) :
    Option (Int × Option C × Option P × Globals W) :=
  match test.setupFunc with
  | none => some (0, none, state, g)
  | some setup => do
      let checkPoint ← rt.checkPointAllocatedBlocks g.world
      let (rc, state, g) ←
        runOneTestOrFixture rt none (some setup) none state (some checkPoint) g
      return (rc, some checkPoint, state, g)

/-- The test of `cmocka_run_one_tests`. -/
def runTestFunc (test : CMUnitTest P W) (state : Option P) (g : Globals W) :
    Option (Status × Option P × Globals W) := do
  let (rc, state, g) ← runOneTestOrFixture rt test.testFunc none none state none g
  if rc = 0 then return (.passed, state, g)
  else if g.skipTest then return (.skipped, state, { g with skipTest := false })
  else return (.failed, state, g)

/-- The teardown of `cmocka_run_one_tests`. -/
def runTeardown (test : CMUnitTest P W) (checkPoint : Option C) (state : Option P)
    (g : Globals W) : Option (Int × Globals W) :=
  match test.teardownFunc with
  | none => some (0, g)
  | some teardown => do
      let (rc, _, g) ← runOneTestOrFixture rt none none (some teardown) state checkPoint g
      return (rc, g)

/-- `cmocka_run_one_tests`: `rc` and the status. -/
def runOneTests (test : CMUnitTest P W) (state : Option P) (g : Globals W) :
    Option (Int × Status × Globals W) := do
  let (rc, checkPoint, state, g) ← runSetup rt test state g
  if rc ≠ 0 then return (rc, .error, g)
  else
    let (status, state, g) ← runTestFunc rt test state g
    let (rc, g) ← runTeardown rt test checkPoint state g
    return (rc, if rc ≠ 0 then .error else status, g)

/-- The counters after a test. -/
def Totals.count (t : Totals) (rc : Int) (status : Status) : Totals :=
  let t := { t with executed := t.executed + 1 }
  if rc = 0 then
    match status with
    | .passed => { t with passed := t.passed + 1 }
    | .skipped => { t with skipped := t.skipped + 1 }
    | .failed => { t with failed := t.failed + 1 }
    | _ => { t with errors := t.errors + 1 }
  else { t with errors := t.errors + 1 }

/-- The loop over the tests. -/
def executeTests (groupState : Option P) :
    List (CMUnitTest P W) → Totals → Globals W → Option (Totals × Globals W)
  | [], t, g => some (t, g)
  | test :: rest, t, g => do
      let (rc, status, g) ← runOneTests rt test (groupState.or test.initialState) g
      executeTests groupState rest (t.count rc status) g

/-- The tests a group runs: those that have a name and a function, and that the
filters let through. -/
def Filters.selects (filters : Filters) (test : CMUnitTest P W) : Bool :=
  match test.name with
  | none => false
  | some name =>
      (test.testFunc.isSome || test.setupFunc.isSome || test.teardownFunc.isSome) &&
        (filters.test.all fun pattern => cStrmatch name pattern) &&
        !(filters.skip.any fun pattern => cStrmatch name pattern)

/-- The group setup or teardown, if there is one. -/
def runGroupFixture (setupFunc teardownFunc : Option (Body P W)) (groupState : Option P)
    (groupCheckPoint : C) (g : Globals W) : Option (Int × Option P × Globals W) :=
  if setupFunc.isSome || teardownFunc.isSome then
    runOneTestOrFixture rt none setupFunc teardownFunc groupState (some groupCheckPoint) g
  else some (0, groupState, g)

/-- The tests of a group, unless its setup failed: that is one error. -/
def runTestsAfterSetup (rc : Int) (groupState : Option P) (tests : List (CMUnitTest P W))
    (g : Globals W) : Option (Totals × Globals W) :=
  if rc = 0 then executeTests rt groupState tests ⟨0, 0, 0, 0, 0⟩ g
  else some (⟨0, 0, 0, 1, 0⟩, g)

/-- The end of `_cmocka_run_group_tests`: the group teardown, whose `rc` is only printed,
and the last check for blocks. -/
def finishGroup (groupTeardown : Option (Body P W)) (groupState : Option P) (groupCheckPoint : C)
    (g : Globals W) : Option (Bool × Globals W) := do
  let (_, _, g) ← runGroupFixture rt none groupTeardown groupState groupCheckPoint g
  let (returns, w) ← rt.failIfBlocksAllocated groupCheckPoint g.world
  return (returns, { g with world := w })

/-- `_cmocka_run_group_tests`. -/
def runGroupTests (filters : Filters) (tests : List (CMUnitTest P W))
    (groupSetup groupTeardown : Option (Body P W)) (g : Globals W) :
    Option (GroupEnd × Totals × Globals W) := do
  let groupCheckPoint ← rt.checkPointAllocatedBlocks g.world
  let (rc, groupState, g) ← runGroupFixture rt groupSetup none none groupCheckPoint g
  let (t, g) ← runTestsAfterSetup rt rc groupState (tests.filter filters.selects) g
  let (returns, g) ← finishGroup rt groupTeardown groupState groupCheckPoint g
  return (if returns then .returned (BitVec.ofNat 32 (t.failed + t.errors)) else .exitFailure,
    t, g)

end Code

/-! ## The flag passes through -/

section Flag

variable {P W C : Type} {rt : Runtime W C}

/-- The globals with the flag set as well when `flag` is. -/
def Globals.raise (flag : Bool) (g : Globals W) : Globals W :=
  { g with skipTest := flag || g.skipTest }

theorem Globals.raise_clear (flag : Bool) (w : W) : Globals.raise flag ⟨w, false⟩ = ⟨w, flag⟩ := by
  simp [Globals.raise]

theorem callBody_raise (f : Body P W) (state : Option P) (flag : Bool) (g : Globals W) :
    callBody f state (g.raise flag) =
      (callBody f state g).map fun (exit, state, g) => (exit, state, g.raise flag) := by
  unfold callBody
  show (f state g.world).bind _ = ((f state g.world).bind _).map _
  cases f state g.world with
  | none => rfl
  | some r => simp [Globals.raise, Bool.or_assoc]

theorem checkBlocks_raise (checkPoint : C) (exit : Exit) (flag : Bool) (g : Globals W) :
    checkBlocks rt checkPoint exit (g.raise flag) =
      (checkBlocks rt checkPoint exit g).map fun (exit, g) => (exit, g.raise flag) := by
  cases exit with
  | returned rc =>
      show (rt.failIfBlocksAllocated checkPoint g.world).bind _ =
        ((rt.failIfBlocksAllocated checkPoint g.world).bind _).map _
      cases rt.failIfBlocksAllocated checkPoint g.world with
      | none => rfl
      | some r => rfl
  | failed => rfl
  | skipped => rfl
  | stopped => rfl

theorem runChecked_raise (f : Body P W) (checkPoint : C) (state : Option P) (flag : Bool)
    (g : Globals W) :
    runChecked rt f checkPoint state (g.raise flag) =
      (runChecked rt f checkPoint state g).map
        fun (exit, state, g) => (exit, state, g.raise flag) := by
  unfold runChecked
  rw [callBody_raise]
  cases callBody f state g with
  | none => rfl
  | some r =>
      obtain ⟨exit, state, g⟩ := r
      show (checkBlocks rt checkPoint exit (g.raise flag)).bind _ =
        ((checkBlocks rt checkPoint exit g).bind _).map _
      rw [checkBlocks_raise]
      cases checkBlocks rt checkPoint exit g with
      | none => rfl
      | some r => rfl

theorem runFunction_raise (testFunc setupFunc teardownFunc : Option (Body P W)) (checkPoint : C)
    (state : Option P) (flag : Bool) (g : Globals W) :
    runFunction rt testFunc setupFunc teardownFunc checkPoint state (g.raise flag) =
      (runFunction rt testFunc setupFunc teardownFunc checkPoint state g).map
        fun (exit, state, g) => (exit, state, g.raise flag) := by
  unfold runFunction
  split
  · rw [runChecked_raise]
    cases runChecked rt _ checkPoint state g with
    | none => rfl
    | some r => rfl
  · exact callBody_raise _ _ _ _
  · exact runChecked_raise _ _ _ _ _
  · rfl

theorem runInside_raise (testFunc setupFunc teardownFunc : Option (Body P W)) (checkPoint : C)
    (state : Option P) (flag : Bool) (g : Globals W) :
    runInside rt testFunc setupFunc teardownFunc checkPoint state (g.raise flag) =
      (runInside rt testFunc setupFunc teardownFunc checkPoint state g).map
        fun (rc, state, g) => (rc, state, g.raise flag) := by
  show (rt.initializeTesting g.world).bind _ = ((rt.initializeTesting g.world).bind _).map _
  cases rt.initializeTesting g.world with
  | none => rfl
  | some w =>
      show (runFunction rt testFunc setupFunc teardownFunc checkPoint state
          (Globals.raise flag { g with world := w })).bind _ =
        ((runFunction rt testFunc setupFunc teardownFunc checkPoint state
          { g with world := w }).bind _).map _
      rw [runFunction_raise]
      cases runFunction rt testFunc setupFunc teardownFunc checkPoint state
          { g with world := w } with
      | none => rfl
      | some r =>
          obtain ⟨exit, state, g⟩ := r
          show (exitCode rt exit g.world).bind _ = ((exitCode rt exit g.world).bind _).map _
          cases exitCode rt exit g.world with
          | none => rfl
          | some r =>
              obtain ⟨rc, w⟩ := r
              show (rt.teardownTesting w).bind _ = ((rt.teardownTesting w).bind _).map _
              cases rt.teardownTesting w with
              | none => rfl
              | some w => rfl

/-- A function does the same whether the flag is set or not, and leaves it set when it
was or when it calls `_skip`. -/
theorem runOneTestOrFixture_raise (testFunc setupFunc teardownFunc : Option (Body P W))
    (state : Option P) (heapCheckPoint : Option C) (flag : Bool) (g : Globals W) :
    runOneTestOrFixture rt testFunc setupFunc teardownFunc state heapCheckPoint (g.raise flag) =
      (runOneTestOrFixture rt testFunc setupFunc teardownFunc state heapCheckPoint g).map
        fun (rc, state, g) => (rc, state, g.raise flag) := by
  cases heapCheckPoint with
  | some checkPoint => exact runInside_raise _ _ _ _ _ _ _
  | none =>
      show (rt.checkPointAllocatedBlocks g.world).bind _ =
        ((rt.checkPointAllocatedBlocks g.world).bind _).map _
      cases rt.checkPointAllocatedBlocks g.world with
      | none => rfl
      | some checkPoint => exact runInside_raise _ _ _ _ _ _ _

/-- A function that raises the flag has called `_skip`. -/
theorem runChecked_skip {f : Body P W} {checkPoint : C} {state state' : Option P} {w : W}
    {exit : Exit} {g : Globals W}
    (h : runChecked rt f checkPoint state ⟨w, false⟩ = some (exit, state', g))
    (hskip : g.skipTest = true) : exit = .skipped := by
  obtain ⟨⟨exit₁, state₁, g₁⟩, hcall, hrest⟩ := Option.bind_eq_some_iff.mp h
  obtain ⟨⟨exit₂, g₂⟩, hcheck, heq⟩ := Option.bind_eq_some_iff.mp hrest
  cases heq
  obtain ⟨⟨exit₃, state₃, w₃⟩, -, heq⟩ := Option.bind_eq_some_iff.mp hcall
  cases heq
  cases exit₁ with
  | returned rc =>
      obtain ⟨⟨returns, w₄⟩, -, heq⟩ := Option.bind_eq_some_iff.mp hcheck
      cases heq
      simp at hskip
  | failed =>
      cases hcheck
      simp at hskip
  | skipped =>
      cases hcheck
      rfl
  | stopped =>
      cases hcheck
      simp at hskip

theorem runFunction_skip {testFunc setupFunc teardownFunc : Option (Body P W)} {checkPoint : C}
    {state state' : Option P} {w : W} {exit : Exit} {g : Globals W}
    (h : runFunction rt testFunc setupFunc teardownFunc checkPoint state ⟨w, false⟩ =
      some (exit, state', g)) (hskip : g.skipTest = true) : exit = .skipped := by
  unfold runFunction at h
  split at h
  · obtain ⟨⟨exit₁, state₁, g₁⟩, hrun, heq⟩ := Option.bind_eq_some_iff.mp h
    cases heq
    rw [runChecked_skip hrun hskip]
    rfl
  · obtain ⟨⟨exit₁, state₁, w₁⟩, -, heq⟩ := Option.bind_eq_some_iff.mp h
    cases heq
    simpa using hskip
  · exact runChecked_skip h hskip
  · cases h
    cases hskip

/-- It has not succeeded. -/
theorem runOneTestOrFixture_skip {testFunc setupFunc teardownFunc : Option (Body P W)}
    {state state' : Option P} {heapCheckPoint : Option C} {w : W} {rc : Int} {g : Globals W}
    (h : runOneTestOrFixture rt testFunc setupFunc teardownFunc state heapCheckPoint ⟨w, false⟩ =
      some (rc, state', g)) (hskip : g.skipTest = true) : rc ≠ 0 := by
  have hinside : ∃ checkPoint, runInside rt testFunc setupFunc teardownFunc checkPoint state
      ⟨w, false⟩ = some (rc, state', g) := by
    cases heapCheckPoint with
    | some checkPoint => exact ⟨checkPoint, h⟩
    | none =>
        obtain ⟨checkPoint, -, hrun⟩ := Option.bind_eq_some_iff.mp h
        exact ⟨checkPoint, hrun⟩
  obtain ⟨checkPoint, hrun⟩ := hinside
  obtain ⟨w₁, -, hrest⟩ := Option.bind_eq_some_iff.mp hrun
  obtain ⟨⟨exit, state₂, g₂⟩, hfunction, hrest⟩ := Option.bind_eq_some_iff.mp hrest
  obtain ⟨⟨rc₃, w₃⟩, hcode, hrest⟩ := Option.bind_eq_some_iff.mp hrest
  obtain ⟨w₄, -, heq⟩ := Option.bind_eq_some_iff.mp hrest
  cases heq
  rw [runFunction_skip hfunction hskip] at hcode
  cases hcode
  decide

end Flag

/-! ## What the functions did -/

/-- What the functions of a test did: the number its setup ended with, the result of
the test function (`notStarted` after a setup that failed), the number its teardown
ended with, and whether a fixture called `_skip`. A fixture that is missing or not
called has ended with 0. -/
structure Report where
  setupRc : Int
  result : Status
  teardownRc : Int
  raised : Bool
  deriving DecidableEq, Repr

namespace Report

variable (r : Report)

/-- No fixture of the test failed. -/
def Clean : Prop := r.setupRc = 0 ∧ r.teardownRc = 0

instance : Decidable r.Clean := inferInstanceAs (Decidable (_ ∧ _))

/-- What `cmocka_run_one_tests` returns. -/
def rc : Int := if r.setupRc ≠ 0 then r.setupRc else r.teardownRc

/-- The result the runner sees when the flag is `flag` before the test. -/
def seen (flag : Bool) : Status := if flag ∧ r.result = .failed then .skipped else r.result

/-- The status the runner sees. -/
def seenStatus (flag : Bool) : Status := if r.rc ≠ 0 then .error else r.seen flag

/-- The flag after the test. -/
def flagAfter (flag : Bool) : Bool :=
  flag && (decide (r.result = .passed) || decide (r.result = .notStarted)) || r.raised

/-- The test function is called after a setup that did not fail, the teardown after
it, and a fixture that called `_skip` has failed. -/
structure Sound : Prop where
  notStarted : r.setupRc ≠ 0 → r.result = .notStarted ∧ r.teardownRc = 0
  started : r.setupRc = 0 → r.result ≠ .notStarted ∧ r.result ≠ .error
  raised : r.raised = true → ¬ r.Clean

variable {r}

theorem clean_iff_rc : r.Clean ↔ r.rc = 0 := by
  unfold Clean rc
  by_cases h : r.setupRc = 0
  · simp [h]
  · simp [h]

end Report

/-- The tests that ended in this way, no fixture of theirs having failed. -/
def ended (reports : List Report) (status : Status) : Nat :=
  reports.countP fun r => r.Clean ∧ r.result = status

/-- The tests a fixture of which failed. -/
def faulty (reports : List Report) : Nat := reports.countP fun r => ¬ r.Clean

/-- The tests a fixture of which called `_skip`. -/
def raising (reports : List Report) : Nat := reports.countP (·.raised)

/-- The tests that failed and whose teardown failed as well. -/
def failedTwice (reports : List Report) : Nat :=
  reports.countP fun r => r.result = .failed ∧ r.teardownRc ≠ 0

/-- The functions that failed: setups, test functions and teardowns. -/
def failedFunctions (reports : List Report) : Nat :=
  reports.countP (·.setupRc ≠ 0) + reports.countP (·.result = .failed) +
    reports.countP (·.teardownRc ≠ 0)

section Reports

variable {P W C : Type} (rt : Runtime W C)

/-- `cmocka_run_one_tests` with the flag cleared before every function, so that it
tells whether that function called `_skip`. -/
def reportOneTests (test : CMUnitTest P W) (state : Option P) (w : W) : Option (Report × W) := do
  let (setupRc, checkPoint, state, g) ← runSetup rt test state ⟨w, false⟩
  if setupRc ≠ 0 then return (⟨setupRc, .notStarted, 0, g.skipTest⟩, g.world)
  else
    let (status, state, g) ← runTestFunc rt test state ⟨g.world, false⟩
    let (teardownRc, g) ← runTeardown rt test checkPoint state ⟨g.world, false⟩
    return (⟨setupRc, status, teardownRc, g.skipTest⟩, g.world)

/-- The reports of the tests of a group. -/
def reportTests (groupState : Option P) : List (CMUnitTest P W) → W → Option (List Report × W)
  | [], w => some ([], w)
  | test :: rest, w => do
      let (report, w) ← reportOneTests rt test (groupState.or test.initialState) w
      let (reports, w) ← reportTests groupState rest w
      return (report :: reports, w)

end Reports

/-- The counters and the flag, as the runner has them. -/
def seenTotals : List Report → Totals → Bool → Totals × Bool
  | [], t, flag => (t, flag)
  | r :: rest, t, flag => seenTotals rest (t.count r.rc (r.seenStatus flag)) (r.flagAfter flag)

section Flagged

variable {P W C : Type} {rt : Runtime W C}

theorem runSetup_raise (test : CMUnitTest P W) (state : Option P) (flag : Bool) (g : Globals W) :
    runSetup rt test state (g.raise flag) =
      (runSetup rt test state g).map
        fun (rc, checkPoint, state, g) => (rc, checkPoint, state, g.raise flag) := by
  unfold runSetup
  split
  · rfl
  · show (rt.checkPointAllocatedBlocks g.world).bind _ =
      ((rt.checkPointAllocatedBlocks g.world).bind _).map _
    cases rt.checkPointAllocatedBlocks g.world with
    | none => rfl
    | some checkPoint =>
        show Option.bind (runOneTestOrFixture rt none _ none state _ (g.raise flag)) _ =
          (Option.bind (runOneTestOrFixture rt none _ none state _ g) _).map _
        rw [runOneTestOrFixture_raise]
        cases runOneTestOrFixture rt none _ none state (some checkPoint) g with
        | none => rfl
        | some r => rfl

theorem runTeardown_raise (test : CMUnitTest P W) (checkPoint : Option C) (state : Option P)
    (flag : Bool) (g : Globals W) :
    runTeardown rt test checkPoint state (g.raise flag) =
      (runTeardown rt test checkPoint state g).map fun (rc, g) => (rc, g.raise flag) := by
  unfold runTeardown
  split
  · rfl
  · rw [runOneTestOrFixture_raise]
    cases runOneTestOrFixture rt none none _ state checkPoint g with
    | none => rfl
    | some r => rfl

/-- A fixture that calls `_skip` has failed. -/
theorem runSetup_skip {test : CMUnitTest P W} {state state' : Option P} {w : W} {rc : Int}
    {checkPoint : Option C} {g : Globals W}
    (h : runSetup rt test state ⟨w, false⟩ = some (rc, checkPoint, state', g))
    (hskip : g.skipTest = true) : rc ≠ 0 := by
  unfold runSetup at h
  split at h
  · cases h
    cases hskip
  · obtain ⟨checkPoint₁, -, hrest⟩ := Option.bind_eq_some_iff.mp h
    obtain ⟨⟨rc₁, state₁, g₁⟩, hrun, heq⟩ := Option.bind_eq_some_iff.mp hrest
    cases heq
    exact runOneTestOrFixture_skip hrun hskip

theorem runTeardown_skip {test : CMUnitTest P W} {checkPoint : Option C} {state : Option P} {w : W}
    {rc : Int} {g : Globals W}
    (h : runTeardown rt test checkPoint state ⟨w, false⟩ = some (rc, g))
    (hskip : g.skipTest = true) : rc ≠ 0 := by
  unfold runTeardown at h
  split at h
  · cases h
    cases hskip
  · obtain ⟨⟨rc₁, state₁, g₁⟩, hrun, heq⟩ := Option.bind_eq_some_iff.mp h
    cases heq
    exact runOneTestOrFixture_skip hrun hskip

/-- With the flag set, a failing test counts as skipped, and clears it. -/
theorem runTestFunc_flag (test : CMUnitTest P W) (state : Option P) (flag : Bool) (w : W) :
    runTestFunc rt test state ⟨w, flag⟩ =
      (runTestFunc rt test state ⟨w, false⟩).map fun (status, state, g) =>
        (if flag ∧ status = .failed then .skipped else status, state,
          ⟨g.world, flag && decide (status = .passed)⟩) := by
  unfold runTestFunc
  rw [← Globals.raise_clear flag w, runOneTestOrFixture_raise]
  cases hrun : runOneTestOrFixture rt test.testFunc none none state none ⟨w, false⟩ with
  | none => rfl
  | some r =>
      obtain ⟨rc, state', g⟩ := r
      have hskip := runOneTestOrFixture_skip hrun
      obtain ⟨w', skip⟩ := g
      by_cases hrc : rc = 0
      · have hclear : skip = false := by
          by_contra hset
          exact hskip (by simpa using hset) hrc
        simp [hrc, hclear, Globals.raise]
      · cases flag <;> cases skip <;> simp [hrc, Globals.raise]

/-- A test function passes, fails or is skipped. -/
theorem runTestFunc_status {test : CMUnitTest P W} {state state' : Option P} {g g' : Globals W}
    {status : Status} (h : runTestFunc rt test state g = some (status, state', g')) :
    status ≠ .notStarted ∧ status ≠ .error := by
  obtain ⟨⟨rc, state₁, g₁⟩, -, hrest⟩ := Option.bind_eq_some_iff.mp h
  dsimp only at hrest
  split at hrest
  · cases hrest
    decide
  · split at hrest
    · cases hrest
      decide
    · cases hrest
      decide

/-- `cmocka_run_one_tests` tells what happened, but for a failure that it shows as
skipped when the flag is set before the test. -/
theorem runOneTests_eq (test : CMUnitTest P W) (state : Option P) (w : W) (flag : Bool) :
    runOneTests rt test state ⟨w, flag⟩ =
      (reportOneTests rt test state w).map fun (r, w) =>
        (r.rc, r.seenStatus flag, ⟨w, r.flagAfter flag⟩) := by
  unfold runOneTests reportOneTests
  rw [← Globals.raise_clear flag w, runSetup_raise]
  cases hsetup : runSetup rt test state ⟨w, false⟩ with
  | none => rfl
  | some r =>
      obtain ⟨rc, checkPoint, state, w₁, skip₁⟩ := r
      have hskip := runSetup_skip hsetup
      simp only [Option.map_some, Option.bind_eq_bind, Option.bind_some]
      by_cases hrc : rc ≠ 0
      · simp [hrc, Report.rc, Report.seenStatus, Report.flagAfter, Globals.raise]
      · have hclear : skip₁ = false := by
          by_contra hset
          exact hrc (hskip (by simpa using hset))
        rw [if_neg hrc, if_neg hrc, hclear, Globals.raise_clear, runTestFunc_flag]
        cases htest : runTestFunc rt test state ⟨w₁, false⟩ with
        | none => rfl
        | some r =>
            obtain ⟨status, state, w₂, skip₂⟩ := r
            obtain ⟨hstatus, -⟩ := runTestFunc_status htest
            simp only [Option.map_some, Option.bind_some]
            rw [← Globals.raise_clear (flag && decide (status = .passed)) w₂, runTeardown_raise]
            cases runTeardown rt test checkPoint state ⟨w₂, false⟩ with
            | none => rfl
            | some r =>
                obtain ⟨teardownRc, w₃, skip₃⟩ := r
                simp [Report.rc, Report.seenStatus, Report.seen, Report.flagAfter, Globals.raise,
                  hstatus, not_not.mp hrc]

/-- The report of a test is sound. -/
theorem reportOneTests_sound {test : CMUnitTest P W} {state : Option P} {w w' : W} {r : Report}
    (h : reportOneTests rt test state w = some (r, w')) : r.Sound := by
  obtain ⟨⟨setupRc, checkPoint, state₁, g₁⟩, hsetup, hrest⟩ := Option.bind_eq_some_iff.mp h
  dsimp only at hrest
  split at hrest
  · next hrc =>
      cases hrest
      exact ⟨fun _ => ⟨rfl, rfl⟩, fun hzero => absurd hzero hrc, fun _ hclean => hrc hclean.1⟩
  · next hrc =>
      obtain ⟨⟨status, state₂, g₂⟩, htest, hrest⟩ := Option.bind_eq_some_iff.mp hrest
      obtain ⟨⟨teardownRc, g₃⟩, hteardown, heq⟩ := Option.bind_eq_some_iff.mp hrest
      cases heq
      exact ⟨fun hsome => absurd hsome hrc, fun _ => runTestFunc_status htest,
        fun hraised hclean => runTeardown_skip hteardown hraised hclean.2⟩

theorem reportTests_sound : ∀ {groupState : Option P} {tests : List (CMUnitTest P W)} {w w' : W}
    {reports : List Report}, reportTests rt groupState tests w = some (reports, w') →
    ∀ r ∈ reports, r.Sound
  | _, [], _, _, _, h, r, hr => by
      cases h
      cases hr
  | groupState, test :: rest, w, w', reports, h, r, hr => by
      obtain ⟨⟨report, w₁⟩, hone, hrest⟩ := Option.bind_eq_some_iff.mp h
      obtain ⟨⟨reports', w₂⟩, htests, heq⟩ := Option.bind_eq_some_iff.mp hrest
      cases heq
      rcases List.mem_cons.mp hr with rfl | hr
      · exact reportOneTests_sound hone
      · exact reportTests_sound htests r hr

theorem reportTests_length : ∀ {groupState : Option P} {tests : List (CMUnitTest P W)} {w w' : W}
    {reports : List Report}, reportTests rt groupState tests w = some (reports, w') →
    reports.length = tests.length
  | _, [], _, _, _, h => by
      cases h
      rfl
  | groupState, test :: rest, w, w', reports, h => by
      obtain ⟨⟨report, w₁⟩, -, hrest⟩ := Option.bind_eq_some_iff.mp h
      obtain ⟨⟨reports', w₂⟩, htests, heq⟩ := Option.bind_eq_some_iff.mp hrest
      cases heq
      rw [List.length_cons, List.length_cons, reportTests_length htests]

/-- The loop counts what the runner sees of the reports. -/
theorem executeTests_eq (groupState : Option P) :
    ∀ (tests : List (CMUnitTest P W)) (t : Totals) (w : W) (flag : Bool),
      executeTests rt groupState tests t ⟨w, flag⟩ =
        (reportTests rt groupState tests w).map fun (reports, w) =>
          ((seenTotals reports t flag).1, ⟨w, (seenTotals reports t flag).2⟩)
  | [], t, w, flag => rfl
  | test :: rest, t, w, flag => by
      unfold executeTests reportTests
      rw [runOneTests_eq]
      cases reportOneTests rt test (groupState.or test.initialState) w with
      | none => rfl
      | some r =>
          obtain ⟨report, w₁⟩ := r
          simp only [Option.map_some, Option.bind_eq_bind, Option.bind_some]
          rw [executeTests_eq]
          cases reportTests rt groupState rest w₁ with
          | none => rfl
          | some r => rfl

end Flagged

/-! ## What is hidden -/

/-- The counters `seen`, from `t` on, beside the reports of the tests in between:
`hidden` tests failed and count as skipped. -/
structure Totals.Tells (t seen : Totals) (reports : List Report) (hidden : Nat) : Prop where
  executed : seen.executed = t.executed + reports.length
  passed : seen.passed = t.passed + ended reports .passed
  errors : seen.errors = t.errors + faulty reports
  failed : seen.failed + hidden = t.failed + ended reports .failed
  skipped : seen.skipped = t.skipped + ended reports .skipped + hidden

theorem ended_cons (r : Report) (rest : List Report) (status : Status) :
    ended (r :: rest) status = ended [r] status + ended rest status := by
  simp only [ended, List.countP_cons, List.countP_nil]
  omega

theorem faulty_cons (r : Report) (rest : List Report) :
    faulty (r :: rest) = faulty [r] + faulty rest := by
  simp only [faulty, List.countP_cons, List.countP_nil]
  omega

/-- First one test, then the others. -/
theorem Totals.Tells.cons {t seen seen' : Totals} {r : Report} {rest : List Report}
    {hidden hidden' : Nat} (h : t.Tells seen [r] hidden) (h' : seen.Tells seen' rest hidden') :
    t.Tells seen' (r :: rest) (hidden + hidden') := by
  obtain ⟨hexecuted, hpassed, herrors, hfailed, hskipped⟩ := h
  obtain ⟨hexecuted', hpassed', herrors', hfailed', hskipped'⟩ := h'
  have hended := ended_cons r rest
  have hfaulty := faulty_cons r rest
  constructor
  · rw [hexecuted', hexecuted, List.length_singleton, List.length_cons]
    omega
  · rw [hpassed', hpassed, hended, Nat.add_assoc]
  · rw [herrors', herrors, hfaulty, Nat.add_assoc]
  · rw [hended]
    omega
  · rw [hskipped', hskipped, hended]
    omega

/-- The flag is up after a test only if it was before, or a fixture raised it. -/
theorem Report.flagAfter_le (r : Report) (flag : Bool) :
    (r.flagAfter flag).toNat ≤ flag.toNat + raising [r] := by
  cases hraised : r.raised with
  | false =>
      rw [Report.flagAfter, hraised, Bool.or_false]
      exact (Bool.toNat_le_toNat (Bool.and_le_left _ _)).trans (Nat.le_add_right _ _)
  | true =>
      have hone : raising [r] = 1 := by simp [raising, hraised]
      have hle := Bool.toNat_le (r.flagAfter flag)
      omega

/-- One test: it hides a failure only when the flag was up before it, and then the flag
is down afterwards. -/
theorem Totals.count_tells (t : Totals) {r : Report} (hr : r.Sound) (flag : Bool) :
    ∃ hidden, t.Tells (t.count r.rc (r.seenStatus flag)) [r] hidden ∧
      hidden + (r.flagAfter flag).toNat ≤ flag.toNat + raising [r] := by
  have hflag := r.flagAfter_le flag
  by_cases hclean : r.Clean
  · have hrc : r.rc = 0 := Report.clean_iff_rc.mp hclean
    have hdown : r.raised = false := by
      by_contra hset
      exact hr.raised (by simpa using hset) hclean
    obtain ⟨hstarted, hnoError⟩ := hr.started hclean.1
    by_cases hhide : flag = true ∧ r.result = .failed
    · obtain ⟨rfl, hfailed⟩ := hhide
      refine ⟨1, ⟨?_, ?_, ?_, ?_, ?_⟩, ?_⟩
      all_goals
        simp [Totals.count, hrc, Report.seenStatus, Report.seen, Report.flagAfter, ended, faulty,
          raising, hclean, hdown, hfailed]
    · have hseen : r.seenStatus flag = r.result := by
        rw [Report.seenStatus, if_neg (not_not.mpr hrc), Report.seen, if_neg hhide]
      refine ⟨0, ?_, by omega⟩
      rw [hseen]
      cases hresult : r.result with
      | notStarted => exact absurd hresult hstarted
      | error => exact absurd hresult hnoError
      | passed => constructor <;> simp [Totals.count, hrc, ended, faulty, hclean, hresult]
      | failed => constructor <;> simp [Totals.count, hrc, ended, faulty, hclean, hresult]
      | skipped => constructor <;> simp [Totals.count, hrc, ended, faulty, hclean, hresult]
  · have hrc : r.rc ≠ 0 := fun hzero => hclean (Report.clean_iff_rc.mpr hzero)
    refine ⟨0, ⟨?_, ?_, ?_, ?_, ?_⟩, by omega⟩
    all_goals simp [Totals.count, hrc, ended, faulty, hclean]

/-- A whole run of tests. -/
theorem seenTotals_tells : ∀ {reports : List Report} (t : Totals) (flag : Bool),
    (∀ r ∈ reports, r.Sound) →
    ∃ hidden, t.Tells (seenTotals reports t flag).1 reports hidden ∧
      hidden ≤ flag.toNat + raising reports
  | [], t, flag, _ => ⟨0, ⟨rfl, rfl, rfl, rfl, rfl⟩, Nat.zero_le _⟩
  | r :: rest, t, flag, hsound => by
      obtain ⟨hidden, hone, hle⟩ := t.count_tells (hsound r List.mem_cons_self) flag
      obtain ⟨hidden', hrest, hle'⟩ := seenTotals_tells (t.count r.rc (r.seenStatus flag))
        (r.flagAfter flag) fun r' hr' => hsound r' (List.mem_cons_of_mem _ hr')
      have hcons : raising (r :: rest) = raising [r] + raising rest := by
        simp only [raising, List.countP_cons, List.countP_nil]
        omega
      exact ⟨hidden + hidden', hone.cons hrest, by omega⟩

/-- A fixture that called `_skip` is one that failed. -/
theorem raising_le_faulty {reports : List Report} (hsound : ∀ r ∈ reports, r.Sound) :
    raising reports ≤ faulty reports := by
  refine List.countP_mono_left fun r hr hraised => ?_
  simpa using (hsound r hr).raised hraised

/-- The functions of one test that failed. -/
theorem failedFunctions_singleton {r : Report} (hr : r.Sound) :
    failedFunctions [r] = ended [r] .failed + faulty [r] + failedTwice [r] := by
  unfold failedFunctions ended faulty failedTwice
  by_cases hsetup : r.setupRc = 0
  · -- the test function and the teardown fail or do not, each by itself
    by_cases hteardown : r.teardownRc = 0
    · simp [Report.Clean, hsetup, hteardown]
    · simp [Report.Clean, hsetup, hteardown, Nat.add_comm]
  · obtain ⟨hresult, hteardown⟩ := hr.notStarted hsetup
    simp [Report.Clean, hsetup, hteardown, hresult]

/-- The functions that failed, test by test: a test that failed, or a test with a faulty
fixture, or both. -/
theorem failedFunctions_eq : ∀ {reports : List Report}, (∀ r ∈ reports, r.Sound) →
    failedFunctions reports = ended reports .failed + faulty reports + failedTwice reports
  | [], _ => rfl
  | r :: rest, hsound => by
      have hone := failedFunctions_singleton (hsound r List.mem_cons_self)
      have hrest := failedFunctions_eq fun r' hr' => hsound r' (List.mem_cons_of_mem r hr')
      have hfunctions : failedFunctions (r :: rest) =
          failedFunctions [r] + failedFunctions rest := by
        simp only [failedFunctions, List.countP_cons, List.countP_nil]
        omega
      have htwice : failedTwice (r :: rest) = failedTwice [r] + failedTwice rest := by
        simp only [failedTwice, List.countP_cons, List.countP_nil]
        omega
      rw [hfunctions, htwice, ended_cons, faulty_cons]
      omega

/-! ## A group -/

section Group

variable {P W C : Type} (rt : Runtime W C)

/-- What the functions of a group did: the numbers its fixtures ended with, the reports
of the tests, whether the last check for blocks returned, and the world. -/
structure GroupReport (W : Type) where
  setupRc : Int
  tests : List Report
  teardownRc : Int
  returns : Bool
  world : W

/-- One for a fixture of the group that failed. -/
def groupError (rc : Int) : Nat := if rc = 0 then 0 else 1

/-- The functions of a group that failed: its two fixtures, and those of its tests. -/
def GroupReport.failures (report : GroupReport W) : Nat :=
  groupError report.setupRc + failedFunctions report.tests + groupError report.teardownRc

/-- The reports of the tests of a group; after a group setup that failed there are
none. -/
def reportTestsAfterSetup (rc : Int) (groupState : Option P) (tests : List (CMUnitTest P W))
    (w : W) : Option (List Report × W) :=
  if rc = 0 then reportTests rt groupState tests w else some ([], w)

/-- The end of a group: the number the group teardown ended with, whether the last check
for blocks returned, and the world. -/
def reportFinish (groupTeardown : Option (Body P W)) (groupState : Option P) (groupCheckPoint : C)
    (w : W) : Option (Int × Bool × W) := do
  let (rc, _, g) ← runGroupFixture rt none groupTeardown groupState groupCheckPoint ⟨w, false⟩
  let (returns, w) ← rt.failIfBlocksAllocated groupCheckPoint g.world
  return (rc, returns, w)

/-- The functions that `_cmocka_run_group_tests` calls, each with the flag cleared before
it, and what they did. Nothing is counted. -/
def reportGroupTests (filters : Filters) (tests : List (CMUnitTest P W))
    (groupSetup groupTeardown : Option (Body P W)) (w : W) : Option (GroupReport W) := do
  let groupCheckPoint ← rt.checkPointAllocatedBlocks w
  let (setupRc, groupState, g) ←
    runGroupFixture rt groupSetup none none groupCheckPoint ⟨w, false⟩
  let (reports, w) ←
    reportTestsAfterSetup rt setupRc groupState (tests.filter filters.selects) g.world
  let (teardownRc, returns, w) ← reportFinish rt groupTeardown groupState groupCheckPoint w
  return ⟨setupRc, reports, teardownRc, returns, w⟩

variable {rt}

theorem runGroupFixture_raise (setupFunc teardownFunc : Option (Body P W)) (groupState : Option P)
    (groupCheckPoint : C) (flag : Bool) (g : Globals W) :
    runGroupFixture rt setupFunc teardownFunc groupState groupCheckPoint (g.raise flag) =
      (runGroupFixture rt setupFunc teardownFunc groupState groupCheckPoint g).map
        fun (rc, state, g) => (rc, state, g.raise flag) := by
  unfold runGroupFixture
  split
  · exact runOneTestOrFixture_raise _ _ _ _ _ _ _
  · rfl

theorem runGroupFixture_skip {setupFunc teardownFunc : Option (Body P W)}
    {groupState groupState' : Option P} {groupCheckPoint : C} {w : W} {rc : Int} {g : Globals W}
    (h : runGroupFixture rt setupFunc teardownFunc groupState groupCheckPoint ⟨w, false⟩ =
      some (rc, groupState', g)) (hskip : g.skipTest = true) : rc ≠ 0 := by
  unfold runGroupFixture at h
  split at h
  · exact runOneTestOrFixture_skip h hskip
  · cases h
    cases hskip

theorem finishGroup_spec (groupTeardown : Option (Body P W)) (groupState : Option P)
    (groupCheckPoint : C) (w : W) (flag : Bool) :
    Option.Rel (fun run report => run.1 = report.2.1 ∧ run.2.world = report.2.2)
      (finishGroup rt groupTeardown groupState groupCheckPoint ⟨w, flag⟩)
      (reportFinish rt groupTeardown groupState groupCheckPoint w) := by
  unfold finishGroup reportFinish
  rw [← Globals.raise_clear flag w, runGroupFixture_raise]
  cases runGroupFixture rt none groupTeardown groupState groupCheckPoint ⟨w, false⟩ with
  | none => exact .none
  | some r =>
      obtain ⟨rc, state, g⟩ := r
      show Option.Rel _ ((rt.failIfBlocksAllocated groupCheckPoint g.world).bind _)
        ((rt.failIfBlocksAllocated groupCheckPoint g.world).bind _)
      cases rt.failIfBlocksAllocated groupCheckPoint g.world with
      | none => exact .none
      | some r => exact .some ⟨rfl, rfl⟩

/-- What the runner makes of a group, beside what the functions did. -/
structure GroupSeen (flag : Bool) (run : GroupEnd × Totals × Globals W)
    (report : GroupReport W) : Prop where
  sound : ∀ r ∈ report.tests, r.Sound
  totals : ∃ hidden,
    Totals.Tells ⟨0, 0, 0, groupError report.setupRc, 0⟩ run.2.1 report.tests hidden ∧
      hidden ≤ flag.toNat + raising report.tests
  ending : run.1 = if report.returns then
      .returned (BitVec.ofNat 32 (run.2.1.failed + run.2.1.errors)) else .exitFailure
  world : run.2.2.world = report.world

/-- The tests of a group, as the runner counts them and as they went. -/
theorem runTestsAfterSetup_spec (rc : Int) (groupState : Option P) (tests : List (CMUnitTest P W))
    (w : W) (flag skip : Bool) (hskip : skip = true → rc ≠ 0) :
    Option.Rel (fun run report => run.2.world = report.2 ∧ (∀ r ∈ report.1, r.Sound) ∧
        ∃ hidden, Totals.Tells ⟨0, 0, 0, groupError rc, 0⟩ run.1 report.1 hidden ∧
          hidden ≤ flag.toNat + raising report.1)
      (runTestsAfterSetup rt rc groupState tests (Globals.raise flag ⟨w, skip⟩))
      (reportTestsAfterSetup rt rc groupState tests w) := by
  unfold runTestsAfterSetup reportTestsAfterSetup
  by_cases hrc : rc = 0
  · have hclear : skip = false := by
      by_contra hset
      exact hskip (by simpa using hset) hrc
    rw [if_pos hrc, if_pos hrc, hclear, Globals.raise_clear, executeTests_eq]
    have hzero : groupError rc = 0 := if_pos hrc
    cases hreports : reportTests rt groupState tests w with
    | none => exact .none
    | some r =>
        obtain ⟨reports, w₂⟩ := r
        have hsound := reportTests_sound hreports
        rw [hzero]
        exact .some ⟨rfl, hsound, seenTotals_tells ⟨0, 0, 0, 0, 0⟩ flag hsound⟩
  · rw [if_neg hrc, if_neg hrc]
    have hone : groupError rc = 1 := if_neg hrc
    rw [hone]
    exact .some ⟨rfl, fun _ hr => absurd hr List.not_mem_nil, 0, ⟨rfl, rfl, rfl, rfl, rfl⟩,
      Nat.zero_le _⟩

/-- A group with the flag set or not before it: the runner counts the tests as they
went, but for failures it counts as skipped, at most one for the flag before the
group and one for each test with a fixture that called `_skip`. What the group teardown
did is in none of its numbers. -/
theorem runGroupTests_spec (filters : Filters) (tests : List (CMUnitTest P W))
    (groupSetup groupTeardown : Option (Body P W)) (w : W) (flag : Bool) :
    Option.Rel (GroupSeen flag)
      (runGroupTests rt filters tests groupSetup groupTeardown ⟨w, flag⟩)
      (reportGroupTests rt filters tests groupSetup groupTeardown w) := by
  have hcheckPoint : Option.Rel Eq (rt.checkPointAllocatedBlocks w)
      (rt.checkPointAllocatedBlocks w) := by
    cases rt.checkPointAllocatedBlocks w with
    | none => exact .none
    | some checkPoint => exact .some rfl
  refine rel_bind hcheckPoint ?_
  rintro groupCheckPoint _ rfl
  have hraise := @runGroupFixture_raise _ _ _ rt groupSetup none none groupCheckPoint flag
    ⟨w, false⟩
  rw [Globals.raise_clear] at hraise
  have hsetup : Option.Rel (fun run report => run = (report.1, report.2.1, report.2.2.raise flag) ∧
        (report.2.2.skipTest = true → report.1 ≠ 0))
      (runGroupFixture rt groupSetup none none groupCheckPoint ⟨w, flag⟩)
      (runGroupFixture rt groupSetup none none groupCheckPoint ⟨w, false⟩) := by
    rw [hraise]
    exact rel_map_left fun report hreport => ⟨rfl, runGroupFixture_skip hreport⟩
  refine rel_bind hsetup ?_
  rintro _ ⟨rc, groupState, w₁, skip₁⟩ ⟨rfl, hskip⟩
  refine rel_bind (runTestsAfterSetup_spec rc groupState _ w₁ flag skip₁ hskip) ?_
  rintro ⟨seen, w₂, flag₂⟩ ⟨reports, _⟩ ⟨rfl, hsound, htotals⟩
  refine rel_bind (finishGroup_spec groupTeardown groupState groupCheckPoint w₂ flag₂) ?_
  rintro ⟨_, g⟩ ⟨teardownRc, returns, _⟩ ⟨rfl, rfl⟩
  exact .some ⟨hsound, htotals, rfl, rfl⟩

/-- The counters of the runner beside what the functions of the group did. A test with a
faulty fixture is an error, whatever its test function did; a test that failed counts
as failed, or as skipped where the flag was up (`hidden` of them, at most one for a flag
that was up before the group and one for each test with a fixture that called `_skip`).
So of the functions that failed the runner does not count those `hidden` ones, the test
function of a test whose teardown failed too, and the group teardown. -/
theorem runGroupTests_counts (filters : Filters) (tests : List (CMUnitTest P W))
    (groupSetup groupTeardown : Option (Body P W)) (w : W) (flag : Bool) :
    Option.Rel (fun run report =>
        run.2.1.executed = report.tests.length ∧
        run.2.1.passed = ended report.tests .passed ∧
        run.2.1.errors = groupError report.setupRc + faulty report.tests ∧
        (∃ hidden, hidden ≤ flag.toNat + raising report.tests ∧
          run.2.1.failed + hidden = ended report.tests .failed ∧
          run.2.1.skipped = ended report.tests .skipped + hidden ∧
          run.2.1.failed + run.2.1.errors + hidden + failedTwice report.tests +
            groupError report.teardownRc = report.failures) ∧
        raising report.tests ≤ run.2.1.errors ∧
        (run.1 = if report.returns then
          .returned (BitVec.ofNat 32 (run.2.1.failed + run.2.1.errors)) else .exitFailure) ∧
        run.2.2.world = report.world)
      (runGroupTests rt filters tests groupSetup groupTeardown ⟨w, flag⟩)
      (reportGroupTests rt filters tests groupSetup groupTeardown w) := by
  refine rel_mono (runGroupTests_spec filters tests groupSetup groupTeardown w flag) ?_
  intro run report _ hseen
  obtain ⟨hidden, htells, hle⟩ := hseen.totals
  obtain ⟨hexecuted, hpassed, herrors, hfailed, hskipped⟩ := htells
  simp only [Nat.zero_add] at hexecuted hpassed herrors hfailed hskipped
  have hraising := raising_le_faulty hseen.sound
  have hfunctions := failedFunctions_eq hseen.sound
  refine ⟨hexecuted, hpassed, herrors, ⟨hidden, hle, hfailed, hskipped, ?_⟩, ?_, hseen.ending,
    hseen.world⟩
  · rw [GroupReport.failures]
    omega
  · omega

/-- The reports of a group: no more than its tests, and none after a group setup that
failed. -/
theorem reportGroupTests_le {filters : Filters} {tests : List (CMUnitTest P W)}
    {groupSetup groupTeardown : Option (Body P W)} {w : W} {report : GroupReport W}
    (h : reportGroupTests rt filters tests groupSetup groupTeardown w = some report) :
    groupError report.setupRc + report.tests.length ≤
      max (tests.filter filters.selects).length 1 := by
  obtain ⟨groupCheckPoint, -, hrest⟩ := Option.bind_eq_some_iff.mp h
  obtain ⟨⟨rc, groupState, g⟩, -, hrest⟩ := Option.bind_eq_some_iff.mp hrest
  obtain ⟨⟨reports, w₁⟩, htests, hrest⟩ := Option.bind_eq_some_iff.mp hrest
  obtain ⟨⟨teardownRc, returns, w₂⟩, -, heq⟩ := Option.bind_eq_some_iff.mp hrest
  cases heq
  unfold reportTestsAfterSetup at htests
  unfold groupError
  split at htests
  · next hrc =>
      rw [if_pos hrc, reportTests_length htests, Nat.zero_add]
      exact Nat.le_max_left _ 1
  · next hrc =>
      cases htests
      rw [if_neg hrc]
      exact Nat.le_max_right _ 1

end Group

/-! ## The verdict on a component -/

/-- The exit status of a component program. Its `main` returns what its one group
returned; `EXIT_FAILURE` is 1. -/
def GroupEnd.exitStatus : GroupEnd → Nat
  | .returned value => Runner.exitStatus value
  | .exitFailure => 1

/-- A test with a faulty fixture is no clean one. -/
theorem faulty_eq_zero_iff (reports : List Report) :
    faulty reports = 0 ↔ ∀ r ∈ reports, r.Clean := by
  rw [faulty, List.countP_eq_zero]
  simp

theorem ended_failed_le (reports : List Report) :
    ended reports .failed + faulty reports ≤ reports.length := by
  induction reports with
  | nil => exact Nat.le_refl 0
  | cons r rest ih =>
      rw [ended_cons, faulty_cons, List.length_cons]
      have hone : ended [r] .failed + faulty [r] ≤ 1 := by
        by_cases hclean : r.Clean
        · simp [ended, faulty, hclean]
          split <;> omega
        · simp [ended, faulty, hclean]
      omega

/-- A component with fewer than 256 tests ends with status 0 exactly when no test
failed, no setup or teardown of a test nor the setup of the group failed, and no
block leaked. The failures that the flag hides are never the difference: the test
whose fixture left it set is itself an error. -/
theorem runGroupTests_verdict {P W C : Type} {rt : Runtime W C} (filters : Filters)
    (tests : List (CMUnitTest P W)) (groupSetup groupTeardown : Option (Body P W)) (w : W)
    (hfew : (tests.filter filters.selects).length < 256) :
    Option.Rel (fun run report => run.1.exitStatus = 0 ↔
        report.returns = true ∧ report.setupRc = 0 ∧
          ∀ r ∈ report.tests, r.setupRc = 0 ∧ r.teardownRc = 0 ∧ r.result ≠ .failed)
      (runGroupTests rt filters tests groupSetup groupTeardown ⟨w, false⟩)
      (reportGroupTests rt filters tests groupSetup groupTeardown w) := by
  refine rel_mono (@runGroupTests_spec _ _ _ rt filters tests groupSetup groupTeardown w false) ?_
  intro run report hreport hseen
  have hle := reportGroupTests_le hreport
  have hmax : max (tests.filter filters.selects).length 1 < 256 := max_lt hfew (by decide)
  obtain ⟨hidden, htells, hbound⟩ := hseen.totals
  have herrors := htells.errors
  have hfailed := htells.failed
  have hraising := raising_le_faulty hseen.sound
  have hsum := ended_failed_le report.tests
  simp only [Nat.zero_add, Bool.toNat_false] at herrors hfailed hbound
  -- what is hidden is no more than the errors, so nothing is hidden when there are none
  have hcount : run.2.1.failed + run.2.1.errors = 0 ↔
      groupError report.setupRc = 0 ∧ faulty report.tests = 0 ∧
        ended report.tests .failed = 0 := by
    omega
  have hsetup : groupError report.setupRc = 0 ↔ report.setupRc = 0 := by
    unfold groupError
    split
    · next hrc => exact iff_of_true rfl hrc
    · next hrc => exact iff_of_false (by decide) hrc
  have hclean : faulty report.tests = 0 ∧ ended report.tests .failed = 0 ↔
      ∀ r ∈ report.tests, r.setupRc = 0 ∧ r.teardownRc = 0 ∧ r.result ≠ .failed := by
    rw [faulty_eq_zero_iff, ended, List.countP_eq_zero]
    constructor
    · intro h r hr
      have hrclean := h.1 r hr
      refine ⟨hrclean.1, hrclean.2, fun hresult => ?_⟩
      exact h.2 r hr (by simpa using ⟨hrclean, hresult⟩)
    · intro h
      refine ⟨fun r hr => ⟨(h r hr).1, (h r hr).2.1⟩, fun r hr hboth => ?_⟩
      have hresult : r.Clean ∧ r.result = .failed := by simpa using hboth
      exact (h r hr).2.2 hresult.2
  rw [hseen.ending, ← hclean, ← hsetup, ← hcount]
  cases report.returns with
  | false => simp [GroupEnd.exitStatus]
  | true =>
      simp only [GroupEnd.exitStatus, Runner.exitStatus, BitVec.toNat_ofNat, if_true, true_and]
      omega

/-- A world in which nothing is allocated and no value is left over. -/
def stillRuntime : Runtime Unit Unit where
  checkPointAllocatedBlocks _ := some ()
  initializeTesting _ := some ()
  failIfBlocksAllocated _ _ := some (true, ())
  hasLeftoverValues _ := some (false, ())
  teardownTesting _ := some ()

/-- A function that leaves in a given way. -/
def leaves (exit : Exit) : Body Unit Unit := fun state w => some (exit, state, w)

/-- A test whose teardown calls `_skip`, and one that fails. -/
def hidingTests : List (CMUnitTest Unit Unit) :=
  [⟨some ['a'], some (leaves (.returned 0)), none, some (leaves .skipped), none⟩,
    ⟨some ['b'], some (leaves .failed), none, none, none⟩]

/-- The failure counts as skipped, and the component fails all the same. -/
theorem runGroupTests_verdict_hiding :
    (runGroupTests stillRuntime ⟨none, none⟩ hidingTests none none ⟨(), false⟩).map
        (fun run => (run.1, run.2.1)) = some (.returned 1, ⟨2, 0, 0, 1, 1⟩) ∧
      Option.Rel (fun run report => run.1.exitStatus = 0 ↔
          report.returns = true ∧ report.setupRc = 0 ∧
            ∀ r ∈ report.tests, r.setupRc = 0 ∧ r.teardownRc = 0 ∧ r.result ≠ .failed)
        (runGroupTests stillRuntime ⟨none, none⟩ hidingTests none none ⟨(), false⟩)
        (reportGroupTests stillRuntime ⟨none, none⟩ hidingTests none none ()) :=
  ⟨by decide, runGroupTests_verdict ⟨none, none⟩ hidingTests none none () (by decide)⟩

end TraceRecorderTests.Cmocka
