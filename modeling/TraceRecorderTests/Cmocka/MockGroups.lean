import TraceRecorderTests.Cmocka.GroupMemory

/-!
# Groups of tests that only use mocks

A test whose function only calls its mocks has a result that its calls determine
(`TestRun.result`). In a group without fixtures the runner, in memory, counts
exactly these results: what a test expects and does not use up, and the blocks it
loses, do not reach the next one (`runGroupTests_mocks`).
-/

namespace TraceRecorderTests.Cmocka

open Base

section Mocks

variable {A P : Type}

/-! ## The tests as programs -/

/-- How a function leaves that ends in this way. -/
def Ending.exit : Ending → Exit
  | .returns => .returned 0
  | .stops => .stopped
  | .fails => .failed

/-- The calls, one after the other. -/
def mockProgram (ending : Ending) : List Call → Program P
  | [] => .leave ending.exit
  | c :: rest => .call c fun _ => mockProgram ending rest

/-- A test without fixtures. -/
def mockTest (name : List Char) (test : TestRun A) : TestProgram P where
  name := some name
  testFunc := some fun _ => mockProgram test.ending (test.calls.map Prod.fst)
  setupFunc := none
  teardownFunc := none
  initialState := none

/-- The tests whose names the filters let through. -/
def Filters.select (filters : Filters) (tests : List (List Char × TestRun A)) :
    List (List Char × TestRun A) :=
  tests.filter fun t => (filters.test.all fun pattern => cStrmatch t.1 pattern) &&
    !(filters.skip.any fun pattern => cStrmatch t.1 pattern)

/-! ## One test -/

/-- The program does what the calls do on the queues. -/
theorem run_mockProgram (ending : Ending) (state : Option P) :
    ∀ (calls : List Call) (o : Objects), calls.length ≤ o.calls →
      (mockProgram ending calls).run objectsMachine state o =
        some (if .failed ∈ (applyCalls calls o.expectations).1 then .failed else ending.exit,
          state, { o with
            expectations := (applyCalls calls o.expectations).2
            calls := o.calls - (applyCalls calls o.expectations).1.length }) := by
  intro calls
  induction calls with
  | nil =>
      intro o _
      rfl
  | cons c rest ih =>
      intro o hcalls
      rw [List.length_cons] at hcalls
      have hstep : objectsMachine.call c o = some ((c.apply o.expectations).1,
          { o with expectations := (c.apply o.expectations).2, calls := o.calls - 1 }) :=
        if_neg (by omega)
      simp only [mockProgram, Program.run, hstep, Option.bind_eq_bind, Option.bind_some]
      by_cases hfailed : (c.apply o.expectations).1 = .failed
      · have happly : applyCalls (c :: rest) o.expectations =
            ([(c.apply o.expectations).1], (c.apply o.expectations).2) := if_pos hfailed
        rw [if_pos hfailed]
        simp [happly, hfailed]
      · have happly : applyCalls (c :: rest) o.expectations =
            ((c.apply o.expectations).1 :: (applyCalls rest (c.apply o.expectations).2).1,
              (applyCalls rest (c.apply o.expectations).2).2) := if_neg hfailed
        have hrest : rest.length ≤ o.calls - 1 := by omega
        rw [if_neg hfailed, ih _ hrest]
        simp [happly, Ne.symm hfailed, Nat.sub_sub, Nat.add_comm 1]

/-- Nothing was allocated since the last area. -/
theorem splitAreas_last : ∀ {areas : List Area}, (areas.map Area.info).Nodup →
    splitAreas (areas.map Area.info).getLast? areas = some (areas, [])
  | [], _ => rfl
  | [a], _ => by
      show splitAreas (some a.info) [a] = _
      exact if_pos rfl
  | a :: b :: rest, hnodup => by
      have hrest := (List.nodup_cons.mp hnodup).2
      have hlast := splitAreas_last hrest
      rw [List.map_cons, List.map_cons, List.getLast?_cons_cons, ← List.map_cons]
      cases hinfo : (List.map Area.info (b :: rest)).getLast? with
      | none => simp at hinfo
      | some info =>
          -- the first area is not the last, so the search goes on
          have hmem : info ∈ List.map Area.info (b :: rest) := List.mem_of_getLast? hinfo
          have hne : a.info ≠ info := fun heq => (List.nodup_cons.mp hnodup).1 (heq ▸ hmem)
          rw [hinfo] at hlast
          rw [splitAreas, if_neg hne, hlast]
          rfl

/-- The areas an arena stores have different infos. -/
theorem Arena.Stores.nodup_info {s : Arena} {areas : List Area} (h : s.Stores areas) :
    (areas.map Area.info).Nodup := by
  rw [List.Nodup, List.pairwise_map]
  refine h.apart.imp_of_mem fun ha hb hapart hinfo => ?_
  have hfits := h.fits _ ha
  exact hapart.ptr_ne hfits (h.fits _ hb) ((hfits.info_inj (h.fits _ hb)).mp hinfo)

/-- Nothing is reported when the areas are those of the check point. -/
theorem failIfBlocksAllocated_of_areas_eq {o o' : Objects} {checkPoint : Option Nat}
    (hareas : o'.areas = o.areas) (hsplit : splitAreas checkPoint o.areas = some (o.areas, [])) :
    objectsRuntime.failIfBlocksAllocated checkPoint o' = some (true, o') := by
  show (splitAreas checkPoint o'.areas).map _ = _
  rw [hareas, hsplit]
  simp [← hareas]

open Classical in
/-- A test function that leaves the areas alone, under the runner: it passes when it
returns or is stopped and leaves no value over. -/
theorem runInside_of_areas_eq {f : Body P Objects} {state state' : Option P} {o o' : Objects}
    {exit : Exit} {checkPoint : Option Nat}
    (hf : f state { o with expectations := .none } = some (exit, state', o'))
    (hareas : o'.areas = o.areas) (hsplit : splitAreas checkPoint o.areas = some (o.areas, [])) :
    runInside objectsRuntime (some f) none none checkPoint state ⟨o, false⟩ =
      some (if exit = .failed ∨ exit = .skipped ∨ o'.expectations.Leftover then -1 else 0, state',
        ⟨{ o' with expectations := .none }, decide (exit = .skipped)⟩) := by
  have hblocks := failIfBlocksAllocated_of_areas_eq hareas hsplit
  have hinit : objectsRuntime.initializeTesting o = some { o with expectations := .none } := rfl
  have hleftover : objectsRuntime.hasLeftoverValues o' =
      some (decide o'.expectations.Leftover, { o' with expectations := o'.expectations.swept }) :=
    rfl
  have hteardown : ∀ o : Objects, objectsRuntime.teardownTesting o =
      some { o with expectations := .none } := fun _ => rfl
  cases exit with
  | returned rc =>
      simp [runInside, runFunction, runChecked, callBody, checkBlocks, exitCode, Exit.ofTest, hinit,
        hf, hblocks, hleftover, hteardown]
  | failed =>
      simp [runInside, runFunction, runChecked, callBody, checkBlocks, exitCode, Exit.ofTest, hinit,
        hf, hteardown]
  | skipped =>
      simp [runInside, runFunction, runChecked, callBody, checkBlocks, exitCode, Exit.ofTest, hinit,
        hf, hteardown]
  | stopped =>
      simp [runInside, runFunction, runChecked, callBody, checkBlocks, exitCode, Exit.ofTest, hinit,
        hf, hleftover, hteardown]

/-- The program of a test under the runner has the result of the test. -/
theorem runInside_mock (test : TestRun A) (state : Option P) {o : Objects}
    (hnodup : (o.areas.map Area.info).Nodup) (hcalls : test.calls.length ≤ o.calls) :
    runInside objectsRuntime
        (some (objectsMachine.body fun _ => mockProgram test.ending (test.calls.map Prod.fst)))
        none none (o.areas.map Area.info).getLast? state ⟨o, false⟩ =
      some (test.result.2, state,
        ⟨{ o with expectations := .none, calls := o.calls - test.result.1.length }, false⟩) := by
  have hrun := run_mockProgram test.ending state (test.calls.map Prod.fst)
    { o with expectations := .none } (by simpa using hcalls)
  rcases happly : applyCalls (test.calls.map Prod.fst) Expectations.none with ⟨replies, E⟩
  simp only [happly] at hrun
  have hbody : objectsMachine.body
      (fun _ => mockProgram test.ending (test.calls.map Prod.fst)) state
      { o with expectations := .none } = _ := hrun
  rw [runInside_of_areas_eq hbody rfl (splitAreas_last hnodup)]
  by_cases hfailed : .failed ∈ replies
  · have hresult : test.result = (replies, -1) :=
      test.result_eq happly (fun _ => rfl) fun hnot => absurd (Or.inl hfailed) hnot
    simp [hresult, hfailed]
  · by_cases hleft : test.ending = .fails ∨ E.Leftover
    · have hresult : test.result = (replies, -1) :=
        test.result_eq happly (fun _ => rfl) fun hnot => absurd (Or.inr hleft) hnot
      rcases hleft with hends | hleft
      · simp [hresult, hfailed, hends, Ending.exit]
      · cases test.ending <;> simp [hresult, hfailed, hleft, Ending.exit]
    · have hresult : test.result = (replies, 0) :=
        test.result_eq happly (fun hany => absurd hany (not_or.mpr ⟨hfailed, hleft⟩)) fun _ => rfl
      rw [not_or] at hleft
      cases hends : test.ending with
      | returns => simp [hresult, hfailed, hleft.2, Ending.exit]
      | stops => simp [hresult, hfailed, hleft.2, Ending.exit]
      | fails => exact absurd hends hleft.1

/-! ## A group -/

/-- A test gets no more replies than it makes calls. -/
theorem applyCalls_length_le : ∀ (calls : List Call) (E : Expectations),
    (applyCalls calls E).1.length ≤ calls.length
  | [], _ => le_refl 0
  | c :: rest, E => by
      unfold applyCalls
      split
      · exact Nat.succ_le_succ (Nat.zero_le _)
      · exact Nat.succ_le_succ (applyCalls_length_le rest (c.apply E).2)

theorem TestRun.result_length_le (test : TestRun A) :
    test.result.1.length ≤ test.calls.length := by
  have hle := applyCalls_length_le (test.calls.map Prod.fst) .none
  rwa [List.length_map] at hle

/-- The test as the runner sees it. -/
theorem runOneTests_mock (name : List Char) (test : TestRun A) (state : Option P) {o : Objects}
    (hnodup : (o.areas.map Area.info).Nodup) (hcalls : test.calls.length ≤ o.calls) :
    runOneTests objectsRuntime ((mockTest name test).over objectsMachine.body) state ⟨o, false⟩ =
      some (0, if test.result.2 = 0 then .passed else .failed,
        ⟨{ o with expectations := .none, calls := o.calls - test.result.1.length }, false⟩) := by
  have hfunc : runOneTestOrFixture objectsRuntime
      ((mockTest name test).over objectsMachine.body).testFunc none none state none ⟨o, false⟩ =
      some (test.result.2, state,
        ⟨{ o with expectations := .none, calls := o.calls - test.result.1.length }, false⟩) :=
    runInside_mock test state hnodup hcalls
  have htest : runTestFunc objectsRuntime ((mockTest name test).over objectsMachine.body) state
      ⟨o, false⟩ = some (if test.result.2 = 0 then .passed else .failed, state,
        ⟨{ o with expectations := .none, calls := o.calls - test.result.1.length }, false⟩) := by
    unfold runTestFunc
    rw [hfunc]
    by_cases hpass : test.result.2 = 0
    · simp [hpass]
    · simp [hpass]
  show (runTestFunc objectsRuntime _ state _).bind _ = _
  rw [htest]
  rfl

/-- The counters after the tests. -/
noncomputable def mockTotals (tests : List (List Char × TestRun A)) (t : Totals) : Totals where
  executed := t.executed + tests.length
  passed := t.passed + tests.countP fun test => test.2.result.2 = 0
  failed := t.failed + tests.countP fun test => test.2.result.2 ≠ 0
  errors := t.errors
  skipped := t.skipped

theorem mockTotals_cons (test : List Char × TestRun A) (rest : List (List Char × TestRun A))
    (t : Totals) :
    mockTotals (test :: rest) t = mockTotals rest
      (t.count 0 (if test.2.result.2 = 0 then .passed else .failed)) := by
  by_cases hpass : test.2.result.2 = 0
  · simp [mockTotals, Totals.count, hpass]
    omega
  · simp [mockTotals, Totals.count, hpass]
    omega

/-- The tests, one after the other. -/
theorem executeTests_mocks (groupState : Option P) :
    ∀ (tests : List (List Char × TestRun A)) (t : Totals) (o : Objects),
      (o.areas.map Area.info).Nodup → (tests.map fun test => test.2.calls.length).sum ≤ o.calls →
      ∃ o', executeTests objectsRuntime groupState
          (tests.map fun test => (mockTest test.1 test.2).over objectsMachine.body) t ⟨o, false⟩ =
            some (mockTotals tests t, ⟨o', false⟩) ∧ o'.areas = o.areas := by
  intro tests
  induction tests with
  | nil =>
      intro t o _ _
      exact ⟨o, rfl, rfl⟩
  | cons test rest ih =>
      intro t o hnodup hcalls
      rw [List.map_cons, List.sum_cons] at hcalls
      -- a test uses no more of the calls than its own
      have hlength := test.2.result_length_le
      have hone := runOneTests_mock test.1 test.2 groupState hnodup (by omega)
      have hbudget : (rest.map fun test => test.2.calls.length).sum ≤
          o.calls - test.2.result.1.length := by omega
      obtain ⟨o', hrest, hareas⟩ :=
        ih (t.count 0 (if test.2.result.2 = 0 then .passed else .failed))
          { o with expectations := .none, calls := o.calls - test.2.result.1.length } hnodup hbudget
      refine ⟨o', ?_, hareas⟩
      have hstate : groupState.or ((mockTest test.1 test.2).over
          (W := Objects) objectsMachine.body).initialState = groupState := Option.or_none
      rw [mockTotals_cons, List.map_cons, executeTests, hstate, hone]
      exact hrest

/-- The runner runs the tests whose names the filters let through. -/
theorem Filters.filter_mockTest (filters : Filters) (tests : List (List Char × TestRun A)) :
    (tests.map fun test => (mockTest (P := P) test.1 test.2).over objectsMachine.body).filter
        filters.selects =
      (filters.select tests).map fun test => (mockTest test.1 test.2).over objectsMachine.body := by
  rw [List.filter_map]
  rfl

/-- The group on queues and areas. -/
theorem runGroupTests_objects_mocks (filters : Filters) (tests : List (List Char × TestRun A))
    {o : Objects} (hnodup : (o.areas.map Area.info).Nodup)
    (hcalls : ((filters.select tests).map fun test => test.2.calls.length).sum ≤ o.calls) :
    ∃ o', runGroupTests objectsRuntime filters
        (tests.map fun test => (mockTest (P := P) test.1 test.2).over objectsMachine.body) none none
        ⟨o, false⟩ =
      some (.returned (BitVec.ofNat 32 ((filters.select tests).countP fun test =>
          test.2.result.2 ≠ 0)), mockTotals (filters.select tests) ⟨0, 0, 0, 0, 0⟩, ⟨o', false⟩) ∧
      o'.areas = o.areas := by
  obtain ⟨o', htests, hareas⟩ := executeTests_mocks (P := P) none (filters.select tests)
    ⟨0, 0, 0, 0, 0⟩ o hnodup hcalls
  have hblocks := failIfBlocksAllocated_of_areas_eq hareas (splitAreas_last hnodup)
  have hfinish : finishGroup objectsRuntime (P := P) none none (o.areas.map Area.info).getLast?
      ⟨o', false⟩ = some (true, ⟨o', false⟩) := by
    show (objectsRuntime.failIfBlocksAllocated _ o').bind _ = _
    rw [hblocks]
    rfl
  refine ⟨o', ?_, hareas⟩
  show (runTestsAfterSetup objectsRuntime 0 none _ ⟨o, false⟩).bind _ = _
  rw [Filters.filter_mockTest, runTestsAfterSetup, if_pos rfl, htests]
  show (finishGroup objectsRuntime none none _ ⟨o', false⟩).bind _ = _
  rw [hfinish]
  simp [mockTotals]

/-- With the skip flag clear before it, a group of such tests in memory returns the number
of tests whose result is a failure, counts each test by its result, and leaves the heap
as idle as it was and the areas as they were. -/
theorem runGroupTests_mocks [DecidableEq A] {fuel : Nat} {heads : Heads A}
    {mallocs : Heap A MockValue → List A} (hmallocs : MallocSupplies mallocs) (filters : Filters)
    (tests : List (List Char × TestRun A)) {w : World A} {areas : List Area} {lost : List A}
    (hidle : Idle heads w.heap lost) (hstores : w.arena.Stores areas)
    (hsteps : 6 * ((filters.select tests).map fun test => test.2.calls.length).sum < fuel)
    (hareas : areas.length + ((filters.select tests).map fun test => test.2.calls.length).sum <
      fuel) :
    ∃ w' lost', runGroupTests (memoryRuntime fuel heads) filters
        (tests.map fun test =>
          (mockTest (P := P) test.1 test.2).over (memoryMachine fuel heads mallocs).body)
        none none ⟨w, false⟩ =
      some (.returned (BitVec.ofNat 32 ((filters.select tests).countP fun test =>
          test.2.result.2 ≠ 0)),
        { executed := (filters.select tests).length
          passed := (filters.select tests).countP fun test => test.2.result.2 = 0
          failed := (filters.select tests).countP fun test => test.2.result.2 ≠ 0
          errors := 0
          skipped := 0 },
        ⟨w', false⟩) ∧
      Idle heads w'.heap lost' ∧ w'.arena.Stores areas := by
  obtain ⟨o', hobjects, ho'⟩ := runGroupTests_objects_mocks (P := P) filters tests
    (o := ⟨.none, areas, ((filters.select tests).map fun test => test.2.calls.length).sum⟩)
    hstores.nodup_info (le_refl _)
  have hstart : Globals.Related (Resting fuel heads) ⟨w, false⟩
      ⟨⟨.none, areas, ((filters.select tests).map fun test => test.2.calls.length).sum⟩, false⟩ :=
    ⟨⟨⟨lost, hidle⟩, hstores, hsteps, hareas⟩, rfl⟩
  have hover := runGroupTests_over (P := P) hmallocs filters
    (tests.map fun test => mockTest test.1 test.2) none none hstart
  rw [List.map_map, List.map_map] at hover
  obtain ⟨⟨ending, t, w', skip⟩, hrun, hending, htotals, hworld, hskip⟩ := hover _ hobjects
  dsimp only at hending htotals hworld hskip
  obtain ⟨lost', hidle'⟩ := hworld.idle
  have hstores' := hworld.stores
  rw [ho'] at hstores'
  refine ⟨w', lost', ?_, hidle', hstores'⟩
  rw [hending, htotals, hskip] at hrun
  refine hrun.trans ?_
  simp [mockTotals]

end Mocks

/-! ## Three tests -/

/-- A test that expects a call and makes it. -/
def passingTest : TestRun Nat :=
  ⟨[(.expectFunctionCall "f" 1, []), (.functionCalled "f", [])], .returns⟩

theorem passingTest_result : passingTest.result = ([.done, .done], 0) := by
  refine passingTest.result_eq (E := Expectations.none) rfl (fun hany => ?_) fun _ => rfl
  simp [passingTest, Expectations.Leftover, Expectations.none, dropAlways] at hany

def threeTests : List (List Char × TestRun Nat) :=
  [(['a'], passingTest), (['b'], expectingTest), (['c', 'd'], callingTest)]

/-- One test passes, one fails, and the third is filtered out. -/
theorem runGroupTests_mocks_three : ∃ w' lost', runGroupTests (memoryRuntime 19 startHeads)
      ⟨none, some ['c', '*']⟩
      (threeTests.map fun test =>
        (mockTest (P := Unit) test.1 test.2).over (memoryMachine 19 startHeads blocksAbove).body)
      none none ⟨⟨startHeap, startArena⟩, false⟩ =
        some (.returned 1, ⟨2, 1, 1, 0, 0⟩, ⟨w', false⟩) ∧
      Idle startHeads w'.heap lost' ∧ w'.arena.Stores [] := by
  have hselect : Filters.select ⟨none, some ['c', '*']⟩ threeTests =
      [(['a'], passingTest), (['b'], expectingTest)] := rfl
  have hcalls : ((Filters.select ⟨none, some ['c', '*']⟩ threeTests).map
      fun test => test.2.calls.length).sum = 3 := by
    rw [hselect]
    rfl
  have hrun := @runGroupTests_mocks Nat Unit _ 19 startHeads blocksAbove blocksAbove_supplies
    ⟨none, some ['c', '*']⟩ threeTests ⟨startHeap, startArena⟩ [] [] idle_startHeap
    startArena_stores (by rw [hcalls]; decide) (by rw [hcalls]; decide)
  rw [hselect] at hrun
  simpa [passingTest_result, expectingTest_result] using hrun

end TraceRecorderTests.Cmocka
