import Mathlib.Data.List.Forall2
import TraceRecorderTests.Cmocka.GroupTests

/-!
# The runner over two worlds

The runner gives the same counters over two worlds whose operations do the same
(`Runtime.Refines`), for tests whose functions do the same in both
(`runGroupTests_refines`). Between functions the worlds are related by one
relation, inside them by another, which has what a function has set up in it. Each
function of the runner has a lemma that follows its text.
-/

namespace TraceRecorderTests.Cmocka

open Base

section Refine

variable {P W W' C : Type}

/-- The operations of `rt` do what those of `rt'` do: on worlds related by `Rest`
between functions, and by `Running` inside them. -/
structure Runtime.Refines (rt : Runtime W C) (rt' : Runtime W' C) (Rest Running : W → W' → Prop) :
    Prop where
  checkPoint : ∀ w w', Rest w w' →
    Base.Refines Eq (rt.checkPointAllocatedBlocks w) (rt'.checkPointAllocatedBlocks w')
  initializes : ∀ w w', Rest w w' →
    Base.Refines Running (rt.initializeTesting w) (rt'.initializeTesting w')
  blocks : ∀ checkPoint w w', Running w w' →
    Base.Refines (fun r r' => r.1 = r'.1 ∧ Running r.2 r'.2)
      (rt.failIfBlocksAllocated checkPoint w) (rt'.failIfBlocksAllocated checkPoint w')
  leftover : ∀ w w', Running w w' →
    Base.Refines (fun r r' => r.1 = r'.1 ∧ Running r.2 r'.2)
      (rt.hasLeftoverValues w) (rt'.hasLeftoverValues w')
  teardown : ∀ w w', Running w w' →
    Base.Refines Rest (rt.teardownTesting w) (rt'.teardownTesting w')
  blocksAtRest : ∀ checkPoint w w', Rest w w' →
    Base.Refines (fun r r' => r.1 = r'.1 ∧ Rest r.2 r'.2)
      (rt.failIfBlocksAllocated checkPoint w) (rt'.failIfBlocksAllocated checkPoint w')

/-- Related globals: the flag is the same. -/
def Globals.Related (R : W → W' → Prop) (g : Globals W) (g' : Globals W') : Prop :=
  R g.world g'.world ∧ g.skipTest = g'.skipTest

/-- A function leaves the same way in both worlds. -/
def Body.Refines (Running : W → W' → Prop) (f : Body P W) (f' : Body P W') : Prop :=
  ∀ state w w', Running w w' →
    Base.Refines (fun r r' => r.1 = r'.1 ∧ r.2.1 = r'.2.1 ∧ Running r.2.2 r'.2.2)
      (f state w) (f' state w')

/-- Two tests, or none, with functions that refine each other. -/
structure CMUnitTest.Refines (Running : W → W' → Prop) (test : CMUnitTest P W)
    (test' : CMUnitTest P W') : Prop where
  name : test.name = test'.name
  testFunc : Option.Rel (Body.Refines Running) test.testFunc test'.testFunc
  setupFunc : Option.Rel (Body.Refines Running) test.setupFunc test'.setupFunc
  teardownFunc : Option.Rel (Body.Refines Running) test.teardownFunc test'.teardownFunc
  initialState : test.initialState = test'.initialState

/-- What a function returns in both worlds: the same, and related globals. -/
def SameResult {α : Type} (R : W → W' → Prop) (r : α × Option P × Globals W)
    (r' : α × Option P × Globals W') : Prop :=
  r.1 = r'.1 ∧ r.2.1 = r'.2.1 ∧ r.2.2.Related R r'.2.2

variable {rt : Runtime W C} {rt' : Runtime W' C} {Rest Running : W → W' → Prop}
  {g : Globals W} {g' : Globals W'}

theorem callBody_refines {f : Body P W} {f' : Body P W'} (hf : f.Refines Running f')
    (state : Option P) (h : g.Related Running g') :
    Base.Refines (SameResult Running) (callBody f state g) (callBody f' state g') := by
  refine (hf state g.world g'.world h.1).bind ?_
  rintro ⟨exit, state, w⟩ ⟨_, _, w'⟩ ⟨rfl, rfl, hw⟩
  refine .pure ⟨rfl, rfl, hw, ?_⟩
  rw [h.2]

theorem checkBlocks_refines (hrt : rt.Refines rt' Rest Running) (checkPoint : C) (exit : Exit)
    (h : g.Related Running g') :
    Base.Refines (fun r r' => r.1 = r'.1 ∧ r.2.Related Running r'.2)
      (checkBlocks rt checkPoint exit g) (checkBlocks rt' checkPoint exit g') := by
  cases exit with
  | returned rc =>
      refine (hrt.blocks checkPoint g.world g'.world h.1).bind ?_
      rintro ⟨returns, w⟩ ⟨_, w'⟩ ⟨rfl, hw⟩
      exact .pure ⟨rfl, hw, h.2⟩
  | failed => exact .pure ⟨rfl, h⟩
  | skipped => exact .pure ⟨rfl, h⟩
  | stopped => exact .pure ⟨rfl, h⟩

theorem runChecked_refines (hrt : rt.Refines rt' Rest Running) {f : Body P W} {f' : Body P W'}
    (hf : f.Refines Running f') (checkPoint : C) (state : Option P) (h : g.Related Running g') :
    Base.Refines (SameResult Running)
      (runChecked rt f checkPoint state g) (runChecked rt' f' checkPoint state g') := by
  refine (callBody_refines hf state h).bind ?_
  rintro ⟨exit, state, g⟩ ⟨_, _, g'⟩ ⟨rfl, rfl, h⟩
  refine (checkBlocks_refines hrt checkPoint exit h).bind ?_
  rintro ⟨exit, g⟩ ⟨_, g'⟩ ⟨rfl, h⟩
  exact .pure ⟨rfl, rfl, h⟩

theorem runFunction_refines (hrt : rt.Refines rt' Rest Running)
    {testFunc setupFunc teardownFunc : Option (Body P W)}
    {testFunc' setupFunc' teardownFunc' : Option (Body P W')}
    (htest : Option.Rel (Body.Refines Running) testFunc testFunc')
    (hsetup : Option.Rel (Body.Refines Running) setupFunc setupFunc')
    (hteardown : Option.Rel (Body.Refines Running) teardownFunc teardownFunc')
    (checkPoint : C) (state : Option P) (h : g.Related Running g') :
    Base.Refines (SameResult Running)
      (runFunction rt testFunc setupFunc teardownFunc checkPoint state g)
      (runFunction rt' testFunc' setupFunc' teardownFunc' checkPoint state g') := by
  cases htest with
  | some hf =>
      refine (runChecked_refines hrt hf checkPoint state h).bind ?_
      rintro ⟨exit, state, g⟩ ⟨_, _, g'⟩ ⟨rfl, rfl, h⟩
      exact .pure ⟨rfl, rfl, h⟩
  | none =>
      cases hsetup with
      | some hf => exact callBody_refines hf state h
      | none =>
          cases hteardown with
          | some hf => exact runChecked_refines hrt hf checkPoint state h
          | none => exact .pure ⟨rfl, rfl, h⟩

theorem exitCode_refines (hrt : rt.Refines rt' Rest Running) (exit : Exit) {w : W} {w' : W'}
    (h : Running w w') :
    Base.Refines (fun r r' => r.1 = r'.1 ∧ Running r.2 r'.2) (exitCode rt exit w)
      (exitCode rt' exit w') := by
  cases exit with
  | returned rc =>
      refine (hrt.leftover w w' h).bind ?_
      rintro ⟨leftover, w⟩ ⟨_, w'⟩ ⟨rfl, hw⟩
      exact .pure ⟨rfl, hw⟩
  | stopped =>
      refine (hrt.leftover w w' h).bind ?_
      rintro ⟨leftover, w⟩ ⟨_, w'⟩ ⟨rfl, hw⟩
      exact .pure ⟨rfl, hw⟩
  | failed => exact .pure ⟨rfl, h⟩
  | skipped => exact .pure ⟨rfl, h⟩

theorem runInside_refines (hrt : rt.Refines rt' Rest Running)
    {testFunc setupFunc teardownFunc : Option (Body P W)}
    {testFunc' setupFunc' teardownFunc' : Option (Body P W')}
    (htest : Option.Rel (Body.Refines Running) testFunc testFunc')
    (hsetup : Option.Rel (Body.Refines Running) setupFunc setupFunc')
    (hteardown : Option.Rel (Body.Refines Running) teardownFunc teardownFunc')
    (checkPoint : C) (state : Option P) (h : g.Related Rest g') :
    Base.Refines (SameResult Rest)
      (runInside rt testFunc setupFunc teardownFunc checkPoint state g)
      (runInside rt' testFunc' setupFunc' teardownFunc' checkPoint state g') := by
  refine (hrt.initializes g.world g'.world h.1).bind ?_
  intro w w' hw
  refine (runFunction_refines hrt htest hsetup hteardown checkPoint state
    (show Globals.Related Running ⟨w, g.skipTest⟩ ⟨w', g'.skipTest⟩ from ⟨hw, h.2⟩)).bind ?_
  rintro ⟨exit, state, g⟩ ⟨_, _, g'⟩ ⟨rfl, rfl, h⟩
  refine (exitCode_refines hrt exit h.1).bind ?_
  rintro ⟨rc, w⟩ ⟨_, w'⟩ ⟨rfl, hw⟩
  refine (hrt.teardown w w' hw).bind ?_
  intro w w' hw
  exact .pure ⟨rfl, rfl, hw, h.2⟩

theorem runOneTestOrFixture_refines (hrt : rt.Refines rt' Rest Running)
    {testFunc setupFunc teardownFunc : Option (Body P W)}
    {testFunc' setupFunc' teardownFunc' : Option (Body P W')}
    (htest : Option.Rel (Body.Refines Running) testFunc testFunc')
    (hsetup : Option.Rel (Body.Refines Running) setupFunc setupFunc')
    (hteardown : Option.Rel (Body.Refines Running) teardownFunc teardownFunc')
    (state : Option P) (heapCheckPoint : Option C) (h : g.Related Rest g') :
    Base.Refines (SameResult Rest)
      (runOneTestOrFixture rt testFunc setupFunc teardownFunc state heapCheckPoint g)
      (runOneTestOrFixture rt' testFunc' setupFunc' teardownFunc' state heapCheckPoint g') := by
  cases heapCheckPoint with
  | some checkPoint => exact runInside_refines hrt htest hsetup hteardown checkPoint state h
  | none =>
      refine (hrt.checkPoint g.world g'.world h.1).bind ?_
      rintro checkPoint _ rfl
      exact runInside_refines hrt htest hsetup hteardown checkPoint state h

/-! ## One test -/

section OneTest

variable {test : CMUnitTest P W} {test' : CMUnitTest P W'}

theorem runSetup_refines (hrt : rt.Refines rt' Rest Running) (ht : test.Refines Running test')
    (state : Option P) (h : g.Related Rest g') :
    Base.Refines (fun r r' => r.1 = r'.1 ∧ r.2.1 = r'.2.1 ∧ r.2.2.1 = r'.2.2.1 ∧
        r.2.2.2.Related Rest r'.2.2.2)
      (runSetup rt test state g) (runSetup rt' test' state g') := by
  have hsetup := ht.setupFunc
  unfold runSetup
  generalize test.setupFunc = setup at hsetup ⊢
  generalize test'.setupFunc = setup' at hsetup ⊢
  cases hsetup with
  | none => exact .pure ⟨rfl, rfl, rfl, h⟩
  | some hf =>
      refine (hrt.checkPoint g.world g'.world h.1).bind ?_
      rintro checkPoint _ rfl
      refine (runOneTestOrFixture_refines hrt .none (.some hf) .none state _ h).bind ?_
      rintro ⟨rc, state, g⟩ ⟨_, _, g'⟩ ⟨rfl, rfl, h⟩
      exact .pure ⟨rfl, rfl, rfl, h⟩

theorem runTestFunc_refines (hrt : rt.Refines rt' Rest Running) (ht : test.Refines Running test')
    (state : Option P) (h : g.Related Rest g') :
    Base.Refines (SameResult Rest) (runTestFunc rt test state g)
      (runTestFunc rt' test' state g') := by
  refine (runOneTestOrFixture_refines hrt ht.testFunc .none .none state none h).bind ?_
  rintro ⟨rc, state, g⟩ ⟨_, _, g'⟩ ⟨rfl, rfl, h⟩
  dsimp only
  refine .ite Iff.rfl (fun _ => .pure ⟨rfl, rfl, h⟩) fun _ => ?_
  refine .ite (by rw [h.2]) (fun _ => .pure ⟨rfl, rfl, h.1, rfl⟩) fun _ => .pure ⟨rfl, rfl, h⟩

theorem runTeardown_refines (hrt : rt.Refines rt' Rest Running) (ht : test.Refines Running test')
    (checkPoint : Option C) (state : Option P) (h : g.Related Rest g') :
    Base.Refines (fun r r' => r.1 = r'.1 ∧ r.2.Related Rest r'.2)
      (runTeardown rt test checkPoint state g) (runTeardown rt' test' checkPoint state g') := by
  have hteardown := ht.teardownFunc
  unfold runTeardown
  generalize test.teardownFunc = teardown at hteardown ⊢
  generalize test'.teardownFunc = teardown' at hteardown ⊢
  cases hteardown with
  | none => exact .pure ⟨rfl, h⟩
  | some hf =>
      refine (runOneTestOrFixture_refines hrt .none .none (.some hf) state _ h).bind ?_
      rintro ⟨rc, state, g⟩ ⟨_, _, g'⟩ ⟨rfl, rfl, h⟩
      exact .pure ⟨rfl, h⟩

theorem runOneTests_refines (hrt : rt.Refines rt' Rest Running) (ht : test.Refines Running test')
    (state : Option P) (h : g.Related Rest g') :
    Base.Refines (fun r r' => r.1 = r'.1 ∧ r.2.1 = r'.2.1 ∧ r.2.2.Related Rest r'.2.2)
      (runOneTests rt test state g) (runOneTests rt' test' state g') := by
  refine (runSetup_refines hrt ht state h).bind ?_
  rintro ⟨rc, checkPoint, state, g⟩ ⟨_, _, _, g'⟩ ⟨rfl, rfl, rfl, h⟩
  refine .ite Iff.rfl (fun _ => .pure ⟨rfl, rfl, h⟩) fun _ => ?_
  refine (runTestFunc_refines hrt ht state h).bind ?_
  rintro ⟨status, state, g⟩ ⟨_, _, g'⟩ ⟨rfl, rfl, h⟩
  refine (runTeardown_refines hrt ht checkPoint state h).bind ?_
  rintro ⟨rc, g⟩ ⟨_, g'⟩ ⟨rfl, h⟩
  exact .pure ⟨rfl, rfl, h⟩

theorem CMUnitTest.Refines.selects (ht : test.Refines Running test') (filters : Filters) :
    filters.selects test = filters.selects test' := by
  have hisSome : ∀ {f : Option (Body P W)} {f' : Option (Body P W')},
      Option.Rel (Body.Refines Running) f f' → f.isSome = f'.isSome := by
    intro f f' hf
    cases hf with
    | none => rfl
    | some _ => rfl
  unfold Filters.selects
  rw [ht.name, hisSome ht.testFunc, hisSome ht.setupFunc, hisSome ht.teardownFunc]

end OneTest

/-! ## A group -/

section Group

variable {tests : List (CMUnitTest P W)} {tests' : List (CMUnitTest P W')}
  {groupSetup groupTeardown : Option (Body P W)}
  {groupSetup' groupTeardown' : Option (Body P W')}

theorem filter_refines (ht : List.Forall₂ (CMUnitTest.Refines Running) tests tests')
    (filters : Filters) :
    List.Forall₂ (CMUnitTest.Refines Running) (tests.filter filters.selects)
      (tests'.filter filters.selects) := by
  induction ht with
  | nil => exact .nil
  | @cons test test' rest rest' hone _ ih =>
      by_cases hselects : filters.selects test' = true
      · rw [List.filter_cons_of_pos ((hone.selects filters).trans hselects),
          List.filter_cons_of_pos hselects]
        exact .cons hone ih
      · rw [List.filter_cons_of_neg (by rwa [hone.selects filters]),
          List.filter_cons_of_neg hselects]
        exact ih

theorem executeTests_refines (hrt : rt.Refines rt' Rest Running) (groupState : Option P)
    (ht : List.Forall₂ (CMUnitTest.Refines Running) tests tests') :
    ∀ (t : Totals) {g : Globals W} {g' : Globals W'}, g.Related Rest g' →
      Base.Refines (fun r r' => r.1 = r'.1 ∧ r.2.Related Rest r'.2)
        (executeTests rt groupState tests t g) (executeTests rt' groupState tests' t g') := by
  induction ht with
  | nil =>
      intro t g g' h
      exact .pure ⟨rfl, h⟩
  | @cons test test' rest rest' hone _ ih =>
      intro t g g' h
      unfold executeTests
      rw [hone.initialState]
      refine (runOneTests_refines hrt hone _ h).bind ?_
      rintro ⟨rc, status, g⟩ ⟨_, _, g'⟩ ⟨rfl, rfl, h⟩
      exact ih _ h

theorem runGroupFixture_refines (hrt : rt.Refines rt' Rest Running)
    (hsetup : Option.Rel (Body.Refines Running) groupSetup groupSetup')
    (hteardown : Option.Rel (Body.Refines Running) groupTeardown groupTeardown')
    (groupState : Option P) (groupCheckPoint : C) (h : g.Related Rest g') :
    Base.Refines (SameResult Rest)
      (runGroupFixture rt groupSetup groupTeardown groupState groupCheckPoint g)
      (runGroupFixture rt' groupSetup' groupTeardown' groupState groupCheckPoint g') := by
  cases hsetup with
  | some hf =>
      exact runOneTestOrFixture_refines hrt .none (.some hf) hteardown groupState
        (some groupCheckPoint) h
  | none =>
      cases hteardown with
      | some hf =>
          exact runOneTestOrFixture_refines hrt .none .none (.some hf) groupState
            (some groupCheckPoint) h
      | none => exact .pure ⟨rfl, rfl, h⟩

theorem runTestsAfterSetup_refines (hrt : rt.Refines rt' Rest Running) (rc : Int)
    (groupState : Option P) (ht : List.Forall₂ (CMUnitTest.Refines Running) tests tests')
    (h : g.Related Rest g') :
    Base.Refines (fun r r' => r.1 = r'.1 ∧ r.2.Related Rest r'.2)
      (runTestsAfterSetup rt rc groupState tests g)
      (runTestsAfterSetup rt' rc groupState tests' g') :=
  .ite Iff.rfl (fun _ => executeTests_refines hrt groupState ht _ h) fun _ => .pure ⟨rfl, h⟩

theorem finishGroup_refines (hrt : rt.Refines rt' Rest Running)
    (hteardown : Option.Rel (Body.Refines Running) groupTeardown groupTeardown')
    (groupState : Option P) (groupCheckPoint : C) (h : g.Related Rest g') :
    Base.Refines (fun r r' => r.1 = r'.1 ∧ r.2.Related Rest r'.2)
      (finishGroup rt groupTeardown groupState groupCheckPoint g)
      (finishGroup rt' groupTeardown' groupState groupCheckPoint g') := by
  refine (runGroupFixture_refines hrt .none hteardown groupState groupCheckPoint h).bind ?_
  rintro ⟨rc, state, g⟩ ⟨_, _, g'⟩ ⟨rfl, rfl, h⟩
  refine (hrt.blocksAtRest groupCheckPoint g.world g'.world h.1).bind ?_
  rintro ⟨returns, w⟩ ⟨_, w'⟩ ⟨rfl, hw⟩
  exact .pure ⟨rfl, hw, h.2⟩

/-- A group ends the same way over both worlds, with the same counters. -/
theorem runGroupTests_refines (hrt : rt.Refines rt' Rest Running) (filters : Filters)
    (ht : List.Forall₂ (CMUnitTest.Refines Running) tests tests')
    (hsetup : Option.Rel (Body.Refines Running) groupSetup groupSetup')
    (hteardown : Option.Rel (Body.Refines Running) groupTeardown groupTeardown')
    (h : g.Related Rest g') :
    Base.Refines (fun r r' => r.1 = r'.1 ∧ r.2.1 = r'.2.1 ∧ r.2.2.Related Rest r'.2.2)
      (runGroupTests rt filters tests groupSetup groupTeardown g)
      (runGroupTests rt' filters tests' groupSetup' groupTeardown' g') := by
  refine (hrt.checkPoint g.world g'.world h.1).bind ?_
  rintro groupCheckPoint _ rfl
  refine (runGroupFixture_refines hrt hsetup .none none groupCheckPoint h).bind ?_
  rintro ⟨rc, groupState, g⟩ ⟨_, _, g'⟩ ⟨rfl, rfl, h⟩
  refine (runTestsAfterSetup_refines hrt rc groupState (filter_refines ht filters) h).bind ?_
  rintro ⟨t, g⟩ ⟨_, g'⟩ ⟨rfl, h⟩
  refine (finishGroup_refines hrt hteardown groupState groupCheckPoint h).bind ?_
  rintro ⟨returns, g⟩ ⟨_, g'⟩ ⟨rfl, h⟩
  exact .pure ⟨rfl, rfl, h⟩

end Group

end Refine

end TraceRecorderTests.Cmocka
