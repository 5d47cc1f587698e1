import Mathlib.Algebra.Order.BigOperators.Group.List
import Mathlib.Algebra.Order.Group.Nat
import TraceRecorderTests.Cmocka.AllocRun
import TraceRecorderTests.Cmocka.GroupRefine
import TraceRecorderTests.Cmocka.OneTest

/-!
# A group in memory

The whole of cmocka: the runner, the lists and symbol maps of the mocks, and the
allocator with its guards, under test functions that may do anything with their
mocks and their memory (`Program`). The same programs run on queues and areas, with
no pointer in them but those a test has; what the group ends with is the same
(`runGroupTests_memory`). The blocks that cmocka allocates for its lists and those
of the tests come from one `malloc`, which keeps them apart.
-/

namespace TraceRecorderTests.Cmocka

open Base

/-! ## Programs -/

/-- What a test function or a fixture does: it calls its mocks, allocates and uses
memory, stores its state, and leaves. What comes next may depend on what a call
returns. `block` is what `malloc` returns to the call. -/
inductive Program (P : Type)
  | leave (exit : Exit)
  | store (state : Option P) (next : Program P)
  | call (c : Call) (next : Reply → Program P)
  | alloc (c : AllocCall) (block : Nat) (next : AllocReply → Program P)

/-- A test of a group, its functions given as programs over the state. -/
structure TestProgram (P : Type) where
  name : Option (List Char)
  testFunc : Option (Option P → Program P)
  setupFunc : Option (Option P → Program P)
  teardownFunc : Option (Option P → Program P)
  initialState : Option P

/-- The test over a world in which programs run. -/
def TestProgram.over {P W : Type} (body : (Option P → Program P) → Body P W)
    (test : TestProgram P) : CMUnitTest P W where
  name := test.name
  testFunc := test.testFunc.map body
  setupFunc := test.setupFunc.map body
  teardownFunc := test.teardownFunc.map body
  initialState := test.initialState

/-- What a program calls: cmocka and the allocator. -/
structure Machine (W : Type) where
  call : Call → W → Option (Reply × W)
  alloc : AllocCall → Nat → W → Option (AllocReply × W)

/-- A program runs to its end, or to the first call that ends the test. -/
def Program.run {P W : Type} (m : Machine W) :
    Program P → Option P → W → Option (Exit × Option P × W)
  | .leave exit, state, w => some (exit, state, w)
  | .store state next, _, w => next.run m state w
  | .call c next, state, w => do
      let (reply, w) ← m.call c w
      if reply = .failed then some (.failed, state, w) else (next reply).run m state w
  | .alloc c block next, state, w => do
      let (reply, w) ← m.alloc c block w
      if reply = .failed then some (.failed, state, w) else (next reply).run m state w

/-- A function whose program depends on the state it gets. -/
def Machine.body {P W : Type} (m : Machine W) (f : Option P → Program P) : Body P W :=
  fun state w => (f state).run m state w

/-! ## In memory -/

section Code

variable {A : Type}

/-- The heap of the mocks and the memory of the tests. -/
structure World (A : Type) where
  heap : Heap A MockValue
  arena : Arena

variable [DecidableEq A] (fuel : Nat) (heads : Heads A) (mallocs : Heap A MockValue → List A)

/-- The calls in memory. `mallocs` are the blocks that `malloc` returns to a call of
cmocka. -/
def memoryMachine : Machine (World A) where
  call c w := do
    let (reply, σ) ← c.run fuel heads { w.heap with mallocs := mallocs w.heap }
    return (reply, { w with heap := σ })
  alloc c block w := do
    let (reply, s) ← c.run block w.arena
    return (reply, { w with arena := s })

/-- What the runner calls. -/
def memoryRuntime : Runtime (World A) (Option Nat) where
  checkPointAllocatedBlocks w := Cmocka.checkPointAllocatedBlocks w.arena
  initializeTesting w := do
    let σ ← Cmocka.initializeTesting heads w.heap
    return { w with heap := σ }
  failIfBlocksAllocated checkPoint w := do
    let (returns, s) ← Cmocka.failIfBlocksAllocated fuel checkPoint w.arena
    return (returns, { w with arena := s })
  hasLeftoverValues w := do
    let (leftover, σ) ← Cmocka.hasLeftoverValues fuel heads w.heap
    return (leftover, { w with heap := σ })
  teardownTesting w := do
    let σ ← Cmocka.teardownTesting fuel heads w.heap
    return { w with heap := σ }

end Code

/-! ## On queues and areas -/

/-- What the tests see of the world, and how many calls they may still make. -/
structure Objects where
  expectations : Expectations
  areas : List Area
  calls : Nat

/-- The calls on queues and areas; undefined for a pointer that is not one to an area,
for a block that is not free, and for a call too many. -/
def objectsMachine : Machine Objects where
  call c o :=
    if o.calls = 0 then none
    else some ((c.apply o.expectations).1,
      { o with expectations := (c.apply o.expectations).2, calls := o.calls - 1 })
  alloc c block o :=
    if o.calls = 0 ∨ ¬ c.BlockFree block o.areas then none
    else (c.apply block o.areas).map fun (reply, areas) =>
      (reply, { o with areas := areas, calls := o.calls - 1 })

/-- The areas up to the check point, and those that were allocated after it;
undefined when the area of the check point is gone. -/
def splitAreas : Option Nat → List Area → Option (List Area × List Area)
  | none, areas => some ([], areas)
  | some _, [] => none
  | some info, a :: rest =>
      if a.info = info then some ([a], rest)
      else (splitAreas (some info) rest).map fun (before, after) => (a :: before, after)

open Classical in
/-- What the runner calls: nothing may be allocated since the check point, and no
value may be left over. -/
noncomputable def objectsRuntime : Runtime Objects (Option Nat) where
  checkPointAllocatedBlocks o := some (o.areas.map Area.info).getLast?
  initializeTesting o := some { o with expectations := .none }
  failIfBlocksAllocated checkPoint o :=
    (splitAreas checkPoint o.areas).map fun (before, after) =>
      (decide (after = []), { o with areas := before ++ after.dropWhile fun a => a.Intact })
  hasLeftoverValues o :=
    some (decide o.expectations.Leftover, { o with expectations := o.expectations.swept })
  teardownTesting o := some { o with expectations := .none }

theorem splitAreas_spec : ∀ {checkPoint : Option Nat} {areas before after : List Area},
    splitAreas checkPoint areas = some (before, after) →
      areas = before ++ after ∧ (before.map Area.info).getLast? = checkPoint
  | none, areas, before, after, h => by
      simp only [splitAreas, Option.some.injEq, Prod.mk.injEq] at h
      obtain ⟨rfl, rfl⟩ := h
      exact ⟨rfl, rfl⟩
  | some info, a :: rest, before, after, h => by
      unfold splitAreas at h
      split at h
      case isTrue hinfo =>
        cases h
        exact ⟨rfl, by rw [← hinfo]; rfl⟩
      case isFalse =>
        obtain ⟨⟨before', after'⟩, hsplit, heq⟩ := Option.map_eq_some_iff.mp h
        cases heq
        obtain ⟨rfl, hlast⟩ := splitAreas_spec hsplit
        refine ⟨rfl, ?_⟩
        rw [List.map_cons, List.getLast?_cons, hlast]
        rfl

/-! ## One call -/

/-- A machine does what another does, on related worlds. -/
structure Machine.Refines {W W' : Type} (m : Machine W) (m' : Machine W') (R : W → W' → Prop) :
    Prop where
  call : ∀ c w w', R w w' →
    Base.Refines (fun r r' => r.1 = r'.1 ∧ R r.2 r'.2) (m.call c w) (m'.call c w')
  alloc : ∀ c block w w', R w w' →
    Base.Refines (fun r r' => r.1 = r'.1 ∧ R r.2 r'.2) (m.alloc c block w) (m'.alloc c block w')

/-- Then programs do the same. -/
theorem Machine.Refines.run {P W W' : Type} {m : Machine W} {m' : Machine W'}
    {R : W → W' → Prop} (hm : m.Refines m' R) (p : Program P) :
    ∀ (state : Option P) {w : W} {w' : W'}, R w w' →
      Base.Refines (fun r r' => r.1 = r'.1 ∧ r.2.1 = r'.2.1 ∧ R r.2.2 r'.2.2)
        (p.run m state w) (p.run m' state w') := by
  induction p with
  | leave exit =>
      intro state w w' h
      exact .pure ⟨rfl, rfl, h⟩
  | store stored next ih =>
      intro state w w' h
      exact ih stored h
  | call c next ih =>
      intro state w w' h
      refine (hm.call c w w' h).bind ?_
      rintro ⟨reply, w⟩ ⟨_, w'⟩ ⟨rfl, h⟩
      exact .ite Iff.rfl (fun _ => .pure ⟨rfl, rfl, h⟩) fun _ => ih reply state h
  | alloc c block next ih =>
      intro state w w' h
      refine (hm.alloc c block w w' h).bind ?_
      rintro ⟨reply, w⟩ ⟨_, w'⟩ ⟨rfl, h⟩
      exact .ite Iff.rfl (fun _ => .pure ⟨rfl, rfl, h⟩) fun _ => ih reply state h

theorem Machine.Refines.body {P W W' : Type} {m : Machine W} {m' : Machine W'}
    {R : W → W' → Prop} (hm : m.Refines m' R) (f : Option P → Program P) :
    (m.body f).Refines R (m'.body f) :=
  fun state _ _ h => hm.run (f state) state h

theorem Machine.Refines.map {P W W' : Type} {m : Machine W} {m' : Machine W'}
    {R : W → W' → Prop} (hm : m.Refines m' R) (f : Option (Option P → Program P)) :
    Option.Rel (Body.Refines R) (f.map m.body) (f.map m'.body) := by
  cases f with
  | none => exact .none
  | some f => exact .some (hm.body f)

theorem Machine.Refines.over {P W W' : Type} {m : Machine W} {m' : Machine W'}
    {R : W → W' → Prop} (hm : m.Refines m' R) (test : TestProgram P) :
    (test.over m.body).Refines R (test.over m'.body) :=
  ⟨rfl, hm.map _, hm.map _, hm.map _, rfl⟩

/-! ## How many areas there are -/

section Length

variable {areas areas' : List Area} {ptr size block : Nat}

theorem mallocAreas_length_le (size block : Nat) (areas : List Area) :
    (mallocAreas size block areas).2.length ≤ areas.length + 1 := by
  unfold mallocAreas
  split
  · rw [List.length_append, List.length_singleton]
  · exact Nat.le_succ _

theorem freeAreas_length_le {returns : Bool}
    (h : freeAreas ptr areas = some (returns, areas')) : areas'.length ≤ areas.length := by
  unfold freeAreas at h
  split at h
  · cases h
    exact le_refl _
  · obtain ⟨a, -, h⟩ := Option.bind_eq_some_iff.mp h
    split at h
    · cases h
      exact List.length_filter_le _ _
    · cases h
      exact le_refl _

theorem callocAreas_length_le (numberOfElements size block : Nat) (areas : List Area) :
    (callocAreas numberOfElements size block areas).2.length ≤ areas.length + 1 := by
  have hmalloc := mallocAreas_length_le (sizeT (numberOfElements * size)) block areas
  unfold callocAreas
  split
  · rename_i heq
    rwa [heq] at hmalloc
  · rename_i heq
    rw [heq] at hmalloc
    rwa [modifyArea, List.length_map]

theorem reallocAreas_length_le {result : Option Nat}
    (h : reallocAreas ptr size block areas = some (result, areas')) :
    areas'.length ≤ areas.length + 1 := by
  have hmalloc := mallocAreas_length_le size block areas
  unfold reallocAreas at h
  split at h
  · rw [Option.some.injEq] at h
    rwa [h] at hmalloc
  · split at h
    · obtain ⟨⟨returns, areas₁⟩, hfreed, heq⟩ := Option.bind_eq_some_iff.mp h
      cases heq
      exact (freeAreas_length_le hfreed).trans (Nat.le_succ _)
    · obtain ⟨a, -, h⟩ := Option.bind_eq_some_iff.mp h
      split at h
      · rename_i hnone
        cases h
        rwa [hnone] at hmalloc
      · rename_i hsome
        obtain ⟨⟨returns, areas₁⟩, hfreed, heq⟩ := Option.bind_eq_some_iff.mp h
        cases heq
        rw [hsome] at hmalloc
        have hle := freeAreas_length_le hfreed
        rw [modifyArea, List.length_map] at hle
        exact hle.trans hmalloc

/-- A call allocates one area at most. -/
theorem AllocCall.apply_length_le {c : AllocCall} {reply : AllocReply}
    (h : c.apply block areas = some (reply, areas')) : areas'.length ≤ areas.length + 1 := by
  cases c with
  | malloc size =>
      cases h
      exact mallocAreas_length_le size block areas
  | calloc numberOfElements size =>
      cases h
      exact callocAreas_length_le numberOfElements size block areas
  | realloc ptr size =>
      obtain ⟨⟨result, areas''⟩, hrealloc, heq⟩ := Option.map_eq_some_iff.mp h
      cases heq
      exact reallocAreas_length_le hrealloc
  | free ptr =>
      obtain ⟨⟨returns, areas''⟩, hfreed, heq⟩ := Option.map_eq_some_iff.mp h
      cases heq
      exact (freeAreas_length_le hfreed).trans (Nat.le_succ _)
  | read ptr offset =>
      obtain ⟨v, -, heq⟩ := Option.map_eq_some_iff.mp h
      cases heq
      exact Nat.le_succ _
  | write ptr offset v =>
      obtain ⟨areas'', hwrite, heq⟩ := Option.map_eq_some_iff.mp h
      cases heq
      obtain ⟨a, -, hset⟩ := Option.bind_eq_some_iff.mp hwrite
      split at hset
      · cases hset
        rw [modifyArea, List.length_map]
        exact Nat.le_succ _
      · cases hset

end Length

/-! ## Memory does what queues and areas do -/

section Memory

variable {A : Type}

/-- `malloc` returns free blocks, all different, and does not return `NULL`. -/
def MallocSupplies (mallocs : Heap A MockValue → List A) : Prop :=
  ∀ (σ : Heap A MockValue) (blocks : List A), Owns σ blocks →
    Supply { σ with mallocs := mallocs σ } 6

variable (fuel : Nat) (heads : Heads A)

/-- Between functions: no lists but the empty ones, and the areas. The loops have
fuel for the calls to come. -/
structure Resting (w : World A) (o : Objects) : Prop where
  idle : ∃ lost, Idle heads w.heap lost
  stores : w.arena.Stores o.areas
  steps : 6 * o.calls < fuel
  areas : o.areas.length + o.calls < fuel

/-- Inside a function. -/
structure Working (w : World A) (o : Objects) : Prop where
  holding : ∃ size lost, Holding heads w.heap o.expectations size lost ∧ size + 6 * o.calls < fuel
  stores : w.arena.Stores o.areas
  areas : o.areas.length + o.calls < fuel

variable [DecidableEq A] {fuel : Nat} {heads : Heads A} {mallocs : Heap A MockValue → List A}

theorem memoryMachine_refines (hmallocs : MallocSupplies mallocs) :
    (memoryMachine fuel heads mallocs).Refines objectsMachine (Working fuel heads) where
  call c w o h := by
    intro r hr
    obtain ⟨hcalls, heq⟩ := Option.ite_none_left_eq_some.mp hr
    cases heq
    obtain ⟨size, lost, hholding, hfuel⟩ := h.holding
    obtain ⟨r, p, t, l, hholds, hsize, hlost⟩ := id hholding
    obtain ⟨τ, hrun, hholding'⟩ := (hholding.withMallocs (mallocs w.heap)).run_spec c
      (hmallocs _ _ hholds.owns) (by omega : size < fuel)
    refine ⟨((c.apply o.expectations).1, { w with heap := τ }), ?_, rfl, ?_⟩
    · show (c.run fuel heads _).bind _ = _
      rw [hrun]
      rfl
    · -- the lists grow by six blocks at most, and one call of the budget is spent
      have hareas := h.areas
      refine ⟨⟨size + 6, _, hholding', ?_⟩, h.stores, ?_⟩
      · show size + 6 + 6 * (o.calls - 1) < fuel
        omega
      · show o.areas.length + (o.calls - 1) < fuel
        omega
  alloc c block w o h := by
    intro r hr
    obtain ⟨hok, hr⟩ := Option.ite_none_left_eq_some.mp hr
    rw [not_or, not_not] at hok
    obtain ⟨⟨reply, areas'⟩, happly, heq⟩ := Option.map_eq_some_iff.mp hr
    cases heq
    obtain ⟨s', hrun, hstores⟩ := h.stores.run_spec hok.2 happly
    refine ⟨(reply, { w with arena := s' }), ?_, rfl, ?_⟩
    · show (c.run block w.arena).bind _ = _
      rw [hrun]
      rfl
    · obtain ⟨size, lost, hholding, hfuel⟩ := h.holding
      have hlength := AllocCall.apply_length_le happly
      have hareas := h.areas
      refine ⟨⟨size, lost, hholding, ?_⟩, hstores, ?_⟩
      · show size + 6 * (o.calls - 1) < fuel
        omega
      · show areas'.length + (o.calls - 1) < fuel
        omega

/-- The check for blocks finds the areas after the check point. -/
theorem memoryRuntime_failIfBlocksAllocated {checkPoint : Option Nat} {w : World A} {o : Objects}
    {r : Bool × Objects} (h : w.arena.Stores o.areas) (hfuel : o.areas.length < fuel)
    (hr : objectsRuntime.failIfBlocksAllocated checkPoint o = some r) :
    ∃ returns s' areas', r = (returns, { o with areas := areas' }) ∧
      (memoryRuntime fuel heads).failIfBlocksAllocated checkPoint w =
        some (returns, { w with arena := s' }) ∧
      s'.Stores areas' ∧ areas'.length ≤ o.areas.length := by
  obtain ⟨⟨before, after⟩, hsplit, rfl⟩ := Option.map_eq_some_iff.mp hr
  obtain ⟨hareas, hlast⟩ := splitAreas_spec hsplit
  rw [hareas] at h
  rw [hareas, List.length_append] at hfuel
  obtain ⟨s', hrun, h'⟩ := h.failIfBlocksAllocated_spec (by omega : after.length < fuel)
  rw [hlast] at hrun
  have hdrop : (after.dropWhile fun a => a.Intact).length ≤ after.length :=
    (List.dropWhile_sublist _).length_le
  refine ⟨decide (after = []), s', before ++ after.dropWhile fun a => a.Intact, rfl, ?_, h', ?_⟩
  · show (failIfBlocksAllocated fuel checkPoint w.arena).bind _ = _
    rw [hrun]
    rfl
  · rw [hareas, List.length_append, List.length_append]
    omega

theorem memoryRuntime_refines :
    (memoryRuntime fuel heads).Refines objectsRuntime (Resting fuel heads)
      (Working fuel heads) where
  checkPoint w o h := by
    intro checkPoint hcheckPoint
    cases hcheckPoint
    exact ⟨_, h.stores.checkPoint_spec, rfl⟩
  initializes w o h := by
    intro o' ho'
    cases ho'
    obtain ⟨lost, hidle⟩ := h.idle
    obtain ⟨τ, hrun, hholding⟩ := hidle.initializeTesting_spec
    have hsteps := h.steps
    refine ⟨{ w with heap := τ }, ?_, ⟨0, _, hholding, ?_⟩, h.stores, h.areas⟩
    · show (initializeTesting heads w.heap).bind _ = _
      rw [hrun]
      rfl
    · show 0 + 6 * o.calls < fuel
      omega
  blocks checkPoint w o h := by
    intro r hr
    have hareas := h.areas
    obtain ⟨returns, s', areas', rfl, hrun, hstores, hlength⟩ :=
      memoryRuntime_failIfBlocksAllocated h.stores (by omega : o.areas.length < fuel) hr
    refine ⟨_, hrun, rfl, h.holding, hstores, ?_⟩
    exact lt_of_le_of_lt (Nat.add_le_add_right hlength _) hareas
  leftover w o h := by
    intro r hr
    cases hr
    obtain ⟨size, lost, hholding, hfuel⟩ := h.holding
    obtain ⟨leftover, τ, hrun, hiff, hholding'⟩ :=
      Holds.hasLeftoverValues_spec hholding (by omega : size < fuel)
    refine ⟨(leftover, { w with heap := τ }), ?_, ?_, ⟨size, lost, hholding', hfuel⟩, h.stores,
      h.areas⟩
    · show (hasLeftoverValues fuel heads w.heap).bind _ = _
      rw [hrun]
      rfl
    · refine Bool.eq_iff_iff.mpr (hiff.trans ?_)
      exact (@decide_eq_true_iff _ (Classical.propDecidable _)).symm
  teardown w o h := by
    intro o' ho'
    cases ho'
    obtain ⟨size, lost, hholding, hfuel⟩ := h.holding
    obtain ⟨τ, lost', hrun, hidle, -⟩ := hholding.teardownTesting_spec (by omega : size < fuel)
    refine ⟨{ w with heap := τ }, ?_, ⟨lost', hidle⟩, h.stores, ?_, h.areas⟩
    · show (teardownTesting fuel heads w.heap).bind _ = _
      rw [hrun]
      rfl
    · show 6 * o.calls < fuel
      omega
  blocksAtRest checkPoint w o h := by
    intro r hr
    have hareas := h.areas
    obtain ⟨returns, s', areas', rfl, hrun, hstores, hlength⟩ :=
      memoryRuntime_failIfBlocksAllocated h.stores (by omega : o.areas.length < fuel) hr
    refine ⟨_, hrun, rfl, h.idle, hstores, h.steps, ?_⟩
    exact lt_of_le_of_lt (Nat.add_le_add_right hlength _) hareas

/-! ## The group -/

/-- A group of programs in memory refines the group on queues and areas. -/
theorem runGroupTests_over {P : Type} (hmallocs : MallocSupplies mallocs) (filters : Filters)
    (tests : List (TestProgram P)) (groupSetup groupTeardown : Option (Option P → Program P))
    {g : Globals (World A)} {g' : Globals Objects} (h : g.Related (Resting fuel heads) g') :
    Base.Refines
      (fun r r' => r.1 = r'.1 ∧ r.2.1 = r'.2.1 ∧ r.2.2.Related (Resting fuel heads) r'.2.2)
      (runGroupTests (memoryRuntime fuel heads) filters
        (tests.map (TestProgram.over (memoryMachine fuel heads mallocs).body))
        (groupSetup.map (memoryMachine fuel heads mallocs).body)
        (groupTeardown.map (memoryMachine fuel heads mallocs).body) g)
      (runGroupTests objectsRuntime filters (tests.map (TestProgram.over objectsMachine.body))
        (groupSetup.map objectsMachine.body) (groupTeardown.map objectsMachine.body) g') := by
  have hmachine := @memoryMachine_refines A _ fuel heads mallocs hmallocs
  have htests : List.Forall₂ (CMUnitTest.Refines (Working fuel heads))
      (tests.map (TestProgram.over (memoryMachine fuel heads mallocs).body))
      (tests.map (TestProgram.over objectsMachine.body)) := by
    rw [List.forall₂_map_left_iff, List.forall₂_map_right_iff, List.forall₂_same]
    intro test _
    exact hmachine.over test
  exact runGroupTests_refines memoryRuntime_refines filters htests (hmachine.map groupSetup)
    (hmachine.map groupTeardown) h

/-- Where `malloc` does not fail for the blocks of the lists, a group whose functions are
programs ends in memory as it does on queues and areas: the same number is returned,
the same tests are counted as passed, failed, skipped or as errors, and the memory holds
the areas that are left. -/
theorem runGroupTests_memory {P : Type} (hmallocs : MallocSupplies mallocs) (filters : Filters)
    (tests : List (TestProgram P)) (groupSetup groupTeardown : Option (Option P → Program P))
    {w : World A} {o : Objects} (hrest : Resting fuel heads w o) (flag : Bool)
    {ending : GroupEnd} {t : Totals} {g : Globals Objects}
    (hgroup : runGroupTests objectsRuntime filters
      (tests.map (TestProgram.over objectsMachine.body))
      (groupSetup.map objectsMachine.body) (groupTeardown.map objectsMachine.body) ⟨o, flag⟩ =
        some (ending, t, g)) :
    ∃ w', runGroupTests (memoryRuntime fuel heads) filters
        (tests.map (TestProgram.over (memoryMachine fuel heads mallocs).body))
        (groupSetup.map (memoryMachine fuel heads mallocs).body)
        (groupTeardown.map (memoryMachine fuel heads mallocs).body) ⟨w, flag⟩ =
          some (ending, t, ⟨w', g.skipTest⟩) ∧
      Resting fuel heads w' g.world := by
  have hstart : Globals.Related (Resting fuel heads) ⟨w, flag⟩ ⟨o, flag⟩ := ⟨hrest, rfl⟩
  obtain ⟨⟨ending', t', w', skip⟩, hrun, hending, htotals, hworld, hskip⟩ :=
    runGroupTests_over hmallocs filters tests groupSetup groupTeardown hstart _ hgroup
  dsimp only at hending htotals hworld hskip
  rw [hending, htotals, hskip] at hrun
  exact ⟨w', hrun, hworld⟩

end Memory

/-! ## A group of two tests -/

open Classical in
/-- Six addresses above all that are in use. -/
noncomputable def blocksAbove (σ : Heap Nat MockValue) : List Nat :=
  if h : ∃ blocks, Owns σ blocks then (List.range 6).map (h.choose.sum + 1 + ·) else []

theorem blocksAbove_supplies : MallocSupplies blocksAbove := by
  intro σ blocks h
  have hex : ∃ blocks, Owns σ blocks := ⟨blocks, h⟩
  have hmallocs : blocksAbove σ = (List.range 6).map (hex.choose.sum + 1 + ·) := dif_pos hex
  rw [hmallocs]
  refine ⟨?_, ?_, by simp⟩
  · exact List.nodup_range.map fun a b hab => Nat.add_left_cancel hab
  · intro a ha
    obtain ⟨i, -, rfl⟩ := List.mem_map.mp ha
    by_contra hlive
    have hmem := (hex.choose_spec.live _).mp hlive
    have hle := List.le_sum_of_mem hmem
    omega

/-- A test that writes past the end of its area. -/
def overrunning : Option Unit → Program Unit := fun _ =>
  .alloc (.malloc 4) 2000 fun reply =>
    match reply with
    | .pointer ptr => .alloc (.write ptr 4 0) 0 fun _ =>
        .alloc (.free ptr) 0 fun _ => .leave (.returned 0)
    | _ => .leave .failed

/-- A test that makes a call that is not expected. -/
def unexpecting : Option Unit → Program Unit := fun _ =>
  .call (.functionCalled "f") fun _ => .leave (.returned 0)

def failingTests : List (TestProgram Unit) :=
  [⟨some ['a'], some overrunning, none, none, none⟩,
    ⟨some ['b'], some unexpecting, none, none, none⟩]

/-- Both fail, and the area that could not be freed ends the program. -/
theorem runGroupTests_memory_failing : ∃ g,
    runGroupTests (memoryRuntime 25 startHeads) ⟨none, none⟩
      (failingTests.map (TestProgram.over (memoryMachine 25 startHeads blocksAbove).body))
      (Option.map (memoryMachine 25 startHeads blocksAbove).body none)
      (Option.map (memoryMachine 25 startHeads blocksAbove).body none)
      ⟨⟨startHeap, startArena⟩, false⟩ = some (.exitFailure, ⟨2, 0, 2, 0, 0⟩, g) := by
  have hobjects : (runGroupTests objectsRuntime ⟨none, none⟩
      (failingTests.map (TestProgram.over objectsMachine.body))
      (Option.map objectsMachine.body none) (Option.map objectsMachine.body none)
      ⟨⟨.none, [], 4⟩, false⟩).map (fun run => (run.1, run.2.1)) =
        some (.exitFailure, ⟨2, 0, 2, 0, 0⟩) := by
    decide +kernel
  obtain ⟨⟨ending, t, g⟩, hgroup, heq⟩ := Option.map_eq_some_iff.mp hobjects
  cases heq
  have hrest : Resting 25 startHeads ⟨startHeap, startArena⟩ ⟨.none, [], 4⟩ :=
    ⟨⟨[], idle_startHeap⟩, startArena_stores, by decide, by decide⟩
  obtain ⟨w', hrun, -⟩ := runGroupTests_memory blocksAbove_supplies ⟨none, none⟩ failingTests none
    none hrest false hgroup
  exact ⟨_, hrun⟩

end TraceRecorderTests.Cmocka
