import TraceRecorderTests.Cmocka.Channels
import TraceRecorderTests.Cmocka.Queues

/-!
# The verdict on a test, from its counts

Which value a mock returns is a matter of the values declared for its function and
of how often it was called before (`TestRun.reply_to_mock`), and whether a test
passes can be read off its calls without any queue (`TestRun.passes_iff`).
-/

namespace TraceRecorderTests.Cmocka

open Base

/-- The values declared for a function, and the calls of its mock. -/
def declaredResults (function : String) (calls : List Call) : List (UIntMax × Int) :=
  calls.filterMap fun
    | .willReturn f value count => if f = function then some (value, count) else none
    | _ => none

def mockCalls (function : String) (calls : List Call) : Nat :=
  calls.countP fun
    | .mock f => f = function
    | _ => false

/-- The checks declared for a parameter, and how often it was checked. -/
def declaredChecks (function parameter : String) (calls : List Call) :
    List (CheckParameterEvent × Int) :=
  calls.filterMap fun
    | .expectCheck f p check count =>
        if f = function ∧ p = parameter then some (check, count) else none
    | _ => none

def checkCalls (function parameter : String) (calls : List Call) : Nat :=
  calls.countP fun
    | .checkExpected f p _ => f = function ∧ p = parameter
    | _ => false

/-- The list of expected calls, as long as every call in it was expected. -/
def orderAfter : List Call → List (String × Int) → Option (List (String × Int))
  | [], order => some order
  | .expectFunctionCall function count :: rest, order =>
      orderAfter rest (order ++ [(function, count)])
  | .functionCalled function :: rest, order => (called function order).bind (orderAfter rest)
  | _ :: rest, order => orderAfter rest order

/-- The call succeeds after the calls before it. -/
def Call.Answered (before : List Call) : Call → Prop
  | .willReturn _ _ count => count ≠ 0
  | .mock function => replyAt (declaredResults function before) (mockCalls function before) ≠ none
  | .expectCheck _ _ _ _ => True
  | .checkExpected function parameter value =>
      ∃ check, replyAt (declaredChecks function parameter before)
        (checkCalls function parameter before) = some check ∧
          check.checkValue value check.checkValueData
  | .expectFunctionCall _ count => count ≠ 0
  | .functionCalled function => (orderAfter before []).bind (called function) ≠ none

/-- Every call of a test succeeds. -/
def AllAnswered (before : List Call) : List Call → Prop
  | [] => True
  | c :: rest => c.Answered before ∧ AllAnswered (before ++ [c]) rest

/-- The expectations after these calls. -/
structure After (calls : List Call) (E : Expectations) : Prop where
  results : ∀ f, ServedBy (E.results f) (declaredResults f calls) (mockCalls f calls)
  parameters : ∀ f p, ServedBy (E.parameters f p) (declaredChecks f p calls) (checkCalls f p calls)
  order : orderAfter calls [] = some E.order

theorem orderAfter_append (calls : List Call) (c : Call) : ∀ order,
    orderAfter (calls ++ [c]) order = (orderAfter calls order).bind (orderAfter [c]) := by
  induction calls with
  | nil => exact fun order => rfl
  | cons d rest ih =>
      intro order
      cases d with
      | functionCalled function =>
          simp only [List.cons_append, orderAfter]
          rw [Option.bind_assoc]
          congr 1
          exact funext ih
      | _ => simp only [List.cons_append, orderAfter, ih]

section Append

variable (function parameter : String) (before : List Call) (c : Call)

theorem declaredResults_append : declaredResults function (before ++ [c]) =
    declaredResults function before ++ declaredResults function [c] :=
  List.filterMap_append

theorem mockCalls_append : mockCalls function (before ++ [c]) =
    mockCalls function before + mockCalls function [c] :=
  List.countP_append

theorem declaredChecks_append : declaredChecks function parameter (before ++ [c]) =
    declaredChecks function parameter before ++ declaredChecks function parameter [c] :=
  List.filterMap_append

theorem checkCalls_append : checkCalls function parameter (before ++ [c]) =
    checkCalls function parameter before + checkCalls function parameter [c] :=
  List.countP_append

variable {function parameter : String} {c : Call}

/-- Calls for other queues do not count. -/
theorem results_of_channel_ne (h : Channel.results function ≠ c.channel) :
    declaredResults function [c] = [] ∧ mockCalls function [c] = 0 := by
  cases c with
  | willReturn g value count =>
      have hg : ¬ g = function := fun heq => h (by rw [heq]; rfl)
      simp [declaredResults, mockCalls, hg]
  | mock g =>
      have hg : ¬ g = function := fun heq => h (by rw [heq]; rfl)
      simp [declaredResults, mockCalls, hg]
  | _ => simp [declaredResults, mockCalls]

theorem checks_of_channel_ne (h : Channel.parameters function parameter ≠ c.channel) :
    declaredChecks function parameter [c] = [] ∧ checkCalls function parameter [c] = 0 := by
  cases c with
  | expectCheck g q check count =>
      have hg : ¬ (g = function ∧ q = parameter) := fun heq => h (by rw [← heq.1, ← heq.2]; rfl)
      simp [declaredChecks, checkCalls, hg]
  | checkExpected g q value =>
      have hg : ¬ (g = function ∧ q = parameter) := fun heq => h (by rw [← heq.1, ← heq.2]; rfl)
      simpa [declaredChecks, checkCalls] using not_and.mp hg
  | _ => simp [declaredChecks, checkCalls]

end Append

namespace After

variable {before : List Call} {E E' : Expectations} {reply : Reply} {c : Call}

theorem start : After [] Expectations.none where
  results _ := ServedBy.empty
  parameters _ _ := ServedBy.empty
  order := rfl

/-- When a call succeeds. -/
theorem answered_iff (h : After before E) (c : Call) :
    (c.apply E).1 ≠ .failed ↔ c.Answered before := by
  cases c with
  | willReturn function value count =>
      simp only [Call.apply, Call.Answered]
      split_ifs with hcount
      · simp [hcount]
      · simp [hcount]
  | mock function =>
      rw [Call.Answered, ← (h.results function).nextReply_eq, Call.apply]
      rcases E.results function with _ | ⟨⟨value, count⟩, rest⟩
      · simp [nextReply]
      · simp only [nextReply]
        split_ifs
        · simp
        · simp
  | expectCheck function parameter check count => exact iff_of_true (by simp [Call.apply]) trivial
  | checkExpected function parameter value =>
      rw [Call.Answered, ← (h.parameters function parameter).nextReply_eq, Call.apply]
      rcases E.parameters function parameter with _ | ⟨⟨check, count⟩, rest⟩
      · simp [nextReply]
      · simp only [nextReply]
        split_ifs with hcount hpass
        · simp
        · simp [hpass]
        · simp [hpass]
  | expectFunctionCall function count =>
      simp only [Call.apply, Call.Answered]
      split_ifs with hcount
      · simp [hcount]
      · simp [hcount]
  | functionCalled function =>
      rw [Call.Answered, h.order, Option.bind_some, Call.apply]
      rcases called function E.order with _ | order
      · simp
      · simp

theorem results_step (h : After before E) (hstep : c.step E = some (reply, E')) (f : String) :
    ServedBy (E'.results f) (declaredResults f (before ++ [c])) (mockCalls f (before ++ [c])) := by
  obtain ⟨happly, hreply⟩ := Call.step_eq_some hstep
  have hf := h.results f
  rw [declaredResults_append, mockCalls_append]
  by_cases hchannel : Channel.results f = c.channel
  · cases c with
    | willReturn g value count =>
        obtain rfl : f = g := by simpa [Call.channel] using hchannel
        rw [Call.apply] at happly
        split_ifs at happly with hcount
        · exact absurd (congrArg Prod.fst happly).symm hreply
        · obtain ⟨-, rfl⟩ := Prod.mk.inj happly
          simpa [declaredResults, mockCalls] using hf.append (value, count)
    | mock g =>
        obtain rfl : f = g := by simpa [Call.channel] using hchannel
        rw [Call.apply] at happly
        rcases hq : E.results f with _ | ⟨⟨value, count⟩, rest⟩
        · rw [hq] at happly
          exact absurd (congrArg Prod.fst happly).symm hreply
        · rw [hq] at happly
          obtain ⟨hkind, rfl⟩ := Prod.mk.inj happly
          have hnext : nextReply (E.results f) ≠ none := by
            rw [hq, nextReply]
            split_ifs at hkind ⊢
            · exact absurd hkind.symm hreply
            · simp
          rw [← hq]
          simpa [declaredResults, mockCalls] using hf.serve hnext
    | expectCheck g p check count => cases hchannel
    | checkExpected g p value => cases hchannel
    | expectFunctionCall g count => cases hchannel
    | functionCalled g => cases hchannel
  · have hsame : E'.results f = E.results f := independent_calls.other hstep _ hchannel
    obtain ⟨hdeclared, hcalls⟩ := results_of_channel_ne hchannel
    rwa [hsame, hdeclared, hcalls, List.append_nil, Nat.add_zero]

theorem parameters_step (h : After before E) (hstep : c.step E = some (reply, E')) (f p : String) :
    ServedBy (E'.parameters f p) (declaredChecks f p (before ++ [c]))
      (checkCalls f p (before ++ [c])) := by
  obtain ⟨happly, hreply⟩ := Call.step_eq_some hstep
  have hf := h.parameters f p
  rw [declaredChecks_append, checkCalls_append]
  by_cases hchannel : Channel.parameters f p = c.channel
  · cases c with
    | willReturn g value count => cases hchannel
    | mock g => cases hchannel
    | expectCheck g q check count =>
        obtain ⟨rfl, rfl⟩ : f = g ∧ p = q := by simpa [Call.channel] using hchannel
        obtain ⟨-, rfl⟩ := Prod.mk.inj happly
        simpa [declaredChecks, checkCalls] using hf.append (check, count)
    | checkExpected g q value =>
        obtain ⟨rfl, rfl⟩ : f = g ∧ p = q := by simpa [Call.channel] using hchannel
        rw [Call.apply] at happly
        rcases hq : E.parameters f p with _ | ⟨⟨check, count⟩, rest⟩
        · rw [hq] at happly
          exact absurd (congrArg Prod.fst happly).symm hreply
        · rw [hq] at happly
          obtain ⟨hkind, rfl⟩ := Prod.mk.inj happly
          have hnext : nextReply (E.parameters f p) ≠ none := by
            rw [hq, nextReply]
            by_cases hcount : count = 0
            · rw [if_pos hcount] at hkind
              exact absurd hkind.symm hreply
            · rw [if_neg hcount]
              exact Option.some_ne_none check
          rw [← hq]
          simpa [declaredChecks, checkCalls] using hf.serve hnext
    | expectFunctionCall g count => cases hchannel
    | functionCalled g => cases hchannel
  · have hsame : E'.parameters f p = E.parameters f p := independent_calls.other hstep _ hchannel
    obtain ⟨hdeclared, hcalls⟩ := checks_of_channel_ne hchannel
    rwa [hsame, hdeclared, hcalls, List.append_nil, Nat.add_zero]

theorem order_step (h : After before E) (hstep : c.step E = some (reply, E')) :
    orderAfter (before ++ [c]) [] = some E'.order := by
  obtain ⟨happly, hreply⟩ := Call.step_eq_some hstep
  rw [orderAfter_append, h.order, Option.bind_some]
  by_cases hchannel : Channel.order = c.channel
  · cases c with
    | expectFunctionCall g count =>
        rw [Call.apply] at happly
        split_ifs at happly with hcount
        · exact absurd (congrArg Prod.fst happly).symm hreply
        · obtain ⟨-, rfl⟩ := Prod.mk.inj happly
          rfl
    | functionCalled g =>
        rw [Call.apply] at happly
        rcases hcalled : called g E.order with _ | order
        · rw [hcalled] at happly
          exact absurd (congrArg Prod.fst happly).symm hreply
        · rw [hcalled] at happly
          obtain ⟨-, rfl⟩ := Prod.mk.inj happly
          simp only [orderAfter, hcalled, Option.bind_some]
    | _ => cases hchannel
  · have hsame : E'.order = E.order := independent_calls.other hstep _ hchannel
    rw [hsame]
    cases c with
    | expectFunctionCall g count => exact absurd rfl hchannel
    | functionCalled g => exact absurd rfl hchannel
    | _ => rfl

/-- What a call that succeeds does. -/
theorem step (h : After before E) (hstep : c.step E = some (reply, E')) :
    After (before ++ [c]) E' where
  results := h.results_step hstep
  parameters := h.parameters_step hstep
  order := h.order_step hstep

/-- A run succeeds as long as every call does. -/
theorem run_iff : ∀ {calls before : List Call} {E : Expectations}, After before E →
    ((∃ trace E', runTraced Call.step calls E = some (trace, E')) ↔ AllAnswered before calls)
  | [], _, E, _ => iff_of_true ⟨[], E, rfl⟩ trivial
  | c :: rest, before, E, h => by
      rw [AllAnswered, ← h.answered_iff]
      constructor
      · rintro ⟨trace, E', hrun⟩
        obtain ⟨reply, E₁, trace', hstep, hrest, -⟩ := runTraced_cons_inv hrun
        obtain ⟨happly, hreply⟩ := Call.step_eq_some hstep
        exact ⟨by rwa [happly], (run_iff (h.step hstep)).mp ⟨trace', E', hrest⟩⟩
      · rintro ⟨hok, hrest⟩
        have hstep : c.step E = some ((c.apply E).1, (c.apply E).2) := if_neg hok
        obtain ⟨trace, E', hrun⟩ := (run_iff (h.step hstep)).mpr hrest
        exact ⟨_, E', runTraced_cons hstep hrun⟩

/-- What the calls of a run leave. -/
theorem run : ∀ {calls before : List Call} {E E' : Expectations} {trace : List (Call × Reply)},
    After before E → runTraced Call.step calls E = some (trace, E') → After (before ++ calls) E'
  | [], before, E, E', trace, h, hrun => by
      cases hrun
      rwa [List.append_nil]
  | c :: rest, before, E, E', trace, h, hrun => by
      obtain ⟨reply, E₁, trace', hstep, hrest, -⟩ := runTraced_cons_inv hrun
      have hafter := run (h.step hstep) hrest
      rwa [List.append_assoc] at hafter

/-- What is left, from the counts. -/
theorem leftover_iff (h : After before E) : ¬ E.Leftover ↔
    (∀ f, UsedUp (declaredResults f before) (mockCalls f before)) ∧
    (∀ f p, UsedUp (declaredChecks f p before) (checkCalls f p before)) ∧
    ∀ order, orderAfter before [] = some order → ∀ entry ∈ order, entry.2 < -1 := by
  rw [Expectations.Leftover, not_or, not_or, not_exists, not_exists]
  refine and_congr ?_ (and_congr ?_ ?_)
  · refine forall_congr' fun f => ?_
    rw [not_not, (h.results f).dropAlways_iff]
  · refine forall_congr' fun f => ?_
    rw [not_exists]
    refine forall_congr' fun p => ?_
    rw [not_not, (h.parameters f p).dropAlways_iff]
  · rw [not_not, List.filter_eq_nil_iff, h.order]
    simp

end After

/-- When a test passes: its function does not fail by itself, every call succeeds
after the calls before it, every function and every parameter has used its values
up, and the expected calls that are left need not come. -/
theorem TestRun.passes_iff {A : Type} (test : TestRun A) : test.result.2 = 0 ↔
    test.ending ≠ .fails ∧ AllAnswered [] (test.calls.map Prod.fst) ∧
    (∀ f, UsedUp (declaredResults f (test.calls.map Prod.fst))
      (mockCalls f (test.calls.map Prod.fst))) ∧
    (∀ f p, UsedUp (declaredChecks f p (test.calls.map Prod.fst))
      (checkCalls f p (test.calls.map Prod.fst))) ∧
    ∀ order, orderAfter (test.calls.map Prod.fst) [] = some order →
      ∀ entry ∈ order, entry.2 < -1 := by
  rw [TestRun.passes_iff_run, ← After.start.run_iff]
  refine and_congr_right fun _ => ?_
  constructor
  · rintro ⟨trace, E, hrun, hleft⟩
    exact ⟨⟨trace, E, hrun⟩, (After.start.run hrun).leftover_iff.mp hleft⟩
  · rintro ⟨⟨trace, E, hrun⟩, hused⟩
    exact ⟨trace, E, hrun, (After.start.run hrun).leftover_iff.mpr hused⟩

/-- The replies to the calls before stay in front. -/
theorem applyCalls_append (rest : List Call) : ∀ {before : List Call} {E E' : Expectations}
    {trace : List (Call × Reply)}, runTraced Call.step before E = some (trace, E') →
    (applyCalls (before ++ rest) E).1 = trace.map Prod.snd ++ (applyCalls rest E').1
  | [], E, E', trace, h => by
      cases h
      rfl
  | c :: before, E, E', trace, h => by
      obtain ⟨reply, E₁, trace', hstep, hrest, rfl⟩ := runTraced_cons_inv h
      obtain ⟨happly, hreply⟩ := Call.step_eq_some hstep
      rw [List.cons_append, applyCalls, happly, if_neg hreply, applyCalls_append rest hrest]
      rfl

theorem head_applyCalls (c : Call) (rest : List Call) (E : Expectations) :
    (applyCalls (c :: rest) E).1[0]? = some (c.apply E).1 := by
  rw [applyCalls]
  split_ifs
  · rfl
  · rfl

/-- The reply to a call of a mock, from the values declared and the calls made before
it; the calls for other functions do not matter. -/
theorem TestRun.reply_to_mock {A : Type} (test : TestRun A) {before after : List Call}
    {function : String} (hcalls : test.calls.map Prod.fst = before ++ .mock function :: after)
    (hbefore : AllAnswered [] before) :
    test.result.1[before.length]? =
      some ((replyAt (declaredResults function before) (mockCalls function before)).elim
        .failed .value) := by
  obtain ⟨trace, E, hrun⟩ := After.start.run_iff.mpr hbefore
  have hlength : trace.length = before.length := by
    rw [← (applyCalls_of_run hrun).2.2, List.length_map]
  have hreplies : test.result.1 =
      trace.map Prod.snd ++ (applyCalls (.mock function :: after) E).1 := by
    rw [← applyCalls_append _ hrun, ← hcalls]
    rfl
  have hnext := ((After.start.run hrun).results function).nextReply_eq
  rw [List.nil_append] at hnext
  rw [hreplies, List.getElem?_append_right (by rw [List.length_map, hlength]), List.length_map,
    hlength, Nat.sub_self, head_applyCalls, ← hnext, Call.apply]
  rcases E.results function with _ | ⟨⟨value, count⟩, rest⟩
  · rfl
  · simp only [nextReply]
    split_ifs
    · rfl
    · rfl

theorem reply_to_mock_mixed : mixedTest.result.1[2]? = some (.value 1) :=
  have hone : (1 : Int) ≠ 0 := by decide
  @TestRun.reply_to_mock Nat mixedTest [.willReturn "g" 2 1, .willReturn "f" 1 1] [.mock "g"] "f"
    rfl ⟨hone, hone, trivial⟩

end TraceRecorderTests.Cmocka
