import TraceRecorderTests.Base.Interleaving
import TraceRecorderTests.Cmocka.OneTest

/-!
# Interleavings of the calls of a test

The calls of a test act on separate queues, one for each function that returns
values, one for each parameter that is checked, and the list of expected calls
(`independent_calls`). So the verdict on a test does not depend on how the calls for
different queues are interleaved (`TestRun.result_interleaving`).
-/

namespace TraceRecorderTests.Cmocka

open Base

/-! ## The queues of a test -/

/-- The queue a call acts on. -/
inductive Channel
  | results (function : String)
  | parameters (function parameter : String)
  | order
  deriving DecidableEq

/-- What the queue consists of. -/
abbrev Channel.Queue : Channel → Type
  | .results _ => List (UIntMax × Int)
  | .parameters _ _ => List (CheckParameterEvent × Int)
  | .order => List (String × Int)

/-- One queue of the expectations. -/
def Expectations.view : (channel : Channel) → Expectations → channel.Queue
  | .results function, E => E.results function
  | .parameters function parameter, E => E.parameters function parameter
  | .order, E => E.order

/-- The queue of a call. -/
def Call.channel : Call → Channel
  | .willReturn function _ _ => .results function
  | .mock function => .results function
  | .expectCheck function parameter _ _ => .parameters function parameter
  | .checkExpected function parameter _ => .parameters function parameter
  | .expectFunctionCall _ _ => .order
  | .functionCalled _ => .order

/-- A call that does not end the test. -/
def Call.step (c : Call) (E : Expectations) : Option (Reply × Expectations) :=
  if (c.apply E).1 = .failed then none else some (c.apply E)

section Local

variable {E F : Expectations} {channel : Channel} {function parameter : String}

theorem Expectations.view_setResults {l : List (UIntMax × Int)} (h : channel ≠ .results function) :
    Expectations.view channel { E with results := Function.update E.results function l } =
      E.view channel := by
  cases channel with
  | results g =>
      have hg : g ≠ function := by simpa using h
      show Function.update E.results function l g = E.results g
      rw [Function.update_of_ne hg]
  | parameters g p => rfl
  | order => rfl

theorem Expectations.view_setParameters {l : List (CheckParameterEvent × Int)}
    (h : channel ≠ .parameters function parameter) :
    Expectations.view channel { E with
      parameters := Function.update E.parameters function
        (Function.update (E.parameters function) parameter l) } = E.view channel := by
  cases channel with
  | results g => rfl
  | parameters g p =>
      show Function.update E.parameters function _ g p = E.parameters g p
      by_cases hg : g = function
      · subst hg
        rw [Function.update_self, Function.update_of_ne (by simpa using h)]
      · rw [Function.update_of_ne hg]
  | order => rfl

theorem Expectations.view_setOrder {l : List (String × Int)} (h : channel ≠ .order) :
    Expectations.view channel { E with order := l } = E.view channel := by
  cases channel with
  | results g => rfl
  | parameters g p => rfl
  | order => exact absurd rfl h

/-- The other queues are left alone. -/
theorem Call.view_apply_of_ne (c : Call) (E : Expectations) (h : channel ≠ c.channel) :
    (c.apply E).2.view channel = E.view channel := by
  cases c with
  | willReturn function value count =>
      simp only [Call.apply]
      split_ifs
      · rfl
      · exact Expectations.view_setResults h
  | mock function =>
      simp only [Call.apply]
      rcases E.results function with _ | ⟨⟨value, count⟩, rest⟩
      · rfl
      · exact Expectations.view_setResults h
  | expectCheck function parameter check count => exact Expectations.view_setParameters h
  | checkExpected function parameter value =>
      simp only [Call.apply]
      rcases E.parameters function parameter with _ | ⟨⟨check, count⟩, rest⟩
      · rfl
      · exact Expectations.view_setParameters h
  | expectFunctionCall function count =>
      simp only [Call.apply]
      split_ifs
      · rfl
      · exact Expectations.view_setOrder h
  | functionCalled function =>
      simp only [Call.apply]
      rcases called function E.order with _ | order
      · rfl
      · exact Expectations.view_setOrder h

/-- The reply, and the queue after the call, depend on the queue of the call. -/
theorem Call.apply_congr (c : Call) (h : E.view c.channel = F.view c.channel) :
    (c.apply E).1 = (c.apply F).1 ∧
      (c.apply E).2.view c.channel = (c.apply F).2.view c.channel := by
  cases c with
  | willReturn function value count =>
      have h : E.results function = F.results function := h
      simp only [Call.apply, Call.channel, Expectations.view, h]
      split_ifs
      · exact ⟨rfl, h⟩
      · simp only [Function.update_self, true_and]
  | mock function =>
      have h : E.results function = F.results function := h
      simp only [Call.apply, Call.channel, Expectations.view, h]
      rcases hq : F.results function with _ | ⟨⟨value, count⟩, rest⟩
      · exact ⟨rfl, h⟩
      · simp only [Function.update_self, true_and]
  | expectCheck function parameter check count =>
      have h : E.parameters function parameter = F.parameters function parameter := h
      simp only [Call.apply, Call.channel, Expectations.view, h, Function.update_self, true_and]
  | checkExpected function parameter value =>
      have h : E.parameters function parameter = F.parameters function parameter := h
      simp only [Call.apply, Call.channel, Expectations.view, h]
      rcases hq : F.parameters function parameter with _ | ⟨⟨check, count⟩, rest⟩
      · exact ⟨rfl, h⟩
      · simp only [Function.update_self, true_and]
  | expectFunctionCall function count =>
      have h : E.order = F.order := h
      simp only [Call.apply, Call.channel, Expectations.view, h]
      split_ifs
      · exact ⟨rfl, h⟩
      · exact ⟨rfl, rfl⟩
  | functionCalled function =>
      have h : E.order = F.order := h
      simp only [Call.apply, Call.channel, Expectations.view, h]
      rcases called function F.order with _ | order
      · exact ⟨rfl, h⟩
      · exact ⟨rfl, rfl⟩

end Local

theorem Call.step_eq_some {c : Call} {E E' : Expectations} {reply : Reply}
    (h : c.step E = some (reply, E')) : c.apply E = (reply, E') ∧ reply ≠ .failed := by
  unfold Call.step at h
  split_ifs at h with hfailed
  have heq := Option.some.inj h
  exact ⟨heq, by rwa [heq] at hfailed⟩

theorem independent_calls : Independent Call.step Call.channel Expectations.view where
  other {c E reply E'} hstep channel hne := by
    have heq : (c.apply E).2 = E' := congrArg Prod.snd (Call.step_eq_some hstep).1
    rw [← heq]
    exact c.view_apply_of_ne E hne
  own {c E F reply E'} hview hstep := by
    obtain ⟨heq, hreply⟩ := Call.step_eq_some hstep
    obtain ⟨hsame, hview'⟩ := c.apply_congr hview
    rw [heq] at hsame hview'
    refine ⟨(c.apply F).2, ?_, hview'.symm⟩
    rw [Call.step, ← hsame, if_neg hreply]
    exact congrArg some (Prod.ext hsame.symm rfl)

/-! ## Interleavings -/

/-- A test whose calls all succeed. -/
theorem applyCalls_of_run : ∀ {calls : List Call} {E E' : Expectations}
    {trace : List (Call × Reply)}, runTraced Call.step calls E = some (trace, E') →
    applyCalls calls E = (trace.map Prod.snd, E') ∧ .failed ∉ trace.map Prod.snd ∧
      trace.map Prod.fst = calls
  | [], E, E', trace, h => by
      cases h
      exact ⟨rfl, List.not_mem_nil, rfl⟩
  | c :: rest, E, E', trace, h => by
      obtain ⟨reply, E₁, trace', hstep, hrest, rfl⟩ := runTraced_cons_inv h
      obtain ⟨happly, hreply⟩ := Call.step_eq_some hstep
      obtain ⟨hcalls, hnot, hfst⟩ := applyCalls_of_run hrest
      refine ⟨?_, ?_, ?_⟩
      · rw [applyCalls, happly, if_neg hreply, hcalls]
        rfl
      · rw [List.map_cons, List.mem_cons, not_or]
        exact ⟨Ne.symm hreply, hnot⟩
      · rw [List.map_cons, hfst]

theorem run_of_applyCalls : ∀ {calls : List Call} {E : Expectations},
    .failed ∉ (applyCalls calls E).1 →
    ∃ trace E', runTraced Call.step calls E = some (trace, E')
  | [], E, _ => ⟨[], E, rfl⟩
  | c :: rest, E, h => by
      by_cases hfailed : (c.apply E).1 = .failed
      · rw [applyCalls, if_pos hfailed, hfailed] at h
        exact absurd List.mem_cons_self h
      · rw [applyCalls, if_neg hfailed] at h
        obtain ⟨trace, E', hrun⟩ := run_of_applyCalls (List.not_mem_of_not_mem_cons h)
        have hstep : c.step E = some ((c.apply E).1, (c.apply E).2) := if_neg hfailed
        exact ⟨_, _, runTraced_cons hstep hrun⟩

section Verdict

variable {A : Type} {test test' : TestRun A}

/-- A test passes when all its calls succeed, it does not fail by itself, and
nothing is left. -/
theorem TestRun.passes_iff_run : test.result.2 = 0 ↔ test.ending ≠ .fails ∧
    ∃ trace E, runTraced Call.step (test.calls.map Prod.fst) Expectations.none = some (trace, E) ∧
      ¬ E.Leftover := by
  rcases happly : applyCalls (test.calls.map Prod.fst) Expectations.none with ⟨replies, E⟩
  by_cases hends : .failed ∈ replies ∨ test.ending = .fails ∨ E.Leftover
  · have hresult : test.result = (replies, -1) :=
      test.result_eq happly (fun _ => rfl) fun hnot => absurd hends hnot
    rw [hresult]
    refine iff_of_false (by omega) ?_
    rintro ⟨hending, trace, E', hrun, hleft⟩
    obtain ⟨hcalls, hnot, -⟩ := applyCalls_of_run hrun
    obtain ⟨rfl, rfl⟩ := Prod.mk.inj (happly.symm.trans hcalls)
    rcases hends with hends | hends | hends
    · exact hnot hends
    · exact hending hends
    · exact hleft hends
  · have hresult : test.result = (replies, 0) :=
      test.result_eq happly (fun hany => absurd hany hends) fun _ => rfl
    rw [hresult]
    rw [not_or, not_or] at hends
    obtain ⟨hnot, hending, hleft⟩ := hends
    obtain ⟨trace, E', hrun⟩ := run_of_applyCalls (by rwa [happly] : .failed ∉ (applyCalls _ _).1)
    obtain ⟨hcalls, -, -⟩ := applyCalls_of_run hrun
    obtain ⟨-, rfl⟩ := Prod.mk.inj (happly.symm.trans hcalls)
    exact iff_of_true rfl ⟨hending, trace, E, hrun, hleft⟩

theorem Expectations.ext_view {E F : Expectations}
    (h : ∀ channel, E.view channel = F.view channel) :
    E = F := by
  obtain ⟨results, parameters, order⟩ := E
  have hresults : results = F.results := funext fun function => h (.results function)
  have hparameters : parameters = F.parameters :=
    funext fun function => funext fun parameter => h (.parameters function parameter)
  have horder : order = F.order := h .order
  rw [hresults, hparameters, horder]

/-- What is left in one queue at the end of a test. -/
def Channel.Left : (channel : Channel) → channel.Queue → Prop
  | .results _, q => dropAlways q ≠ []
  | .parameters _ _, q => dropAlways q ≠ []
  | .order, q => (q.filter fun entry => ¬ entry.2 < -1) ≠ []

theorem Expectations.leftover_iff (E : Expectations) :
    E.Leftover ↔ ∃ channel, Channel.Left channel (E.view channel) := by
  constructor
  · rintro (⟨function, h⟩ | ⟨function, parameter, h⟩ | h)
    · exact ⟨.results function, h⟩
    · exact ⟨.parameters function parameter, h⟩
    · exact ⟨.order, h⟩
  · rintro ⟨channel, h⟩
    cases channel with
    | results function => exact Or.inl ⟨function, h⟩
    | parameters function parameter => exact Or.inr (Or.inl ⟨function, parameter, h⟩)
    | order => exact Or.inr (Or.inr h)

/-- A test passes when the calls for every queue pass by themselves. -/
theorem TestRun.passes_iff_channels : test.result.2 = 0 ↔ test.ending ≠ .fails ∧
    ∀ channel, ∃ trace E, runTraced Call.step
      ((test.calls.map Prod.fst).filter fun c => c.channel = channel) Expectations.none =
        some (trace, E) ∧ ¬ Channel.Left channel (E.view channel) := by
  rw [TestRun.passes_iff_run]
  refine and_congr_right fun _ => ?_
  constructor
  · rintro ⟨trace, E, hrun, hleft⟩ channel
    obtain ⟨E', hfilter, hview⟩ := independent_calls.run_filter channel hrun
    refine ⟨_, E', hfilter, fun h => hleft (E.leftover_iff.mpr ⟨channel, ?_⟩)⟩
    rwa [← hview]
  · intro hall
    obtain ⟨⟨trace, E⟩, hrun⟩ := independent_calls.exists_run fun channel => by
      obtain ⟨trace, E, hrun, -⟩ := hall channel
      exact ⟨_, hrun⟩
    refine ⟨trace, E, hrun, fun hleft => ?_⟩
    obtain ⟨channel, hleft⟩ := E.leftover_iff.mp hleft
    obtain ⟨trace', E', hrun', hnot⟩ := hall channel
    obtain ⟨E₁, hfilter, hview⟩ := independent_calls.run_filter channel hrun
    obtain ⟨-, rfl⟩ := Prod.mk.inj (Option.some.inj (hfilter.symm.trans hrun'))
    exact hnot (by rwa [hview])

theorem TestRun.result_eq_or (test : TestRun A) : test.result.2 = 0 ∨ test.result.2 = -1 := by
  unfold TestRun.result
  simp only
  split_ifs
  · exact Or.inr rfl
  · exact Or.inl rfl

/-- The replies of a test whose calls all succeed. -/
theorem TestRun.zip_replies {trace : List (Call × Reply)} {E : Expectations}
    (h : runTraced Call.step (test.calls.map Prod.fst) Expectations.none = some (trace, E)) :
    (test.calls.map Prod.fst).zip test.result.1 = trace := by
  obtain ⟨hcalls, -, hfst⟩ := applyCalls_of_run h
  have hreplies : test.result.1 = trace.map Prod.snd := congrArg Prod.fst hcalls
  rw [hreplies, ← hfst]
  exact (List.zip_of_prod rfl rfl).symm

private theorem TestRun.passes_of_interleaving
    (hcalls : ∀ channel, ((test'.calls.map Prod.fst).filter fun c => c.channel = channel) =
      (test.calls.map Prod.fst).filter fun c => c.channel = channel)
    (hending : test'.ending = test.ending) (hpass : test.result.2 = 0) :
    test'.result.2 = 0 ∧ ∀ channel,
      (((test'.calls.map Prod.fst).zip test'.result.1).filter fun e => e.1.channel = channel) =
        ((test.calls.map Prod.fst).zip test.result.1).filter fun e => e.1.channel = channel := by
  obtain ⟨hends, trace, E, hrun, hleft⟩ := TestRun.passes_iff_run.mp hpass
  obtain ⟨trace', E', hrun', htrace, hview⟩ := independent_calls.run_interleaving hcalls hrun
  obtain rfl : E' = E := Expectations.ext_view hview
  refine ⟨TestRun.passes_iff_run.mpr ⟨by rwa [hending], trace', E', hrun', hleft⟩, ?_⟩
  rw [TestRun.zip_replies hrun, TestRun.zip_replies hrun']
  exact htrace

/-- Two tests that make the same calls in every queue, however they are interleaved,
have the same verdict; and where they pass, the same replies in every queue. -/
theorem TestRun.result_interleaving (test test' : TestRun A)
    (hcalls : ∀ channel, ((test'.calls.map Prod.fst).filter fun c => c.channel = channel) =
      (test.calls.map Prod.fst).filter fun c => c.channel = channel)
    (hending : test'.ending = test.ending) :
    test'.result.2 = test.result.2 ∧ (test.result.2 = 0 → ∀ channel,
      (((test'.calls.map Prod.fst).zip test'.result.1).filter fun e => e.1.channel = channel) =
        ((test.calls.map Prod.fst).zip test.result.1).filter fun e => e.1.channel = channel) := by
  refine ⟨?_, fun hpass => (TestRun.passes_of_interleaving hcalls hending hpass).2⟩
  rcases test.result_eq_or with hpass | hfail
  · rw [hpass, (TestRun.passes_of_interleaving hcalls hending hpass).1]
  · rcases test'.result_eq_or with hpass' | hfail'
    · have hpass := (TestRun.passes_of_interleaving (fun channel => (hcalls channel).symm)
        hending.symm hpass').1
      omega
    · rw [hfail, hfail']

/-- Two functions, their mocks called one after the other, or by turns. -/
def groupedTest : TestRun Nat where
  calls := [(.willReturn "f" 1 1, []), (.mock "f", []), (.willReturn "g" 2 1, []), (.mock "g", [])]
  ending := .returns

def mixedTest : TestRun Nat where
  calls := [(.willReturn "g" 2 1, []), (.willReturn "f" 1 1, []), (.mock "f", []), (.mock "g", [])]
  ending := .returns

theorem result_interleaving_mixed : mixedTest.result.2 = groupedTest.result.2 := by
  refine (TestRun.result_interleaving groupedTest mixedTest (fun channel => ?_) rfl).1
  by_cases hf : channel = .results "f"
  · subst hf
    simp [groupedTest, mixedTest, Call.channel]
  · by_cases hg : channel = .results "g"
    · subst hg
      simp [groupedTest, mixedTest, Call.channel]
    · simp [groupedTest, mixedTest, Call.channel, Ne.symm hf, Ne.symm hg]

end Verdict

end TraceRecorderTests.Cmocka
