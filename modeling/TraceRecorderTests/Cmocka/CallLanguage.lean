import Mathlib.Computability.Language
import TraceRecorderTests.Cmocka.Channels

/-!
# The orders of calls a test accepts

`expect_function_calls` declares in which order mocks must be called. The sequences
of calls that pass are a language, built from the declarations by concatenation
(`orderLanguage`): a positive count is that many calls of the function, a negative
one makes the function free from there on, and free calls may come at any time. A
function that is free already can not be demanded again: the calls go to the entry
that is in front (`accepted_iff`).
-/

namespace TraceRecorderTests.Cmocka

open Base

/-! ## The language -/

/-- Any calls of these functions. -/
def freeCalls (free : List String) : Language String := {w | ∀ function ∈ w, function ∈ free}

/-- One call. -/
def oneCall (function : String) : Language String := {[function]}

/-- The sequences of calls that use the declarations up, when the functions in
`free` may be called at any time. -/
def orderLanguage (free : List String) : List (String × Int) → Language String
  | [] => freeCalls free
  | (function, count) :: rest =>
      if count < -1 then orderLanguage (free ++ [function]) rest
      else if function ∈ free then 0
      else if count = -1 then
        freeCalls free * oneCall function * orderLanguage (free ++ [function]) rest
      else (freeCalls free * oneCall function) ^ count.toNat * orderLanguage free rest

/-! ## The code -/

/-- A sequence of calls on the list of expected calls. -/
def callAll : List String → List (String × Int) → Option (List (String × Int))
  | [], order => some order
  | function :: rest, order => (called function order).bind (callAll rest)

/-- Every call is expected, and none is missing at the end. -/
def Accepted (calls : List String) (order : List (String × Int)) : Prop :=
  ∃ order', callAll calls order = some order' ∧ ∀ entry ∈ order', entry.2 < -1

theorem accepted_cons (function : String) (calls : List String) (order : List (String × Int)) :
    Accepted (function :: calls) order ↔
      ∃ order', called function order = some order' ∧ Accepted calls order' := by
  simp only [Accepted, callAll, Option.bind_eq_some_iff]
  constructor
  · rintro ⟨order', ⟨order₁, hcalled, hall⟩, hleft⟩
    exact ⟨order₁, hcalled, order', hall, hleft⟩
  · rintro ⟨order₁, hcalled, order', hall, hleft⟩
    exact ⟨order', ⟨order₁, hcalled, hall⟩, hleft⟩

section Free

variable {frees rest : List (String × Int)} {function : String}

/-- A free function is found in front, and the list stays. -/
theorem called_free (hfrees : ∀ e ∈ frees, e.2 < -1) (hmem : function ∈ frees.map Prod.fst) :
    called function (frees ++ rest) = some (frees ++ rest) := by
  induction frees with
  | nil => cases hmem
  | cons e frees ih =>
      obtain ⟨name, count⟩ := e
      have hcount : count < -1 := hfrees (name, count) List.mem_cons_self
      rw [List.cons_append, called]
      by_cases hname : name = function
      · rw [if_pos hname, if_neg (by omega)]
      · rw [List.map_cons, List.mem_cons] at hmem
        rw [if_neg hname, if_neg (by omega), ih (fun d hd => hfrees d (List.mem_cons_of_mem _ hd))
          (hmem.resolve_left (Ne.symm hname)), Option.map_some]

/-- Any other function is looked for behind the free ones. -/
theorem called_notFree (hfrees : ∀ e ∈ frees, e.2 < -1) (hmem : function ∉ frees.map Prod.fst) :
    called function (frees ++ rest) = (called function rest).map (frees ++ ·) := by
  refine called_append (fun e he => ?_) rest
  have hcount := hfrees e he
  have hname : e.1 ≠ function := fun heq => hmem (heq ▸ List.mem_map_of_mem he)
  simp only [stopsAt, hname, false_or, decide_eq_false_iff_not]
  omega

/-- With free functions only, everything that is called must be free. -/
theorem accepted_free (hfrees : ∀ e ∈ frees, e.2 < -1) (calls : List String) :
    Accepted calls frees ↔ ∀ function ∈ calls, function ∈ frees.map Prod.fst := by
  induction calls with
  | nil => exact iff_of_true ⟨frees, rfl, hfrees⟩ (by simp)
  | cons function calls ih =>
      rw [accepted_cons, List.forall_mem_cons, ← ih]
      by_cases hmem : function ∈ frees.map Prod.fst
      · have hcalled : called function (frees ++ []) = some (frees ++ []) :=
          called_free hfrees hmem
        rw [List.append_nil] at hcalled
        rw [hcalled]
        simp [hmem]
      · have hcalled : called function (frees ++ []) = (called function []).map (frees ++ ·) :=
          called_notFree hfrees hmem
        rw [List.append_nil] at hcalled
        rw [hcalled]
        simp [hmem, called]

/-- What is left of an expected call after one call. -/
def afterCall (function : String) (count : Int) (rest : List (String × Int)) :
    List (String × Int) :=
  if count - 1 = 0 then rest else (function, count - 1) :: rest

/-- A call that must come: only free calls before it, and it is not free itself. -/
theorem accepted_must {count : Int} (hfrees : ∀ e ∈ frees, e.2 < -1) (hcount : ¬ count < -1)
    (calls : List String) :
    Accepted calls (frees ++ (function, count) :: rest) ↔ function ∉ frees.map Prod.fst ∧
      ∃ before after, (∀ f ∈ before, f ∈ frees.map Prod.fst) ∧
        calls = before ++ function :: after ∧
        Accepted after (frees ++ afterCall function count rest) := by
  induction calls with
  | nil =>
      refine iff_of_false ?_ ?_
      · rintro ⟨order', hall, hleft⟩
        obtain rfl := Option.some.inj hall
        exact hcount (hleft (function, count) (by simp))
      · rintro ⟨-, before, after, -, hcalls, -⟩
        cases before with
        | nil => cases hcalls
        | cons f before => cases hcalls
  | cons f calls ih =>
      rw [accepted_cons]
      by_cases hmem : f ∈ frees.map Prod.fst
      · rw [called_free hfrees hmem]
        constructor
        · rintro ⟨order', horder, haccepted⟩
          obtain rfl := Option.some.inj horder
          obtain ⟨hnot, before, after, hbefore, rfl, hafter⟩ := ih.mp haccepted
          exact ⟨hnot, f :: before, after, List.forall_mem_cons.mpr ⟨hmem, hbefore⟩, rfl, hafter⟩
        · rintro ⟨hnot, before, after, hbefore, hcalls, hafter⟩
          refine ⟨_, rfl, ih.mpr ⟨hnot, ?_⟩⟩
          cases before with
          | nil =>
              obtain ⟨rfl, -⟩ := List.cons.inj hcalls
              exact absurd hmem hnot
          | cons g before =>
              obtain ⟨-, rfl⟩ := List.cons.inj hcalls
              exact ⟨before, after, (List.forall_mem_cons.mp hbefore).2, rfl, hafter⟩
      · rw [called_notFree hfrees hmem, called]
        by_cases hf : function = f
        · subst hf
          rw [if_pos rfl, if_pos (by omega)]
          constructor
          · rintro ⟨order', horder, haccepted⟩
            refine ⟨hmem, [], calls, by simp, rfl, ?_⟩
            obtain rfl := Option.some.inj horder
            exact haccepted
          · rintro ⟨-, before, after, hbefore, hcalls, hafter⟩
            refine ⟨_, rfl, ?_⟩
            cases before with
            | nil =>
                obtain ⟨-, rfl⟩ := List.cons.inj hcalls
                exact hafter
            | cons g before =>
                obtain ⟨rfl, -⟩ := List.cons.inj hcalls
                exact absurd (hbefore _ List.mem_cons_self) hmem
        · rw [if_neg hf, if_pos (by omega)]
          refine iff_of_false (by simp) ?_
          rintro ⟨-, before, after, hbefore, hcalls, -⟩
          cases before with
          | nil =>
              obtain ⟨rfl, -⟩ := List.cons.inj hcalls
              exact hf rfl
          | cons g before =>
              obtain ⟨rfl, -⟩ := List.cons.inj hcalls
              exact hmem (hbefore _ List.mem_cons_self)

end Free

theorem mem_must_mul {free : List String} {function : String} {L : Language String}
    {calls : List String} : calls ∈ freeCalls free * oneCall function * L ↔
      ∃ before after, (∀ f ∈ before, f ∈ free) ∧ calls = before ++ function :: after ∧
        after ∈ L := by
  simp only [Language.mem_mul]
  constructor
  · rintro ⟨front, ⟨before, hbefore, one, hone, rfl⟩, after, hafter, rfl⟩
    obtain rfl : one = [function] := hone
    exact ⟨before, after, hbefore, by simp, hafter⟩
  · rintro ⟨before, after, hbefore, rfl, hafter⟩
    exact ⟨before ++ [function], ⟨before, hbefore, [function], rfl, rfl⟩, after, hafter, by simp⟩

/-- The calls that pass are those of the language. -/
theorem accepted_append_iff : ∀ {rest frees : List (String × Int)} {calls : List String},
    (∀ e ∈ frees, e.2 < -1) → (∀ e ∈ rest, e.2 ≠ 0) →
    (Accepted calls (frees ++ rest) ↔ calls ∈ orderLanguage (frees.map Prod.fst) rest)
  | [], frees, calls, hfrees, _ => by
      rw [List.append_nil]
      exact accepted_free hfrees calls
  | (function, count) :: rest, frees, calls, hfrees, hcounts => by
      have hne : count ≠ 0 := hcounts (function, count) List.mem_cons_self
      have hrest : ∀ e ∈ rest, e.2 ≠ 0 := fun e he => hcounts e (List.mem_cons_of_mem _ he)
      -- a free entry joins those in front
      have hjoin : ∀ {c : Int} {calls : List String}, c < -1 →
          (Accepted calls (frees ++ (function, c) :: rest) ↔
            calls ∈ orderLanguage (frees.map Prod.fst ++ [function]) rest) := by
        intro c calls hc
        have hfrees' : ∀ e ∈ frees ++ [(function, c)], e.2 < -1 := by
          intro e he
          rcases List.mem_append.mp he with he | he
          · exact hfrees e he
          · obtain rfl := List.mem_singleton.mp he
            exact hc
        have ih := @accepted_append_iff rest (frees ++ [(function, c)]) calls hfrees' hrest
        rwa [List.append_assoc, List.map_append] at ih
      rw [orderLanguage]
      by_cases hfree : count < -1
      · rw [if_pos hfree]
        exact hjoin hfree
      · rw [if_neg hfree]
        by_cases hmem : function ∈ frees.map Prod.fst
        · rw [if_pos hmem, accepted_must hfrees hfree]
          exact iff_of_false (fun h => h.1 hmem) (Language.notMem_zero calls)
        · rw [if_neg hmem]
          by_cases honce : count = -1
          · subst honce
            rw [if_pos rfl, accepted_must hfrees hfree, mem_must_mul, and_iff_right hmem]
            refine exists_congr fun before => exists_congr fun after => ?_
            rw [afterCall, if_neg (by omega), hjoin (by omega)]
          · rw [if_neg honce]
            -- the induction is on how many calls are still due
            have hdue : ∀ (n : Nat) (calls : List String),
                (Accepted calls (frees ++ if n = 0 then rest else (function, (n : Int)) :: rest) ↔
                  calls ∈ (freeCalls (frees.map Prod.fst) * oneCall function) ^ n *
                    orderLanguage (frees.map Prod.fst) rest) := by
              intro n
              induction n with
              | zero =>
                  intro calls
                  rw [if_pos rfl, pow_zero, one_mul]
                  exact accepted_append_iff hfrees hrest
              | succ n ih =>
                  intro calls
                  rw [if_neg (Nat.succ_ne_zero n), accepted_must hfrees (by omega), pow_succ',
                    mul_assoc, mem_must_mul, and_iff_right hmem]
                  refine exists_congr fun before => exists_congr fun after => ?_
                  have hnext : afterCall function ((n + 1 : Nat) : Int) rest =
                      if n = 0 then rest else (function, (n : Int)) :: rest := by
                    rw [afterCall]
                    by_cases hn : n = 0
                    · rw [if_pos hn, if_pos (by omega)]
                    · rw [if_neg hn, if_neg (by omega)]
                      congr 2
                      omega
                  rw [hnext, ih]
            have hcount := hdue count.toNat calls
            rwa [if_neg (by omega), Int.toNat_of_nonneg (by omega)] at hcount

/-! ## In a test -/

/-- Declarations go to the end of the list. -/
theorem run_declared : ∀ {declared : List (String × Int)} (E : Expectations),
    (∀ e ∈ declared, e.2 ≠ 0) →
    ∃ trace, runTraced Call.step (declared.map fun e => .expectFunctionCall e.1 e.2) E =
      some (trace, { E with order := E.order ++ declared })
  | [], E, _ => ⟨[], by rw [List.append_nil]; rfl⟩
  | (function, count) :: declared, E, hcounts => by
      have hne : count ≠ 0 := hcounts (function, count) List.mem_cons_self
      have hstep : (Call.expectFunctionCall function count).step E =
          some (.done, { E with order := E.order ++ [(function, count)] }) := by
        rw [Call.step, Call.apply, if_neg hne, if_neg (by simp)]
      obtain ⟨trace, hrun⟩ := run_declared { E with order := E.order ++ [(function, count)] }
        fun e he => hcounts e (List.mem_cons_of_mem _ he)
      rw [List.append_assoc] at hrun
      exact ⟨_, runTraced_cons hstep hrun⟩

/-- Calls of mocks that were declared pass as `Accepted` says. -/
theorem run_called : ∀ {calls : List String} {E : Expectations},
    (∃ trace E', runTraced Call.step (calls.map Call.functionCalled) E = some (trace, E') ∧
      ¬ Channel.Left .order E'.order) ↔ Accepted calls E.order
  | [], E => by
      have hleft : ¬ Channel.Left .order E.order ↔ ∀ entry ∈ E.order, entry.2 < -1 := by
        simp [Channel.Left, List.filter_eq_nil_iff]
      constructor
      · rintro ⟨trace, E', hrun, hnot⟩
        obtain ⟨-, rfl⟩ := Prod.mk.inj (Option.some.inj hrun)
        exact ⟨E.order, rfl, hleft.mp hnot⟩
      · rintro ⟨order', hall, hnot⟩
        obtain rfl := Option.some.inj hall
        exact ⟨[], E, rfl, hleft.mpr hnot⟩
  | function :: calls, E => by
      rw [accepted_cons]
      constructor
      · rintro ⟨trace, E', hrun, hnot⟩
        obtain ⟨reply, E₁, trace', hstep, hrest, -⟩ := runTraced_cons_inv hrun
        obtain ⟨happly, hreply⟩ := Call.step_eq_some hstep
        rw [Call.apply] at happly
        rcases hcalled : called function E.order with _ | order
        · rw [hcalled] at happly
          exact absurd (congrArg Prod.fst happly).symm hreply
        · rw [hcalled] at happly
          obtain ⟨-, rfl⟩ := Prod.mk.inj happly
          exact ⟨order, rfl, run_called.mp ⟨trace', E', hrest, hnot⟩⟩
      · rintro ⟨order, hcalled, haccepted⟩
        have hstep : (Call.functionCalled function).step E =
            some (.done, { E with order := order }) := by
          rw [Call.step, Call.apply, hcalled, if_neg (by simp)]
        obtain ⟨trace, E', hrun, hnot⟩ :=
          (run_called (E := { E with order := order })).mpr haccepted
        exact ⟨_, E', runTraced_cons hstep hrun, hnot⟩

/-- A test without the calls that are about their order. -/
def TestRun.withoutOrder {A : Type} (test : TestRun A) : TestRun A :=
  { test with calls := test.calls.filter fun c => c.1.channel ≠ .order }

theorem TestRun.filter_withoutOrder {A : Type} (test : TestRun A) {channel : Channel}
    (h : channel ≠ .order) :
    ((test.withoutOrder.calls.map Prod.fst).filter fun c => c.channel = channel) =
      (test.calls.map Prod.fst).filter fun c => c.channel = channel := by
  rw [withoutOrder, List.filter_map, List.filter_map, List.filter_filter]
  refine congrArg _ (List.filter_congr fun c _ => ?_)
  by_cases hc : c.1.channel = channel
  · simp [hc, h]
  · simp [hc]

theorem TestRun.filter_order_withoutOrder {A : Type} (test : TestRun A) :
    ((test.withoutOrder.calls.map Prod.fst).filter fun c => c.channel = .order) = [] := by
  rw [withoutOrder, List.filter_map, List.filter_filter, List.map_eq_nil_iff,
    List.filter_eq_nil_iff]
  intro c _
  simp

/-- Declarations first, then calls: the language decides. -/
theorem run_order_iff {declared : List (String × Int)} {calls : List String}
    (hcounts : ∀ e ∈ declared, e.2 ≠ 0) :
    (∃ trace E, runTraced Call.step (declared.map (fun e => .expectFunctionCall e.1 e.2) ++
        calls.map .functionCalled) Expectations.none = some (trace, E) ∧
      ¬ Channel.Left .order (E.view .order)) ↔ calls ∈ orderLanguage [] declared := by
  have haccepted : Accepted calls ([] ++ declared) ↔ calls ∈ orderLanguage [] declared :=
    accepted_append_iff (by simp) hcounts
  obtain ⟨trace, hdeclared⟩ := run_declared Expectations.none hcounts
  rw [← haccepted, runTraced_append _ hdeclared]
  refine Iff.trans ?_ (run_called (E := { Expectations.none with order := [] ++ declared }))
  constructor
  · rintro ⟨trace', E, hrun, hleft⟩
    obtain ⟨⟨trace₁, E₁⟩, hcalled, heq⟩ := Option.map_eq_some_iff.mp hrun
    obtain ⟨-, rfl⟩ := Prod.mk.inj heq
    exact ⟨trace₁, E₁, hcalled, hleft⟩
  · rintro ⟨trace', E, hrun, hleft⟩
    exact ⟨trace ++ trace', E, Option.map_eq_some_iff.mpr ⟨_, hrun, rfl⟩, hleft⟩

/-- A test that declares its expected calls before they come passes when the calls
are in the language of the declarations, and the rest of the test passes. -/
theorem TestRun.passes_iff_orderLanguage {A : Type} (test : TestRun A)
    {declared : List (String × Int)} {calls : List String}
    (horder : ((test.calls.map Prod.fst).filter fun c => c.channel = .order) =
      declared.map (fun e => .expectFunctionCall e.1 e.2) ++ calls.map .functionCalled)
    (hcounts : ∀ e ∈ declared, e.2 ≠ 0) :
    test.result.2 = 0 ↔ calls ∈ orderLanguage [] declared ∧ test.withoutOrder.result.2 = 0 := by
  rw [TestRun.passes_iff_channels, TestRun.passes_iff_channels]
  constructor
  · rintro ⟨hending, hall⟩
    have hown := hall .order
    rw [horder] at hown
    refine ⟨(run_order_iff hcounts).mp hown, hending, fun channel => ?_⟩
    by_cases hchannel : channel = .order
    · subst hchannel
      rw [test.filter_order_withoutOrder]
      exact ⟨[], Expectations.none, rfl, fun hleft => hleft rfl⟩
    · rw [test.filter_withoutOrder hchannel]
      exact hall channel
  · rintro ⟨hmem, hending, hall⟩
    refine ⟨hending, fun channel => ?_⟩
    by_cases hchannel : channel = .order
    · subst hchannel
      rw [horder]
      exact (run_order_iff hcounts).mpr hmem
    · rw [← test.filter_withoutOrder hchannel]
      exact hall channel

/-- Two calls of `f`, and then `g` is free. -/
def orderedTest : TestRun Nat where
  calls := [(.expectFunctionCall "f" 2, []), (.expectFunctionCall "g" (-2), []),
    (.functionCalled "f", []), (.functionCalled "f", []), (.functionCalled "g", [])]
  ending := .returns

theorem orderedTest_passes : orderedTest.result.2 = 0 := by
  have haccepted : Accepted ["f", "f", "g"] ([] ++ [("f", 2), ("g", -2)]) :=
    ⟨[("g", -2)], rfl, by simp⟩
  have hmem : ["f", "f", "g"] ∈ orderLanguage [] [("f", 2), ("g", -2)] :=
    (accepted_append_iff (by simp) (by simp)).mp haccepted
  have hrest : orderedTest.withoutOrder.result.2 = 0 :=
    TestRun.passes_iff_run.mpr ⟨by simp [orderedTest, TestRun.withoutOrder], [], Expectations.none,
      rfl, by simp [Expectations.Leftover, Expectations.none, dropAlways]⟩
  exact (orderedTest.passes_iff_orderLanguage rfl (by simp)).mpr ⟨hmem, hrest⟩

end TraceRecorderTests.Cmocka
