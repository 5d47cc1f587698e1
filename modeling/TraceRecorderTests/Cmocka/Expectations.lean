import TraceRecorderTests.Cmocka.CallOrder
import TraceRecorderTests.Cmocka.SymbolGet

/-!
# What a test expects of its mocks

The calls by which a test and its mocks use cmocka: `_will_return`, `_expect_check`
and `_expect_function_call` set expectations up, `_mock`, `_check_expected` and
`_function_called` use them up, and at the end of the test `has_leftover_values`
asks whether any is left and `teardown_testing` frees them. `Call.run` is a call as
the code runs it on the heap; `Call.apply` is the same call on `Expectations`,
three collections of queues.
-/

namespace TraceRecorderTests.Cmocka

variable {A : Type}

/-- The global list heads. -/
structure Heads (A : Type) where
  functionResultMapHead : A
  functionParameterMapHead : A
  callOrderingHead : A

/-- What a call returns to the test; `failed` is `exit_test(true)`, the test ends
there. -/
inductive Reply
  | done
  | value (v : UIntMax)
  | failed
  deriving DecidableEq, Repr

/-- The calls of a test and of its mocks. -/
inductive Call
  | willReturn (function : String) (value : UIntMax) (count : Int)
  | mock (function : String)
  | expectCheck (function parameter : String) (check : CheckParameterEvent) (count : Int)
  | checkExpected (function parameter : String) (value : UIntMax)
  | expectFunctionCall (function : String) (count : Int)
  | functionCalled (function : String)

/-! ## On the heap -/

section Code

variable [DecidableEq A] (fuel : Nat) (heads : Heads A)

/-- `_will_return`. The value is allocated before the count is checked. -/
def willReturn (σ : Heap A MockValue) (function : String) (value : UIntMax) (count : Int) :
    Option (Reply × Heap A MockValue) := do
  let (returnValue, σ) ← σ.malloc fun _ => .value (.symbolValue value)
  if count = 0 then return (.failed, σ)
  let σ ← addSymbolValue fuel returnValue count [function] σ heads.functionResultMapHead
  return (.done, σ)

/-- `_mock`. -/
def mock (σ : Heap A MockValue) (function : String) : Option (Reply × Heap A MockValue) := do
  match ← getSymbolValue fuel [function] σ heads.functionResultMapHead with
  | (some (result, rc), σ) => do
      if rc = 0 then return (.failed, σ)
      match ← σ.valueAt result with
      | .symbolValue value => do
          let σ ← if rc = 1 then σ.free result else some σ
          return (.value value, σ)
      | _ => none
  | (none, σ) => return (.failed, σ)

/-- `_expect_check`, and the functions that call it: the event is allocated in the
one or in the other. -/
def expectCheck (σ : Heap A MockValue) (function parameter : String)
    (check : CheckParameterEvent) (count : Int) : Option (Reply × Heap A MockValue) := do
  let (event, σ) ← σ.malloc fun _ => .value (.checkParameterEvent check)
  let σ ← addSymbolValue fuel event count [function, parameter] σ heads.functionParameterMapHead
  return (.done, σ)

/-- `_check_expected`. -/
def checkExpected (σ : Heap A MockValue) (function parameter : String) (value : UIntMax) :
    Option (Reply × Heap A MockValue) := do
  match ← getSymbolValue fuel [function, parameter] σ heads.functionParameterMapHead with
  | (some (result, rc), σ) => do
      if rc = 0 then return (.failed, σ)
      match ← σ.valueAt result with
      | .checkParameterEvent check => do
          let σ ← if rc = 1 then σ.free result else some σ
          if check.checkValue value check.checkValueData then return (.done, σ)
          else return (.failed, σ)
      | _ => none
  | (none, σ) => return (.failed, σ)

/-- `_expect_function_call`. -/
def expectFunctionCall (σ : Heap A MockValue) (function : String) (count : Int) :
    Option (Reply × Heap A MockValue) := do
  if count = 0 then return (.failed, σ)
  let (ordering, σ) ← σ.malloc fun _ => .value (.funcOrderingValue function)
  let (_, σ) ← listAddValue σ heads.callOrderingHead ordering count
  return (.done, σ)

/-- A call, as the code runs it. -/
def Call.run (σ : Heap A MockValue) : Call → Option (Reply × Heap A MockValue)
  | .willReturn function value count => Cmocka.willReturn fuel heads σ function value count
  | .mock function => Cmocka.mock fuel heads σ function
  | .expectCheck function parameter check count =>
      Cmocka.expectCheck fuel heads σ function parameter check count
  | .checkExpected function parameter value =>
      Cmocka.checkExpected fuel heads σ function parameter value
  | .expectFunctionCall function count => Cmocka.expectFunctionCall heads σ function count
  | .functionCalled function => do
      let (expected, σ) ← Cmocka.functionCalled fuel σ heads.callOrderingHead function
      return (if expected then .done else .failed, σ)

/-- `has_leftover_values`. -/
def hasLeftoverValues (σ : Heap A MockValue) : Option (Bool × Heap A MockValue) := do
  let σ ← removeAlwaysReturnValues fuel 1 σ heads.functionResultMapHead
  let results ← checkForLeftoverValues fuel σ heads.functionResultMapHead
  let σ ← removeAlwaysReturnValues fuel 2 σ heads.functionParameterMapHead
  let parameters ← checkForLeftoverValues fuel σ heads.functionParameterMapHead
  let σ ← removeAlwaysReturnValuesFromList fuel σ heads.callOrderingHead
  let calls ← checkForLeftoverValuesList fuel σ heads.callOrderingHead
  return (results ≠ 0 ∨ parameters ≠ 0 ∨ calls ≠ 0, σ)

/-- `teardown_testing`. -/
def teardownTesting (σ : Heap A MockValue) : Option (Heap A MockValue) := do
  let σ ← listFree heads.functionResultMapHead (freeSymbolMapValue fuel 0) fuel σ
  let σ ← listFree heads.functionParameterMapHead (freeSymbolMapValue fuel 1) fuel σ
  listFree heads.callOrderingHead freeValue fuel σ

/-- `initialize_testing`. -/
def initializeTesting (σ : Heap A MockValue) : Option (Heap A MockValue) := do
  let σ ← listInitialize σ heads.functionResultMapHead
  let σ ← listInitialize σ heads.functionParameterMapHead
  listInitialize σ heads.callOrderingHead

end Code

/-! ## On queues -/

/-- What is expected: the values each function returns, the checks of each
parameter, and the calls in their order, each with its count. -/
structure Expectations where
  results : String → List (UIntMax × Int)
  parameters : String → String → List (CheckParameterEvent × Int)
  order : List (String × Int)

/-- Nothing is expected. -/
def Expectations.none : Expectations := ⟨fun _ => [], fun _ _ => [], []⟩

/-- A call on the queues. -/
def Call.apply (E : Expectations) : Call → Reply × Expectations
  | .willReturn function value count =>
      if count = 0 then (.failed, E)
      else (.done, { E with
        results := Function.update E.results function (E.results function ++ [(value, count)]) })
  | .mock function =>
      match E.results function with
      | [] => (.failed, E)
      | (value, count) :: rest =>
          (if count = 0 then .failed else .value value, { E with
            results := Function.update E.results function (served ((value, count) :: rest)) })
  | .expectCheck function parameter check count =>
      (.done, { E with
        parameters := Function.update E.parameters function
          (Function.update (E.parameters function) parameter
            (E.parameters function parameter ++ [(check, count)])) })
  | .checkExpected function parameter value =>
      match E.parameters function parameter with
      | [] => (.failed, E)
      | (check, count) :: rest =>
          (if count = 0 then .failed
            else if check.checkValue value check.checkValueData then .done else .failed, { E with
            parameters := Function.update E.parameters function
              (Function.update (E.parameters function) parameter
                (served ((check, count) :: rest))) })
  | .expectFunctionCall function count =>
      if count = 0 then (.failed, E)
      else (.done, { E with order := E.order ++ [(function, count)] })
  | .functionCalled function =>
      match called function E.order with
      | none => (.failed, E)
      | some order => (.done, { E with order := order })

/-- What is left at the end: the queues without the values that need not be used
up. -/
def Expectations.Leftover (E : Expectations) : Prop :=
  (∃ function, dropAlways (E.results function) ≠ []) ∨
    (∃ function parameter, dropAlways (E.parameters function parameter) ≠ []) ∨
    (E.order.filter fun entry => ¬ entry.2 < -1) ≠ []

end TraceRecorderTests.Cmocka
