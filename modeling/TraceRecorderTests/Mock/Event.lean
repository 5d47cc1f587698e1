import TraceRecorderTests.Mock.State

/-!
# The event mock

`trcEvent.h` replaces the fourteen event-creating functions of the recorder by
macros that store their arguments in nine globals, and pairs each of them with
an `assert_int_equal_cs_create*` helper that clears the globals, evaluates the
expression under test and compares the globals with the expected arguments.
The macros and helpers below are the source's own lists, slot by slot.
-/

namespace TraceRecorderTests.Mock

open Base

variable {ws : WordSize}

/-! ## The recording macros -/

/-- A recording macro: a comma expression of assignments, and its value. -/
structure CommaExpr (ws : WordSize) where
  assignments : List (Assign ws)
  value : TraceResult

def xTraceEventCreate0 (uiEventCode : Word ws) : CommaExpr ws :=
  ⟨[⟨.uiEventCode, uiEventCode⟩], .TRC_SUCCESS⟩

def xTraceEventCreate1 (uiEventCode uxParam1 : Word ws) : CommaExpr ws :=
  ⟨[⟨.uiEventCode, uiEventCode⟩, ⟨.uxValue 0, uxParam1⟩], .TRC_SUCCESS⟩

def xTraceEventCreate2 (uiEventCode uxParam1 uxParam2 : Word ws) : CommaExpr ws :=
  ⟨[⟨.uiEventCode, uiEventCode⟩, ⟨.uxValue 0, uxParam1⟩, ⟨.uxValue 1, uxParam2⟩],
    .TRC_SUCCESS⟩

def xTraceEventCreate3 (uiEventCode uxParam1 uxParam2 uxParam3 : Word ws) :
    CommaExpr ws :=
  ⟨[⟨.uiEventCode, uiEventCode⟩, ⟨.uxValue 0, uxParam1⟩, ⟨.uxValue 1, uxParam2⟩,
    ⟨.uxValue 2, uxParam3⟩], .TRC_SUCCESS⟩

def xTraceEventCreate4 (uiEventCode uxParam1 uxParam2 uxParam3 uxParam4 : Word ws) :
    CommaExpr ws :=
  ⟨[⟨.uiEventCode, uiEventCode⟩, ⟨.uxValue 0, uxParam1⟩, ⟨.uxValue 1, uxParam2⟩,
    ⟨.uxValue 2, uxParam3⟩, ⟨.uxValue 3, uxParam4⟩], .TRC_SUCCESS⟩

def xTraceEventCreate5
    (uiEventCode uxParam1 uxParam2 uxParam3 uxParam4 uxParam5 : Word ws) :
    CommaExpr ws :=
  ⟨[⟨.uiEventCode, uiEventCode⟩, ⟨.uxValue 0, uxParam1⟩, ⟨.uxValue 1, uxParam2⟩,
    ⟨.uxValue 2, uxParam3⟩, ⟨.uxValue 3, uxParam4⟩, ⟨.uxValue 4, uxParam5⟩],
    .TRC_SUCCESS⟩

def xTraceEventCreate6
    (uiEventCode uxParam1 uxParam2 uxParam3 uxParam4 uxParam5 uxParam6 : Word ws) :
    CommaExpr ws :=
  ⟨[⟨.uiEventCode, uiEventCode⟩, ⟨.uxValue 0, uxParam1⟩, ⟨.uxValue 1, uxParam2⟩,
    ⟨.uxValue 2, uxParam3⟩, ⟨.uxValue 3, uxParam4⟩, ⟨.uxValue 4, uxParam5⟩,
    ⟨.uxValue 5, uxParam6⟩], .TRC_SUCCESS⟩

def xTraceEventCreateData0 (uiEventCode : Word ws) (pxBuffer : VoidPtr)
    (uxSize : Word ws) : CommaExpr ws :=
  ⟨[⟨.uiEventCode, uiEventCode⟩, ⟨.pxBuffer, pxBuffer⟩, ⟨.uxSize, uxSize⟩],
    .TRC_SUCCESS⟩

def xTraceEventCreateData1 (uiEventCode uxParam1 : Word ws) (pxBuffer : VoidPtr)
    (uxSize : Word ws) : CommaExpr ws :=
  ⟨[⟨.uiEventCode, uiEventCode⟩, ⟨.uxValue 0, uxParam1⟩, ⟨.pxBuffer, pxBuffer⟩,
    ⟨.uxSize, uxSize⟩], .TRC_SUCCESS⟩

def xTraceEventCreateData2 (uiEventCode uxParam1 uxParam2 : Word ws)
    (pxBuffer : VoidPtr) (uxSize : Word ws) : CommaExpr ws :=
  ⟨[⟨.uiEventCode, uiEventCode⟩, ⟨.uxValue 0, uxParam1⟩, ⟨.uxValue 1, uxParam2⟩,
    ⟨.pxBuffer, pxBuffer⟩, ⟨.uxSize, uxSize⟩], .TRC_SUCCESS⟩

def xTraceEventCreateData3 (uiEventCode uxParam1 uxParam2 uxParam3 : Word ws)
    (pxBuffer : VoidPtr) (uxSize : Word ws) : CommaExpr ws :=
  ⟨[⟨.uiEventCode, uiEventCode⟩, ⟨.uxValue 0, uxParam1⟩, ⟨.uxValue 1, uxParam2⟩,
    ⟨.uxValue 2, uxParam3⟩, ⟨.pxBuffer, pxBuffer⟩, ⟨.uxSize, uxSize⟩],
    .TRC_SUCCESS⟩

def xTraceEventCreateData4
    (uiEventCode uxParam1 uxParam2 uxParam3 uxParam4 : Word ws)
    (pxBuffer : VoidPtr) (uxSize : Word ws) : CommaExpr ws :=
  ⟨[⟨.uiEventCode, uiEventCode⟩, ⟨.uxValue 0, uxParam1⟩, ⟨.uxValue 1, uxParam2⟩,
    ⟨.uxValue 2, uxParam3⟩, ⟨.uxValue 3, uxParam4⟩, ⟨.pxBuffer, pxBuffer⟩,
    ⟨.uxSize, uxSize⟩], .TRC_SUCCESS⟩

def xTraceEventCreateData5
    (uiEventCode uxParam1 uxParam2 uxParam3 uxParam4 uxParam5 : Word ws)
    (pxBuffer : VoidPtr) (uxSize : Word ws) : CommaExpr ws :=
  ⟨[⟨.uiEventCode, uiEventCode⟩, ⟨.uxValue 0, uxParam1⟩, ⟨.uxValue 1, uxParam2⟩,
    ⟨.uxValue 2, uxParam3⟩, ⟨.uxValue 3, uxParam4⟩, ⟨.uxValue 4, uxParam5⟩,
    ⟨.pxBuffer, pxBuffer⟩, ⟨.uxSize, uxSize⟩], .TRC_SUCCESS⟩

def xTraceEventCreateData6
    (uiEventCode uxParam1 uxParam2 uxParam3 uxParam4 uxParam5 uxParam6 : Word ws)
    (pxBuffer : VoidPtr) (uxSize : Word ws) : CommaExpr ws :=
  ⟨[⟨.uiEventCode, uiEventCode⟩, ⟨.uxValue 0, uxParam1⟩, ⟨.uxValue 1, uxParam2⟩,
    ⟨.uxValue 2, uxParam3⟩, ⟨.uxValue 3, uxParam4⟩, ⟨.uxValue 4, uxParam5⟩,
    ⟨.uxValue 5, uxParam6⟩, ⟨.pxBuffer, pxBuffer⟩, ⟨.uxSize, uxSize⟩],
    .TRC_SUCCESS⟩

/-- A use of one of the fourteen macros with its arguments. The argument tuple
of the helper belonging to a macro has the same shape. -/
inductive EventArgs (ws : WordSize)
  | create0 (c : Word ws)
  | create1 (c v0 : Word ws)
  | create2 (c v0 v1 : Word ws)
  | create3 (c v0 v1 v2 : Word ws)
  | create4 (c v0 v1 v2 v3 : Word ws)
  | create5 (c v0 v1 v2 v3 v4 : Word ws)
  | create6 (c v0 v1 v2 v3 v4 v5 : Word ws)
  | createData0 (c : Word ws) (p : VoidPtr) (s : Word ws)
  | createData1 (c v0 : Word ws) (p : VoidPtr) (s : Word ws)
  | createData2 (c v0 v1 : Word ws) (p : VoidPtr) (s : Word ws)
  | createData3 (c v0 v1 v2 : Word ws) (p : VoidPtr) (s : Word ws)
  | createData4 (c v0 v1 v2 v3 : Word ws) (p : VoidPtr) (s : Word ws)
  | createData5 (c v0 v1 v2 v3 v4 : Word ws) (p : VoidPtr) (s : Word ws)
  | createData6 (c v0 v1 v2 v3 v4 v5 : Word ws) (p : VoidPtr) (s : Word ws)
  deriving DecidableEq

/-- The recording macro a use expands to. -/
def EventArgs.recording : EventArgs ws → CommaExpr ws
  | .create0 c => xTraceEventCreate0 c
  | .create1 c v0 => xTraceEventCreate1 c v0
  | .create2 c v0 v1 => xTraceEventCreate2 c v0 v1
  | .create3 c v0 v1 v2 => xTraceEventCreate3 c v0 v1 v2
  | .create4 c v0 v1 v2 v3 => xTraceEventCreate4 c v0 v1 v2 v3
  | .create5 c v0 v1 v2 v3 v4 => xTraceEventCreate5 c v0 v1 v2 v3 v4
  | .create6 c v0 v1 v2 v3 v4 v5 => xTraceEventCreate6 c v0 v1 v2 v3 v4 v5
  | .createData0 c p s => xTraceEventCreateData0 c p s
  | .createData1 c v0 p s => xTraceEventCreateData1 c v0 p s
  | .createData2 c v0 v1 p s => xTraceEventCreateData2 c v0 v1 p s
  | .createData3 c v0 v1 v2 p s => xTraceEventCreateData3 c v0 v1 v2 p s
  | .createData4 c v0 v1 v2 v3 p s => xTraceEventCreateData4 c v0 v1 v2 v3 p s
  | .createData5 c v0 v1 v2 v3 v4 p s => xTraceEventCreateData5 c v0 v1 v2 v3 v4 p s
  | .createData6 c v0 v1 v2 v3 v4 v5 p s =>
      xTraceEventCreateData6 c v0 v1 v2 v3 v4 v5 p s

/-! ## Clearing and verifying -/

/-- `prvClearEventData`. -/
def prvClearEventData (s : MockState ws) : MockState ws :=
  s.assign [⟨.uiEventCode, 0⟩, ⟨.uxValue 0, 0⟩, ⟨.uxValue 1, 0⟩, ⟨.uxValue 2, 0⟩,
    ⟨.uxValue 3, 0⟩, ⟨.uxValue 4, 0⟩, ⟨.uxValue 5, 0⟩, ⟨.pxBuffer, .null⟩,
    ⟨.uxSize, 0⟩]

/-- `prvVerifyEventCreate`: nine assertions in the source's order, the payload
bytes before the payload size. -/
def prvVerifyEventCreate (s : MockState ws) (uiEventCode v0 v1 v2 v3 v4 v5 : Word ws)
    (pxBuffer : VoidPtr) (uxSize : Word ws) : Check Int := do
  assertIntEqualCs s (castToIntmaxType (s.event .uiEventCode))
    (castToIntmaxType uiEventCode)
  assertIntEqualCs s (castToIntmaxType (s.event (.uxValue 0))) (castToIntmaxType v0)
  assertIntEqualCs s (castToIntmaxType (s.event (.uxValue 1))) (castToIntmaxType v1)
  assertIntEqualCs s (castToIntmaxType (s.event (.uxValue 2))) (castToIntmaxType v2)
  assertIntEqualCs s (castToIntmaxType (s.event (.uxValue 3))) (castToIntmaxType v3)
  assertIntEqualCs s (castToIntmaxType (s.event (.uxValue 4))) (castToIntmaxType v4)
  assertIntEqualCs s (castToIntmaxType (s.event (.uxValue 5))) (castToIntmaxType v5)
  assertMemoryEqual s.memory (s.event .pxBuffer) pxBuffer uxSize.toNat
  assertIntEqualCs s (castToIntmaxType (s.event .uxSize)) (castToIntmaxType uxSize)
  return 0

/-! ## The code under test and the helper macros -/

/-- What the code under test can do to the state of the mocks. -/
inductive MockAction (ws : WordSize)
  | record (call : EventArgs ws)
  | store (block index : Nat) (byte : UInt8)
  | enterCriticalSection
  | exitCriticalSection

/-- One action on the state of the mocks. -/
def MockAction.run : MockAction ws → MockState ws → MockState ws
  | .record call, s => s.assign call.recording.assignments
  | .store block index byte, s => { s with memory := s.memory.store block index byte }
  | .enterCriticalSection, s => traceEnterCriticalSection s
  | .exitCriticalSection, s => traceExitCriticalSection s

/-- A trace of actions, first to last. -/
def runActions (trace : List (MockAction ws)) (s : MockState ws) : MockState ws :=
  trace.foldl (fun s a => a.run s) s

/-- An expression under test: what it does to the mocks, and its value. -/
structure Expression (ws : WordSize) where
  trace : List (MockAction ws)
  value : IntMax

/-- `prvClearEventData(); assert_int_equal_cs(a, b); prvVerifyEventCreate(...)`,
the body of every helper, with the verification it ends in. -/
def clearAssertVerify (a : Expression ws) (b : IntMax)
    (verify : MockState ws → Check Int) (s : MockState ws) : Check Int := do
  let s' := runActions a.trace (prvClearEventData s)
  assertIntEqualCs s' a.value b
  verify s'

section Helpers

variable (a : Expression ws) (b : IntMax)

def assertIntEqualCsCreate0 (c : Word ws) : MockState ws → Check Int :=
  clearAssertVerify a b fun st => prvVerifyEventCreate st c 0 0 0 0 0 0 .null 0

def assertIntEqualCsCreate1 (c v0 : Word ws) : MockState ws → Check Int :=
  clearAssertVerify a b fun st => prvVerifyEventCreate st c v0 0 0 0 0 0 .null 0

def assertIntEqualCsCreate2 (c v0 v1 : Word ws) : MockState ws → Check Int :=
  clearAssertVerify a b fun st => prvVerifyEventCreate st c v0 v1 0 0 0 0 .null 0

def assertIntEqualCsCreate3 (c v0 v1 v2 : Word ws) : MockState ws → Check Int :=
  clearAssertVerify a b fun st => prvVerifyEventCreate st c v0 v1 v2 0 0 0 .null 0

def assertIntEqualCsCreate4 (c v0 v1 v2 v3 : Word ws) : MockState ws → Check Int :=
  clearAssertVerify a b fun st => prvVerifyEventCreate st c v0 v1 v2 v3 0 0 .null 0

def assertIntEqualCsCreate5 (c v0 v1 v2 v3 v4 : Word ws) : MockState ws → Check Int :=
  clearAssertVerify a b fun st => prvVerifyEventCreate st c v0 v1 v2 v3 v4 0 .null 0

def assertIntEqualCsCreate6 (c v0 v1 v2 v3 v4 v5 : Word ws) :
    MockState ws → Check Int :=
  clearAssertVerify a b fun st => prvVerifyEventCreate st c v0 v1 v2 v3 v4 v5 .null 0

def assertIntEqualCsCreateData0 (c : Word ws) (p : VoidPtr)
    (s : Word ws) : MockState ws → Check Int :=
  clearAssertVerify a b fun st => prvVerifyEventCreate st c 0 0 0 0 0 0 p s

def assertIntEqualCsCreateData1 (c v0 : Word ws) (p : VoidPtr)
    (s : Word ws) : MockState ws → Check Int :=
  clearAssertVerify a b fun st => prvVerifyEventCreate st c v0 0 0 0 0 0 p s

def assertIntEqualCsCreateData2 (c v0 v1 : Word ws) (p : VoidPtr)
    (s : Word ws) : MockState ws → Check Int :=
  clearAssertVerify a b fun st => prvVerifyEventCreate st c v0 v1 0 0 0 0 p s

def assertIntEqualCsCreateData3 (c v0 v1 v2 : Word ws) (p : VoidPtr)
    (s : Word ws) : MockState ws → Check Int :=
  clearAssertVerify a b fun st => prvVerifyEventCreate st c v0 v1 v2 0 0 0 p s

def assertIntEqualCsCreateData4 (c v0 v1 v2 v3 : Word ws) (p : VoidPtr)
    (s : Word ws) : MockState ws → Check Int :=
  clearAssertVerify a b fun st => prvVerifyEventCreate st c v0 v1 v2 v3 0 0 p s

def assertIntEqualCsCreateData5 (c v0 v1 v2 v3 v4 : Word ws) (p : VoidPtr)
    (s : Word ws) : MockState ws → Check Int :=
  clearAssertVerify a b fun st => prvVerifyEventCreate st c v0 v1 v2 v3 v4 0 p s

def assertIntEqualCsCreateData6 (c v0 v1 v2 v3 v4 v5 : Word ws) (p : VoidPtr)
    (s : Word ws) : MockState ws → Check Int :=
  clearAssertVerify a b fun st => prvVerifyEventCreate st c v0 v1 v2 v3 v4 v5 p s

end Helpers

/-- The helper belonging to a form, applied to its expected arguments. -/
def EventArgs.helper (a : Expression ws) (b : IntMax) :
    EventArgs ws → MockState ws → Check Int
  | .create0 c => assertIntEqualCsCreate0 a b c
  | .create1 c v0 => assertIntEqualCsCreate1 a b c v0
  | .create2 c v0 v1 => assertIntEqualCsCreate2 a b c v0 v1
  | .create3 c v0 v1 v2 => assertIntEqualCsCreate3 a b c v0 v1 v2
  | .create4 c v0 v1 v2 v3 => assertIntEqualCsCreate4 a b c v0 v1 v2 v3
  | .create5 c v0 v1 v2 v3 v4 => assertIntEqualCsCreate5 a b c v0 v1 v2 v3 v4
  | .create6 c v0 v1 v2 v3 v4 v5 => assertIntEqualCsCreate6 a b c v0 v1 v2 v3 v4 v5
  | .createData0 c p s => assertIntEqualCsCreateData0 a b c p s
  | .createData1 c v0 p s => assertIntEqualCsCreateData1 a b c v0 p s
  | .createData2 c v0 v1 p s => assertIntEqualCsCreateData2 a b c v0 v1 p s
  | .createData3 c v0 v1 v2 p s => assertIntEqualCsCreateData3 a b c v0 v1 v2 p s
  | .createData4 c v0 v1 v2 v3 p s => assertIntEqualCsCreateData4 a b c v0 v1 v2 v3 p s
  | .createData5 c v0 v1 v2 v3 v4 p s =>
      assertIntEqualCsCreateData5 a b c v0 v1 v2 v3 v4 p s
  | .createData6 c v0 v1 v2 v3 v4 v5 p s =>
      assertIntEqualCsCreateData6 a b c v0 v1 v2 v3 v4 v5 p s

end TraceRecorderTests.Mock
