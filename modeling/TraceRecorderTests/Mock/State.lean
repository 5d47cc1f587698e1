import Mathlib.Algebra.Ring.Nat
import TraceRecorderTests.Base.Registers
import TraceRecorderTests.Cmocka

/-!
# The state the mocks share

The mocks replace the recorder's event, critical-section and stream-port layers
by macros over global variables. This module fixes the word size, the nine
`MOCK_EVENT_CREATE_*` globals, the two critical-section counters, and the
memory that payload pointers point into.
-/

namespace TraceRecorderTests.Mock

open Base

/-- `traceResult`, as far as the mocks return it. -/
inductive TraceResult
  | TRC_FAIL
  | TRC_SUCCESS
  deriving DecidableEq, Repr

/-- The two builds of the suite: 32-bit and 64-bit targets. -/
inductive WordSize
  | bits32
  | bits64
  deriving DecidableEq, Repr

/-- `sizeof(TraceUnsignedBaseType_t)`. -/
def WordSize.bytes : WordSize → Nat
  | .bits32 => 4
  | .bits64 => 8

/-- The width of `TraceUnsignedBaseType_t`. -/
def WordSize.bits (ws : WordSize) : Nat := 8 * ws.bytes

theorem WordSize.bits_le (ws : WordSize) : ws.bits ≤ 64 := by
  cases ws <;> decide

/-- `TraceUnsignedBaseType_t`. -/
abbrev Word (ws : WordSize) := BitVec ws.bits

/-- Pointers into the blocks of the process, numbered arbitrarily. -/
abbrev VoidPtr := Ptr Nat

/-- The value slots have numbers: there are six of them. -/
instance sixSlots : NeZero 6 := ⟨by decide⟩

/-- The `MOCK_EVENT_CREATE_*` globals: the event code, the six value slots, and
the payload pointer and size. -/
inductive Global
  | uiEventCode
  | uxValue (slot : Fin 6)
  | pxBuffer
  | uxSize
  deriving DecidableEq

/-- The C type of each global. -/
@[reducible] def Global.Val (ws : WordSize) : Global → Type
  | .uiEventCode => Word ws
  | .uxValue _ => Word ws
  | .pxBuffer => VoidPtr
  | .uxSize => Word ws

/-- One assignment to a `MOCK_EVENT_CREATE_*` global. -/
abbrev Assign (ws : WordSize) := Assignment (Global.Val ws)

/-- The globals of the mocks, and the memory their pointers point into. -/
structure MockState (ws : WordSize) where
  event : (g : Global) → Global.Val ws g
  uiCriticalSection : BitVec 32
  uiCriticalSectionExpectedValue : BitVec 32
  memory : Memory Nat UInt8

variable {ws : WordSize}

/-- The critical-section counter has its expected value. -/
def MockState.Balanced (s : MockState ws) : Prop :=
  s.uiCriticalSection = s.uiCriticalSectionExpectedValue

instance (s : MockState ws) : Decidable s.Balanced :=
  inferInstanceAs (Decidable (s.uiCriticalSection = s.uiCriticalSectionExpectedValue))

/-- Assignments to event globals leave everything else alone. -/
def MockState.assign (program : List (Assign ws)) (s : MockState ws) : MockState ws :=
  { s with event := runAssignments program s.event }

/-- What an assignment list leaves in a global. -/
theorem MockState.assign_event (program : List (Assign ws)) (s : MockState ws)
    (g : Global) :
    (s.assign program).event g =
      (lastSome (Assignment.valueAt g) program).getD (s.event g) :=
  runAssignments_apply program s.event g

/-! ## Critical sections -/

/-- `TRACE_ENTER_CRITICAL_SECTION()`. -/
def traceEnterCriticalSection (s : MockState ws) : MockState ws :=
  { s with uiCriticalSection := s.uiCriticalSection + 1 }

/-- `TRACE_EXIT_CRITICAL_SECTION()`. -/
def traceExitCriticalSection (s : MockState ws) : MockState ws :=
  { s with uiCriticalSection := s.uiCriticalSection - 1 }

/-- The closing comparison of `assert_int_equal_cs`. -/
def assertCriticalSection (s : MockState ws) : Check Unit :=
  assertIntEqual (castToIntmaxType s.uiCriticalSection)
    (castToIntmaxType s.uiCriticalSectionExpectedValue)

/-- `assert_int_equal_cs(x, y)`, evaluated in the state its operands leave. -/
def assertIntEqualCs (s : MockState ws) (x y : IntMax) : Check Unit := do
  assertIntEqual x y
  assertCriticalSection s

@[simp] theorem passes_assertCriticalSection (s : MockState ws) :
    Passes (assertCriticalSection s) ↔ s.Balanced := by
  rw [assertCriticalSection, passes_assertIntEqual,
    castToIntmaxType_inj (by decide)]
  rfl

@[simp] theorem not_strays_assertIntEqualCs (s : MockState ws) (x y : IntMax) :
    ¬ Strays (assertIntEqualCs s x y) := by
  rw [assertIntEqualCs, strays_unit_bind, assertCriticalSection]
  simp

@[simp] theorem passes_assertIntEqualCs (s : MockState ws) (x y : IntMax) :
    Passes (assertIntEqualCs s x y) ↔ x = y ∧ s.Balanced := by
  rw [assertIntEqualCs, passes_unit_bind, passes_assertIntEqual,
    passes_assertCriticalSection]

end TraceRecorderTests.Mock
