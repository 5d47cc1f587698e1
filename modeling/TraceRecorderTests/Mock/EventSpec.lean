import Mathlib.Data.Fintype.Basic
import Mathlib.Tactic.FinCases
import TraceRecorderTests.Mock.Event

/-!
# What the event mock remembers

The abstract content of a use of a macro is a code, a list of at most six
parameters and perhaps a payload. The mock keeps of it a code, six slots and a
pointer with a size. This module states what each macro leaves in each global,
and reduces a helper's verdict to a comparison of the two views.
-/

namespace TraceRecorderTests.Mock

open Base

variable {ws : WordSize}

/-! ## The abstract content of a use of a macro -/

/-- The event code. -/
def EventArgs.code : EventArgs ws → Word ws
  | .create0 c | .create1 c _ | .create2 c _ _ | .create3 c _ _ _
  | .create4 c _ _ _ _ | .create5 c _ _ _ _ _ | .create6 c _ _ _ _ _ _ => c
  | .createData0 c _ _ | .createData1 c _ _ _ | .createData2 c _ _ _ _
  | .createData3 c _ _ _ _ _ | .createData4 c _ _ _ _ _ _
  | .createData5 c _ _ _ _ _ _ _ | .createData6 c _ _ _ _ _ _ _ _ => c

/-- The parameters, first to last. -/
def EventArgs.params : EventArgs ws → List (Word ws)
  | .create0 _ | .createData0 _ _ _ => []
  | .create1 _ v0 | .createData1 _ v0 _ _ => [v0]
  | .create2 _ v0 v1 | .createData2 _ v0 v1 _ _ => [v0, v1]
  | .create3 _ v0 v1 v2 | .createData3 _ v0 v1 v2 _ _ => [v0, v1, v2]
  | .create4 _ v0 v1 v2 v3 | .createData4 _ v0 v1 v2 v3 _ _ => [v0, v1, v2, v3]
  | .create5 _ v0 v1 v2 v3 v4 | .createData5 _ v0 v1 v2 v3 v4 _ _ =>
      [v0, v1, v2, v3, v4]
  | .create6 _ v0 v1 v2 v3 v4 v5 | .createData6 _ v0 v1 v2 v3 v4 v5 _ _ =>
      [v0, v1, v2, v3, v4, v5]

/-- The payload pointer and size of the forms that have one. -/
def EventArgs.payload : EventArgs ws → Option (VoidPtr × Word ws)
  | .create0 _ | .create1 _ _ | .create2 _ _ _ | .create3 _ _ _ _
  | .create4 _ _ _ _ _ | .create5 _ _ _ _ _ _ | .create6 _ _ _ _ _ _ _ => none
  | .createData0 _ p s | .createData1 _ _ p s | .createData2 _ _ _ p s
  | .createData3 _ _ _ _ p s | .createData4 _ _ _ _ _ p s
  | .createData5 _ _ _ _ _ _ p s | .createData6 _ _ _ _ _ _ _ p s => some (p, s)

/-- A form: the number of parameters, and whether there is a payload. -/
structure Form where
  arity : Nat
  data : Bool
  deriving DecidableEq

/-- The form of a use. -/
def EventArgs.form (e : EventArgs ws) : Form := ⟨e.params.length, e.payload.isSome⟩

/-- No form has more parameters than the mock has slots. -/
theorem EventArgs.params_length_le (e : EventArgs ws) : e.params.length ≤ 6 := by
  cases e <;> simp [EventArgs.params]

/-- The parameters padded with zeros to the six slots. -/
def EventArgs.slot (e : EventArgs ws) (i : Fin 6) : Word ws := (e.params[i.val]?).getD 0

/-- The payload pointer, null for a form without payload. -/
def EventArgs.buffer (e : EventArgs ws) : VoidPtr := (e.payload.map Prod.fst).getD .null

/-- The payload size, zero for a form without payload. -/
def EventArgs.size (e : EventArgs ws) : Word ws := (e.payload.map Prod.snd).getD 0

/-- The payload bytes in a memory, when all of them can be read. -/
def EventArgs.payloadBytes (e : EventArgs ws) (m : Memory Nat UInt8) :
    Option (List UInt8) :=
  m.span e.buffer e.size.toNat

/-- Uses of one form pad alike: equal slots mean equal parameters. -/
theorem EventArgs.slot_eq_iff_params_eq {e f : EventArgs ws}
    (h : e.params.length = f.params.length) :
    (∀ i, e.slot i = f.slot i) ↔ e.params = f.params := by
  constructor
  · intro hslot
    apply List.ext_getElem h
    intro i hi hi'
    have hlt : i < 6 := Nat.lt_of_lt_of_le hi e.params_length_le
    simpa [EventArgs.slot, hi, hi'] using hslot ⟨i, hlt⟩
  · intro heq i
    rw [EventArgs.slot, EventArgs.slot, heq]

/-! ## What a recording leaves in the globals -/

/-- The last value a macro assigns to a global: the code, the parameter of that
slot, or the payload's pointer and size; nothing where the form has none. -/
def EventArgs.lastValue (e : EventArgs ws) : (g : Global) → Option (Global.Val ws g)
  | .uiEventCode => some e.code
  | .uxValue i => e.params[i.val]?
  | .pxBuffer => e.payload.map Prod.fst
  | .uxSize => e.payload.map Prod.snd

/-- Every macro assigns each of its arguments to the global its position says,
and no other global. -/
theorem EventArgs.lastSome_recording (e : EventArgs ws) (g : Global) :
    lastSome (Assignment.valueAt g) e.recording.assignments = e.lastValue g := by
  cases g with
  | uiEventCode => cases e <;> rfl
  | uxValue i => cases e <;> fin_cases i <;> rfl
  | pxBuffer => cases e <;> rfl
  | uxSize => cases e <;> rfl

/-- The value `prvClearEventData` gives to each global. -/
def clearedValue : (g : Global) → Global.Val ws g
  | .uiEventCode => 0
  | .uxValue _ => 0
  | .pxBuffer => .null
  | .uxSize => 0

theorem prvClearEventData_event (s : MockState ws) (g : Global) :
    (prvClearEventData s).event g = clearedValue g := by
  rw [prvClearEventData, MockState.assign_event]
  cases g with
  | uiEventCode => rfl
  | uxValue i => fin_cases i <;> rfl
  | pxBuffer => rfl
  | uxSize => rfl

/-! ## Traces of the code under test -/

/-- The recording call an action makes, if it makes one. -/
def MockAction.recorded : MockAction ws → Option (EventArgs ws)
  | .record call => some call
  | .store _ _ _ | .enterCriticalSection | .exitCriticalSection => none

/-- The recording calls of a trace, first to last. -/
def recordings (trace : List (MockAction ws)) : List (EventArgs ws) :=
  trace.filterMap MockAction.recorded

theorem recordings_append (first second : List (MockAction ws)) :
    recordings (first ++ second) = recordings first ++ recordings second :=
  List.filterMap_append

theorem recordings_record_cons (call : EventArgs ws) (rest : List (MockAction ws)) :
    recordings (.record call :: rest) = call :: recordings rest := rfl

/-- Only recordings touch the event globals. -/
theorem runActions_event (trace : List (MockAction ws)) (s : MockState ws) :
    (runActions trace s).event =
      runAssignments ((recordings trace).flatMap fun call => call.recording.assignments)
        s.event := by
  induction trace generalizing s with
  | nil => rfl
  | cons a rest ih =>
      have step : runActions (a :: rest) s = runActions rest (a.run s) := rfl
      rw [step, ih]
      cases a with
      | record call =>
          rw [recordings_record_cons, List.flatMap_cons, runAssignments_append]
          rfl
      | store block index byte => rfl
      | enterCriticalSection => rfl
      | exitCriticalSection => rfl

/-- The event globals do not influence what a trace does to memory and to the
critical-section counters. -/
theorem runActions_frame (trace : List (MockAction ws)) :
    ∀ {s t : MockState ws}, s.memory = t.memory →
      s.uiCriticalSection = t.uiCriticalSection →
      s.uiCriticalSectionExpectedValue = t.uiCriticalSectionExpectedValue →
      (runActions trace s).memory = (runActions trace t).memory ∧
      ((runActions trace s).Balanced ↔ (runActions trace t).Balanced) := by
  induction trace with
  | nil =>
      intro s t hm hc he
      refine ⟨hm, ?_⟩
      simp [runActions, MockState.Balanced, hc, he]
  | cons a rest ih =>
      intro s t hm hc he
      cases a with
      | record call => exact ih (s := s.assign _) (t := t.assign _) hm hc he
      | store block index byte =>
          exact ih (s := { s with memory := s.memory.store block index byte })
            (t := { t with memory := t.memory.store block index byte })
            (by simp [hm]) hc he
      | enterCriticalSection =>
          exact ih (s := traceEnterCriticalSection s) (t := traceEnterCriticalSection t)
            hm (by simp [traceEnterCriticalSection, hc]) he
      | exitCriticalSection =>
          exact ih (s := traceExitCriticalSection s) (t := traceExitCriticalSection t)
            hm (by simp [traceExitCriticalSection, hc]) he

/-- After `prvClearEventData` and a trace, a global holds what the last
recording that has a value for it gave it, and its cleared value when no
recording has. -/
theorem event_after_clear (trace : List (MockAction ws)) (s : MockState ws)
    (g : Global) :
    (runActions trace (prvClearEventData s)).event g =
      (lastSome (fun e : EventArgs ws => e.lastValue g) (recordings trace)).getD
        (clearedValue g) := by
  rw [runActions_event, runAssignments_apply, lastSome_flatMap,
    prvClearEventData_event]
  simp only [EventArgs.lastSome_recording]

/-! ## Verdicts -/

/-- `prvVerifyEventCreate` passes exactly when the counter is balanced, the code
and the six slots are the expected ones, the expected number of bytes can be
read at both pointers and is the same there, and the sizes are equal. -/
theorem passes_prvVerifyEventCreate (s : MockState ws)
    (c v0 v1 v2 v3 v4 v5 : Word ws) (p : VoidPtr) (n : Word ws) :
    Passes (prvVerifyEventCreate s c v0 v1 v2 v3 v4 v5 p n) ↔
      s.Balanced ∧ s.event .uiEventCode = c ∧
      (s.event (.uxValue 0) = v0 ∧ s.event (.uxValue 1) = v1 ∧
        s.event (.uxValue 2) = v2 ∧ s.event (.uxValue 3) = v3 ∧
        s.event (.uxValue 4) = v4 ∧ s.event (.uxValue 5) = v5) ∧
      s.event .uxSize = n ∧
      ∃ bytes, s.memory.span (s.event .pxBuffer) n.toNat = some bytes ∧
        s.memory.span p n.toNat = some bytes := by
  have cast := castToIntmaxType_inj ws.bits_le
  simp only [prvVerifyEventCreate, passes_unit_bind, passes_assertIntEqualCs,
    passes_assertMemoryEqual, passes_pure, cast, and_true]
  tauto

/-- The verdict on an expected tuple given as the arguments of a helper. -/
def EventArgs.verify (e : EventArgs ws) (s : MockState ws) : Check Int :=
  prvVerifyEventCreate s e.code (e.slot 0) (e.slot 1) (e.slot 2) (e.slot 3) (e.slot 4)
    (e.slot 5) e.buffer e.size

/-- All fourteen helpers are one: clear, evaluate, verify the padded tuple. -/
theorem EventArgs.helper_eq (e : EventArgs ws) (a : Expression ws) (b : IntMax) :
    e.helper a b = clearAssertVerify a b e.verify := by
  cases e <;> rfl

/-- The six value slots, one by one. -/
theorem EventArgs.forall_slot_iff (e : EventArgs ws) (s : MockState ws) :
    (∀ i, s.event (.uxValue i) = e.slot i) ↔
      s.event (.uxValue 0) = e.slot 0 ∧ s.event (.uxValue 1) = e.slot 1 ∧
        s.event (.uxValue 2) = e.slot 2 ∧ s.event (.uxValue 3) = e.slot 3 ∧
        s.event (.uxValue 4) = e.slot 4 ∧ s.event (.uxValue 5) = e.slot 5 := by
  constructor
  · intro h
    exact ⟨h 0, h 1, h 2, h 3, h 4, h 5⟩
  · rintro ⟨h0, h1, h2, h3, h4, h5⟩ i
    fin_cases i <;> assumption

theorem EventArgs.passes_verify (e : EventArgs ws) (s : MockState ws) :
    Passes (e.verify s) ↔
      s.Balanced ∧ s.event .uiEventCode = e.code ∧
      (∀ i, s.event (.uxValue i) = e.slot i) ∧
      s.event .uxSize = e.size ∧
      ∃ bytes, s.memory.span (s.event .pxBuffer) e.size.toNat = some bytes ∧
        e.payloadBytes s.memory = some bytes := by
  rw [EventArgs.verify, passes_prvVerifyEventCreate, EventArgs.forall_slot_iff]
  rfl

/-- A helper passes exactly when the expression has the expected value and the
verification passes in the state the expression leaves. -/
theorem EventArgs.passes_helper (e : EventArgs ws) (a : Expression ws) (b : IntMax)
    (s : MockState ws) :
    Passes (e.helper a b s) ↔
      a.value = b ∧ Passes (e.verify (runActions a.trace (prvClearEventData s))) := by
  rw [EventArgs.helper_eq, clearAssertVerify, passes_unit_bind, passes_assertIntEqualCs]
  constructor
  · rintro ⟨⟨hvalue, _⟩, hverify⟩
    exact ⟨hvalue, hverify⟩
  · rintro ⟨hvalue, hverify⟩
    -- the verification repeats the critical-section check of the first assertion
    exact ⟨⟨hvalue, ((e.passes_verify _).mp hverify).1⟩, hverify⟩

end TraceRecorderTests.Mock
