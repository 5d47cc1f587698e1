import TraceRecorderTests.Mock.EventSpec

/-!
# What a passing event helper says

A helper sees the recorded event through one code, six slots and a payload
pointer with its size. For the form it names this view is complete: the helper
passes exactly on the expected event (`helper_passes_iff`). Across forms it is
a flattening: an event whose surplus parameters are zero and whose surplus
payload is empty looks like one of the shorter form
(`helper_passes_iff_flattened`). Over a history of recordings, each global
keeps what the last recording that writes it left there
(`verify_after_history`).
-/

namespace TraceRecorderTests.Mock

open Base

variable {ws : WordSize}

/-! ## One recording -/

/-- The globals after clearing and a trace with a single recording: the padded
view of that recording. -/
theorem event_after_single {trace : List (MockAction ws)} {call : EventArgs ws}
    (once : recordings trace = [call]) (s : MockState ws) :
    let after := runActions trace (prvClearEventData s)
    after.event .uiEventCode = call.code ∧ (∀ i, after.event (.uxValue i) = call.slot i) ∧
      after.event .pxBuffer = call.buffer ∧ after.event .uxSize = call.size := by
  have value : ∀ g, (runActions trace (prvClearEventData s)).event g =
      (call.lastValue g).getD (clearedValue g) := by
    intro g
    rw [event_after_clear, once]
    rfl
  exact ⟨value _, fun i => value _, value _, value _⟩

/-- Clearing the globals first does not change what a trace does to the rest of
the state. -/
theorem runActions_clear (trace : List (MockAction ws)) (s : MockState ws) :
    (runActions trace (prvClearEventData s)).memory = (runActions trace s).memory ∧
      ((runActions trace (prvClearEventData s)).Balanced ↔
        (runActions trace s).Balanced) :=
  runActions_frame trace (s := prvClearEventData s) (t := s) rfl rfl rfl

/-- The verdict of a helper on an expression with a single recording, read off
the padded views of the two events. -/
theorem passes_helper_single {a : Expression ws} {call : EventArgs ws}
    (expected : EventArgs ws) {s : MockState ws} (once : recordings a.trace = [call])
    (balanced : (runActions a.trace s).Balanced) :
    Passes (expected.helper a a.value s) ↔
      call.code = expected.code ∧ (∀ i, call.slot i = expected.slot i) ∧
      call.size = expected.size ∧
      ∃ bytes, call.payloadBytes (runActions a.trace s).memory = some bytes ∧
        expected.payloadBytes (runActions a.trace s).memory = some bytes := by
  obtain ⟨hcode, hslot, hbuffer, hsize⟩ := event_after_single once s
  obtain ⟨hmem, hbal⟩ := runActions_clear a.trace s
  rw [EventArgs.passes_helper, EventArgs.passes_verify, hcode, hbuffer, hsize, hmem]
  simp only [hslot, hbal, balanced, true_and]
  -- the mock compares as many bytes as are expected; the sizes are equal
  constructor
  · rintro ⟨code, slots, size, bytes, hcall, hexpected⟩
    refine ⟨code, slots, size, bytes, ?_, hexpected⟩
    rw [EventArgs.payloadBytes, size]
    exact hcall
  · rintro ⟨code, slots, size, bytes, hcall, hexpected⟩
    refine ⟨code, slots, size, bytes, ?_, hexpected⟩
    rw [← size]
    exact hcall

/-- A helper passes on a recording of the form it names exactly when the code,
every parameter, the payload size and the payload bytes are the expected ones
and both payloads can be read, whatever the globals held before. -/
theorem helper_passes_iff (s : MockState ws) (a : Expression ws)
    (call expected : EventArgs ws) (once : recordings a.trace = [call])
    (sameForm : call.form = expected.form)
    (balanced : (runActions a.trace s).Balanced) :
    (Passes (expected.helper a a.value s) ↔
      call.code = expected.code ∧ call.params = expected.params ∧
      call.size = expected.size ∧
      ∃ bytes, call.payloadBytes (runActions a.trace s).memory = some bytes ∧
        expected.payloadBytes (runActions a.trace s).memory = some bytes) ∧
    ∀ globals : (g : Global) → Global.Val ws g,
      Passes (expected.helper a a.value { s with event := globals }) ↔
        Passes (expected.helper a a.value s) := by
  have lengths : call.params.length = expected.params.length :=
    congrArg Form.arity sameForm
  refine ⟨?_, fun globals => ?_⟩
  · rw [passes_helper_single expected once balanced,
      EventArgs.slot_eq_iff_params_eq lengths]
  · obtain ⟨hmem, hbal⟩ := runActions_frame a.trace
      (s := { s with event := globals }) (t := s) rfl rfl rfl
    rw [passes_helper_single expected once balanced,
      passes_helper_single expected once (hbal.mpr balanced), hmem]

/-- The state every global of the process starts in: all zero, with the given
memory. -/
def initialState (ws : WordSize) (memory : Memory Nat UInt8) : MockState ws where
  event := clearedValue
  uiCriticalSection := 0
  uiCriticalSectionExpectedValue := 0
  memory := memory

/-- A memory with one two-byte payload in block 0 and a copy of it in block 1. -/
def payloadMemory : Memory Nat UInt8 := fun b => if b ≤ 1 then [7, 9] else []

/-- An expression that records a two-parameter event with a payload inside a
critical section. -/
def lockedRecording : Expression .bits64 where
  trace := [.enterCriticalSection, .record (.createData2 5 1 2 (.addr 0 0) 2),
    .exitCriticalSection]
  value := 1

theorem helper_passes_iff_locked :
    Passes ((EventArgs.createData2 5 1 2 (.addr 1 0) 2).helper lockedRecording
      lockedRecording.value (initialState .bits64 payloadMemory)) :=
  (helper_passes_iff (initialState .bits64 payloadMemory) lockedRecording
    (.createData2 5 1 2 (.addr 0 0) 2) (.createData2 5 1 2 (.addr 1 0) 2) rfl rfl
    (by decide)).1.mpr ⟨rfl, rfl, rfl, [7, 9], by decide, by decide⟩

/-! ## Telling forms apart -/

/-- A helper passes on a recording of any form exactly when the padded views
agree: the codes, the parameters padded with zeros to six slots, and the
payloads, a form without payload counting as an empty one. So where a helper
passes on another form, a parameter that only one of the two forms has is zero,
and a payload that only one of them has is empty. -/
theorem helper_passes_iff_flattened (s : MockState ws) (a : Expression ws)
    (call expected : EventArgs ws) (once : recordings a.trace = [call])
    (balanced : (runActions a.trace s).Balanced) :
    (Passes (expected.helper a a.value s) ↔
      call.code = expected.code ∧ (∀ i, call.slot i = expected.slot i) ∧
      call.size = expected.size ∧
      ∃ bytes, call.payloadBytes (runActions a.trace s).memory = some bytes ∧
        expected.payloadBytes (runActions a.trace s).memory = some bytes) ∧
    (call.form ≠ expected.form → Passes (expected.helper a a.value s) →
      (∀ i : Fin 6, call.params[i.val]?.isSome ≠ expected.params[i.val]?.isSome →
        call.slot i = 0 ∧ expected.slot i = 0) ∧
      (call.payload.isSome ≠ expected.payload.isSome →
        call.size = 0 ∧ expected.size = 0)) := by
  have verdict := passes_helper_single expected once balanced
  refine ⟨verdict, fun _ passes => ?_⟩
  obtain ⟨_, slots, size, _⟩ := verdict.mp passes
  constructor
  · intro i differ
    have agree := slots i
    -- the form that lacks the parameter pads the slot with zero
    cases hc : call.params[i.val]? with
    | none =>
        have : call.slot i = 0 := by simp [EventArgs.slot, hc]
        exact ⟨this, agree ▸ this⟩
    | some v =>
        have hnone : expected.params[i.val]? = none := by
          cases he : expected.params[i.val]? with
          | none => rfl
          | some w => simp [hc, he] at differ
        have : expected.slot i = 0 := by simp [EventArgs.slot, hnone]
        exact ⟨agree.trans this, this⟩
  · intro differ
    cases hc : call.payload with
    | none =>
        have : call.size = 0 := by simp [EventArgs.size, hc]
        exact ⟨this, size ▸ this⟩
    | some v =>
        have hnone : expected.payload = none := by
          cases he : expected.payload with
          | none => rfl
          | some w => simp [hc, he] at differ
        have : expected.size = 0 := by simp [EventArgs.size, hnone]
        exact ⟨size.trans this, this⟩

/-- An expression that records a one-parameter event whose parameter is zero. -/
def zeroParameterRecording : Expression .bits64 where
  trace := [.record (.create1 5 0)]
  value := 1

theorem helper_passes_iff_flattened_create1 :
    Passes ((EventArgs.create0 5).helper zeroParameterRecording
      zeroParameterRecording.value (initialState .bits64 payloadMemory)) :=
  (helper_passes_iff_flattened (initialState .bits64 payloadMemory)
    zeroParameterRecording (.create1 5 0) (.create0 5) rfl
    (by decide)).1.mpr ⟨rfl, by decide, rfl, [], rfl, rfl⟩

/-- The helper for events without parameters accepts a one-parameter event. -/
theorem create0_helper_accepts_create1 :
    recordings zeroParameterRecording.trace = [.create1 5 0] ∧
    (EventArgs.create1 5 0 : EventArgs .bits64).form ≠
      (EventArgs.create0 5 : EventArgs .bits64).form ∧
    (runActions zeroParameterRecording.trace
      (initialState .bits64 payloadMemory)).Balanced ∧
    Passes ((EventArgs.create0 5).helper zeroParameterRecording
      zeroParameterRecording.value (initialState .bits64 payloadMemory)) := by
  decide

/-! ## Histories of recordings -/

/-- The event whose padded view the globals hold after a history: the code of
the last recording, in each slot the parameter of the last recording that has
one there, and the payload of the last recording that has one. -/
def residue (history : List (MockAction ws)) : EventArgs ws :=
  let last (g : Global) : Global.Val ws g :=
    (lastSome (fun e : EventArgs ws => e.lastValue g) (recordings history)).getD
      (clearedValue g)
  .createData6 (last .uiEventCode) (last (.uxValue 0)) (last (.uxValue 1))
    (last (.uxValue 2)) (last (.uxValue 3)) (last (.uxValue 4)) (last (.uxValue 5))
    (last .pxBuffer) (last .uxSize)

/-- The state after clearing and a single recording, with a given memory. -/
def recordedAlone (call : EventArgs ws) (m : Memory Nat UInt8) (s : MockState ws) :
    MockState ws :=
  { runActions [.record call] (prvClearEventData s) with memory := m }

/-- Every global an earlier recording of `before` writes is written by `last`
too. -/
def EventArgs.Covers (last : EventArgs ws) (before : List (MockAction ws)) : Prop :=
  ∀ e ∈ recordings before, e.params.length ≤ last.params.length ∧
    (e.payload.isSome → last.payload.isSome)

/-- The globals a recording leaves when it is alone. -/
theorem recordedAlone_event (call : EventArgs ws) (m : Memory Nat UInt8)
    (s : MockState ws) (g : Global) :
    (recordedAlone call m s).event g = (call.lastValue g).getD (clearedValue g) :=
  event_after_clear [.record call] s g

/-- The globals after a history are those of its residue alone. -/
theorem recordedAlone_residue (history : List (MockAction ws)) (m : Memory Nat UInt8)
    (s : MockState ws) (g : Global) :
    (recordedAlone (residue history) m s).event g =
      (runActions history (prvClearEventData s)).event g := by
  rw [recordedAlone_event, event_after_clear]
  cases g with
  | uiEventCode => rfl
  | uxValue i => fin_cases i <;> rfl
  | pxBuffer => rfl
  | uxSize => rfl

/-- Where the last recording covers the earlier ones, nothing of them is left. -/
theorem event_of_covers {before after : List (MockAction ws)} {last : EventArgs ws}
    (quiet : recordings after = []) (covers : last.Covers before) (s : MockState ws)
    (m : Memory Nat UInt8) (g : Global) :
    (runActions (before ++ .record last :: after) (prvClearEventData s)).event g =
      (recordedAlone last m s).event g := by
  rw [recordedAlone_event, event_after_clear, recordings_append,
    recordings_record_cons, quiet, lastSome_append]
  -- a global that the last recording leaves alone was left alone by all of them
  have overwritten : last.lastValue g = none →
      lastSome (fun e : EventArgs ws => e.lastValue g) (recordings before) = none := by
    intro hnone
    rw [lastSome_eq_none_iff]
    intro e he
    obtain ⟨hlength, hpayload⟩ := covers e he
    cases g with
    | uiEventCode => cases hnone
    | uxValue i =>
        simp only [EventArgs.lastValue, List.getElem?_eq_none_iff] at hnone ⊢
        omega
    | pxBuffer =>
        simp only [EventArgs.lastValue, Option.map_eq_none_iff] at hnone ⊢
        simpa [hnone] using hpayload
    | uxSize =>
        simp only [EventArgs.lastValue, Option.map_eq_none_iff] at hnone ⊢
        simpa [hnone] using hpayload
  simp only [lastSome_cons, lastSome_nil, Option.none_or]
  cases hlast : last.lastValue g with
  | some v => rfl
  | none => rw [overwritten hlast]; rfl

/-- The verification reads nothing of a state but its balance, its globals and
the recorded payload: two states that agree on these get the same verdict. -/
theorem EventArgs.passes_verify_congr {expected : EventArgs ws} {s t : MockState ws}
    (balance : s.Balanced ↔ t.Balanced) (globals : ∀ g, s.event g = t.event g)
    (payload : t.event .uxSize = expected.size →
      s.memory.span (t.event .pxBuffer) expected.size.toNat =
        t.memory.span (t.event .pxBuffer) expected.size.toNat)
    (unmodified : expected.payloadBytes s.memory = expected.payloadBytes t.memory) :
    Passes (expected.verify s) ↔ Passes (expected.verify t) := by
  rw [EventArgs.passes_verify, EventArgs.passes_verify, balance, unmodified]
  simp only [globals]
  constructor
  · rintro ⟨hbal, code, slots, size, content⟩
    exact ⟨hbal, code, slots, size, by rwa [← payload size]⟩
  · rintro ⟨hbal, code, slots, size, content⟩
    exact ⟨hbal, code, slots, size, by rwa [payload size]⟩

/-- The verdict after a history of recordings and stores is the verdict on the
history's residue alone, with memory as it stands at the verification. It is the
verdict on the last recording alone, with memory as it stood at that recording,
when every global an earlier recording wrote is written by the last one too and
neither the recorded nor the expected payload has changed since. -/
theorem verify_after_history (s : MockState ws) (before after : List (MockAction ws))
    (last expected : EventArgs ws) (quiet : recordings after = [])
    (start : s.Balanced)
    (balanced : (runActions (before ++ .record last :: after) s).Balanced) :
    (Passes (expected.verify
        (runActions (before ++ .record last :: after) (prvClearEventData s))) ↔
      Passes (expected.verify
        (recordedAlone (residue (before ++ .record last :: after))
          (runActions (before ++ .record last :: after) s).memory s))) ∧
    (last.Covers before →
      last.payloadBytes (runActions (before ++ .record last :: after) s).memory =
        last.payloadBytes (runActions before s).memory →
      expected.payloadBytes (runActions (before ++ .record last :: after) s).memory =
        expected.payloadBytes (runActions before s).memory →
      (Passes (expected.verify
          (runActions (before ++ .record last :: after) (prvClearEventData s))) ↔
        Passes (expected.verify
          (recordedAlone last (runActions before s).memory s)))) := by
  obtain ⟨memory, balance⟩ := runActions_clear (before ++ .record last :: after) s
  have alone : ∀ (e : EventArgs ws) (m : Memory Nat UInt8),
      (runActions (before ++ .record last :: after) (prvClearEventData s)).Balanced ↔
        (recordedAlone e m s).Balanced :=
    fun e m => ⟨fun _ => start, fun _ => balance.mpr balanced⟩
  constructor
  · refine EventArgs.passes_verify_congr (alone _ _)
      (fun g => (recordedAlone_residue _ _ s g).symm) ?_ ?_
    · intro _
      rw [memory]
      rfl
    · rw [memory]
      rfl
  · intro covers sameBytes unmodified
    refine EventArgs.passes_verify_congr (alone _ _)
      (fun g => event_of_covers quiet covers s _ g) ?_ ?_
    · -- the sizes agree, so the bytes compared are the whole recorded payload
      intro size
      rw [recordedAlone_event] at size
      have hsize : last.size = expected.size := size
      have hbytes := sameBytes
      rw [EventArgs.payloadBytes, EventArgs.payloadBytes, hsize] at hbytes
      rw [memory, recordedAlone_event]
      exact hbytes
    · rw [memory]
      exact unmodified

theorem verify_after_history_covered :
    Passes ((EventArgs.create1 5 7).verify
      (runActions [.record (.create0 3), .record (.create1 5 7), .store 0 0 1]
        (prvClearEventData (initialState .bits64 payloadMemory)))) :=
  ((verify_after_history (initialState .bits64 payloadMemory) [.record (.create0 3)]
    [.store 0 0 1] (.create1 5 7) (.create1 5 7) rfl (by decide) (by decide)).2
    (fun e he => by
      rw [List.mem_singleton.mp he]
      decide)
    (by decide) (by decide)).mpr (by decide)

/-- A parameter of an earlier event decides the verdict on a later one that has
no parameters: alone the event is accepted, after the earlier one it is not. And so
does a store to the recorded payload after the only recording. -/
theorem earlier_parameter_survives :
    ¬ (Passes ((EventArgs.create0 5).verify
        (runActions [.record (.create1 4 7), .record (.create0 5)]
          (prvClearEventData (initialState .bits64 payloadMemory)))) ↔
      Passes ((EventArgs.create0 5).verify
        (recordedAlone (.create0 5)
          (runActions [.record (.create1 4 7)]
            (initialState .bits64 payloadMemory)).memory
          (initialState .bits64 payloadMemory)))) ∧
    ¬ (Passes ((EventArgs.createData0 5 (.addr 1 0) 2).verify
        (runActions [.record (.createData0 5 (.addr 0 0) 2), .store 0 0 1]
          (prvClearEventData (initialState .bits64 payloadMemory)))) ↔
      Passes ((EventArgs.createData0 5 (.addr 1 0) 2).verify
        (recordedAlone (.createData0 5 (.addr 0 0) 2)
          (runActions [] (initialState .bits64 payloadMemory)).memory
          (initialState .bits64 payloadMemory)))) := by
  decide

end TraceRecorderTests.Mock
