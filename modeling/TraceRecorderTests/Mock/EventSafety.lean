import TraceRecorderTests.Mock.EventOracle

/-!
# Where the verification of an event reads

`prvVerifyEventCreate` compares the payload bytes before it compares the payload
sizes, and `assert_memory_equal` reads as many bytes of both buffers as are
expected. So a recorded payload that is shorter than the expected one, with all
that is compared before it as expected, is read past its end
(`verifiesSafely_iff`).
-/

namespace TraceRecorderTests.Mock

open Base

variable {ws : WordSize}

/-! ## Where it strays -/

/-- The verification strays exactly when it gets to the payload bytes and one of
the two buffers has fewer of them than are expected. -/
theorem EventArgs.strays_verify (expected : EventArgs ws) (s : MockState ws) :
    Strays (expected.verify s) ↔
      s.Balanced ∧ s.event .uiEventCode = expected.code ∧
      (∀ i, s.event (.uxValue i) = expected.slot i) ∧
      ¬ ((s.memory.span (s.event .pxBuffer) expected.size.toNat).isSome ∧
        (expected.payloadBytes s.memory).isSome) := by
  have cast := castToIntmaxType_inj ws.bits_le
  have ends : ∀ n : Int, ¬ Strays (pure n : Check Int) := fun _ => nofun
  simp only [EventArgs.verify, prvVerifyEventCreate, strays_unit_bind, passes_assertIntEqualCs,
    not_strays_assertIntEqualCs, strays_assertMemoryEqual, cast, false_or, ends, and_false,
    or_false, EventArgs.forall_slot_iff, EventArgs.payloadBytes]
  tauto

/-! ## The recorded payload -/

/-- No action changes the length of a block. -/
theorem length_runActions (trace : List (MockAction ws)) (s : MockState ws) (b : Nat) :
    ((runActions trace s).memory b).length = (s.memory b).length := by
  induction trace generalizing s with
  | nil => rfl
  | cons a rest ih =>
      have step : runActions (a :: rest) s = runActions rest (a.run s) := rfl
      rw [step, ih]
      cases a with
      | record call => rfl
      | store block index byte => exact Memory.length_store s.memory block index byte b
      | enterCriticalSection => rfl
      | exitCriticalSection => rfl

/-- Where every recorded payload pointer addresses exactly its recorded size, the
pointer and the size that a history leaves in the globals belong together too:
both are those of the last recording with a payload, or null and zero. -/
theorem holds_after_history (history : List (MockAction ws)) (s : MockState ws)
    (payloads : ∀ call ∈ recordings history, s.memory.Holds call.buffer call.size.toNat) :
    s.memory.Holds ((runActions history (prvClearEventData s)).event .pxBuffer)
      ((runActions history (prvClearEventData s)).event .uxSize).toNat := by
  rw [event_after_clear, event_after_clear]
  have pointer : lastSome (fun e : EventArgs ws => e.lastValue .pxBuffer) (recordings history) =
      (lastSome EventArgs.payload (recordings history)).map Prod.fst :=
    lastSome_map EventArgs.payload Prod.fst (recordings history)
  have size : lastSome (fun e : EventArgs ws => e.lastValue .uxSize) (recordings history) =
      (lastSome EventArgs.payload (recordings history)).map Prod.snd :=
    lastSome_map EventArgs.payload Prod.snd (recordings history)
  rw [pointer, size]
  cases hlast : lastSome EventArgs.payload (recordings history) with
  | none => rfl
  | some payload =>
      obtain ⟨call, hmem, hcall⟩ := exists_of_lastSome_eq_some EventArgs.payload hlast
      have hholds := payloads call hmem
      rw [EventArgs.buffer, EventArgs.size, hcall] at hholds
      exact hholds

/-! ## Safety -/

/-- The verification ends, with success or with a failed assertion, and reports
a payload size that is not the expected one as a failed assertion. A read at an
index past a payload, or through the null pointer, is neither. -/
structure EventArgs.VerifiesSafely (expected : EventArgs ws) (s : MockState ws) : Prop where
  ends : Passes (expected.verify s) ∨ expected.verify s = .error .assertFailed
  reports : s.event .uxSize ≠ expected.size → expected.verify s = .error .assertFailed

/-- All that is compared before the payloads is as expected, and more payload
bytes are expected than were recorded. -/
def EventArgs.Overreads (expected : EventArgs ws) (s : MockState ws) : Prop :=
  s.Balanced ∧ s.event .uiEventCode = expected.code ∧
    (∀ i, s.event (.uxValue i) = expected.slot i) ∧ s.event .uxSize < expected.size

instance (expected : EventArgs ws) (s : MockState ws) : Decidable (expected.Overreads s) :=
  inferInstanceAs (Decidable (_ ∧ _))

/-- Among buffers that are as long as their sizes say, the verification strays
exactly where it overreads the recorded one. -/
theorem EventArgs.strays_iff_overreads {expected : EventArgs ws} {s : MockState ws}
    (recorded : s.memory.Holds (s.event .pxBuffer) (s.event .uxSize).toNat)
    (buffer : s.memory.Holds expected.buffer expected.size.toNat) :
    Strays (expected.verify s) ↔ expected.Overreads s := by
  have whole : (expected.payloadBytes s.memory).isSome :=
    (Memory.span_isSome_iff buffer _).mpr (Nat.le_refl _)
  have short : ¬ (s.memory.span (s.event .pxBuffer) expected.size.toNat).isSome ↔
      s.event .uxSize < expected.size := by
    rw [Memory.span_isSome_iff recorded, not_le, BitVec.lt_def]
  rw [EventArgs.strays_verify, EventArgs.Overreads, ← short]
  simp only [whole, and_true]

/-- After any history, with payload buffers as long as their recorded sizes say
and an expected buffer as long as the expected size says, the verification is
safe exactly when it does not overread: a wrong code or value stops it before
the payloads, and so does an unbalanced critical section. -/
theorem verifiesSafely_iff (s : MockState ws) (history : List (MockAction ws))
    (expected : EventArgs ws)
    (payloads : ∀ call ∈ recordings history, s.memory.Holds call.buffer call.size.toNat)
    (buffer : s.memory.Holds expected.buffer expected.size.toNat) :
    expected.VerifiesSafely (runActions history (prvClearEventData s)) ↔
      ¬ expected.Overreads (runActions history (prvClearEventData s)) := by
  have recorded := holds_after_history history s payloads
  generalize hafter : runActions history (prvClearEventData s) = after at recorded ⊢
  have length : ∀ b, (after.memory b).length = (s.memory b).length := by
    intro b
    rw [← hafter]
    exact length_runActions history (prvClearEventData s) b
  rw [← EventArgs.strays_iff_overreads (recorded.of_length length) (buffer.of_length length)]
  constructor
  · intro safe strays
    rcases safe.ends with passes | failed
    · rw [strays] at passes
      exact not_passes_error _ passes
    · rw [strays] at failed
      cases failed
  · intro stays
    have failed : ¬ Passes (expected.verify after) →
        expected.verify after = .error .assertFailed := eq_assertFailed_of_not stays
    refine ⟨?_, fun differ => failed fun passes => ?_⟩
    · by_cases passes : Passes (expected.verify after)
      · exact .inl passes
      · exact .inr (failed passes)
    · exact differ ((expected.passes_verify after).mp passes).2.2.2.1

/-- A recorded payload and an equal expected one. -/
theorem verifiesSafely_iff_equal :
    (EventArgs.createData0 5 (.addr 1 0) 2).VerifiesSafely
      (runActions [.record (.createData0 5 (.addr 0 0) 2)]
        (prvClearEventData (initialState .bits64 payloadMemory))) :=
  (verifiesSafely_iff (initialState .bits64 payloadMemory)
    [.record (.createData0 5 (.addr 0 0) 2)] (.createData0 5 (.addr 1 0) 2)
    (fun call hcall => by rw [List.mem_singleton.mp hcall]; rfl) rfl).mpr (by decide)

/-- An event without payload, where two payload bytes are expected: the
verification reads through the null pointer. -/
theorem missing_payload_is_read :
    (∀ call ∈ recordings [.record (.create0 5 : EventArgs .bits64)],
      (initialState .bits64 payloadMemory).memory.Holds call.buffer call.size.toNat) ∧
    (initialState .bits64 payloadMemory).memory.Holds (.addr 1 0) 2 ∧
    Strays ((EventArgs.createData0 5 (.addr 1 0) 2).verify
      (runActions [.record (.create0 5)]
        (prvClearEventData (initialState .bits64 payloadMemory)))) ∧
    ¬ (EventArgs.createData0 5 (.addr 1 0) 2).VerifiesSafely
      (runActions [.record (.create0 5)]
        (prvClearEventData (initialState .bits64 payloadMemory))) := by
  have strays : (EventArgs.createData0 5 (.addr 1 0) 2).verify
      (runActions [.record (.create0 5)]
        (prvClearEventData (initialState .bits64 payloadMemory))) = .error .outOfBounds := rfl
  refine ⟨fun call hcall => ?_, rfl, strays, fun safe => ?_⟩
  · rw [List.mem_singleton.mp hcall]
    rfl
  have reported := safe.reports (by decide)
  rw [strays] at reported
  cases reported

end TraceRecorderTests.Mock
