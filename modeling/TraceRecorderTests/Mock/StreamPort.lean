import Mathlib.Algebra.BigOperators.Group.List.Basic
import Mathlib.Data.List.SplitLengths
import TraceRecorderTests.Mock.State

/-!
# The stream-port mock

`trcStreamPort.h` implements the recorder's stream port by a byte buffer of
`TRC_MAX_BLOB_SIZE` bytes that each write fills again from index 0, up to a
transfer limit the tests set. A store past the end of the buffer, or a read past
the end of the data, stops the model as it has no meaning in C. Every store goes
through `Filling.store`, which keeps the index.
-/

namespace TraceRecorderTests.Mock

open Base

variable {ws : WordSize}

/-- `TRC_MAX_BLOB_SIZE`. -/
def trcMaxBlobSize (ws : WordSize) : Nat := 16 * ws.bytes

/-- `MOCK_streamPortBuffer` and `MOCK_streamPortMaxTransferSize`. -/
structure StreamPort (ws : WordSize) where
  streamPortBuffer : Vector UInt8 (trcMaxBlobSize ws)
  streamPortMaxTransferSize : BitVec 32

/-- A buffer that is being filled, with the indices stored at so far. -/
structure Filling (n : Nat) where
  buffer : Vector UInt8 n
  stores : List Nat

/-- `buffer[i] = byte`. -/
def Filling.store {n : Nat} (f : Filling n) (i : Nat) (byte : UInt8) : Check (Filling n) :=
  if h : i < n then .ok ⟨f.buffer.set i byte h, f.stores ++ [i]⟩ else .error .outOfBounds

/-- The loop of `xTraceStreamPortWriteData`: copy the bytes from index `i` on,
`remaining` of them. -/
def copyLoop {n : Nat} (pvData : List UInt8) :
    (remaining i : Nat) → Filling n → Check (Filling n)
  | 0, _, f => .ok f
  | remaining + 1, i, f =>
      match pvData[i]? with
      | none => .error .outOfBounds
      | some byte => do
          let f ← f.store i byte
          copyLoop pvData remaining (i + 1) f

/-- What a write leaves behind: its result, the port, `*piBytesWritten` where the
pointer is not null, and the indices of the buffer that it has stored at. -/
structure WriteOutcome (ws : WordSize) where
  result : TraceResult
  port : StreamPort ws
  piBytesWritten : Option (BitVec 32)
  stores : List Nat

/-- `xTraceStreamPortWriteData`. The null pointer for `piBytesWritten` is
`none`. -/
def xTraceStreamPortWriteData (pvData : List UInt8) (uiSize : BitVec 32)
    (piBytesWritten : Option (BitVec 32)) (port : StreamPort ws) :
    Check (WriteOutcome ws) :=
  match piBytesWritten with
  | none => .ok ⟨.TRC_FAIL, port, none, []⟩
  | some _ => do
      let uiTransferSize :=
        if uiSize > port.streamPortMaxTransferSize then port.streamPortMaxTransferSize
        else uiSize
      let f ← copyLoop pvData uiTransferSize.toNat 0 ⟨port.streamPortBuffer, []⟩
      return ⟨.TRC_SUCCESS, { port with streamPortBuffer := f.buffer },
        some uiTransferSize, f.stores⟩

/-- `xTraceStreamPortCommit` is the same function. -/
abbrev xTraceStreamPortCommit := @xTraceStreamPortWriteData

/-! ## The copy loop -/

/-- Within bounds the loop copies its range, storing at one index after the other,
and nothing else. -/
theorem copyLoop_spec {n : Nat} (pvData : List UInt8) :
    ∀ (remaining i : Nat) (f : Filling n), i + remaining ≤ n →
      i + remaining ≤ pvData.length →
      ∃ after, copyLoop pvData remaining i f = .ok after ∧
        after.stores = f.stores ++ List.range' i remaining ∧
        ∀ j, after.buffer[j]? =
          if i ≤ j ∧ j < i + remaining then pvData[j]? else f.buffer[j]? := by
  intro remaining
  induction remaining with
  | zero =>
      intro i f _ _
      refine ⟨f, rfl, (List.append_nil _).symm, fun j => ?_⟩
      rw [if_neg (by omega)]
  | succ remaining ih =>
      intro i f hn hdata
      have hi : i < n := by omega
      have hsrc : pvData[i]? = some pvData[i] := List.getElem?_eq_getElem (by omega)
      have hstore : f.store i pvData[i] = .ok ⟨f.buffer.set i pvData[i] hi, f.stores ++ [i]⟩ :=
        dif_pos hi
      obtain ⟨after, hrun, hstores, hafter⟩ :=
        ih (i + 1) ⟨f.buffer.set i pvData[i] hi, f.stores ++ [i]⟩ (by omega) (by omega)
      -- this round writes index `i`, the later rounds write what comes after it
      refine ⟨after, ?_, ?_, fun j => ?_⟩
      · simp only [copyLoop, hsrc, hstore]
        exact hrun
      · rw [hstores, List.append_assoc, List.range'_succ]
        rfl
      · rw [hafter j, Vector.getElem?_set hi]
        by_cases hj : i = j
        · subst hj
          rw [if_neg (by omega), if_pos rfl, if_pos (by omega), hsrc]
        · by_cases hrange : i + 1 ≤ j ∧ j < i + 1 + remaining
          · rw [if_pos hrange, if_pos (by omega)]
          · rw [if_neg hrange, if_neg hj, if_neg (by omega)]

/-- A loop that is longer than the buffer reaches its end and stops there. -/
theorem copyLoop_outOfBounds {n : Nat} (pvData : List UInt8) :
    ∀ (remaining i : Nat) (f : Filling n), i ≤ n → n < i + remaining →
      copyLoop pvData remaining i f = .error .outOfBounds := by
  intro remaining
  induction remaining with
  | zero =>
      intro i f hi hn
      omega
  | succ remaining ih =>
      intro i f hi hn
      cases hbyte : pvData[i]? with
      | none => simp only [copyLoop, hbyte]
      | some byte =>
          simp only [copyLoop, hbyte]
          by_cases hlt : i < n
          · have hstore : f.store i byte = .ok ⟨f.buffer.set i byte hlt, f.stores ++ [i]⟩ :=
              dif_pos hlt
            rw [hstore]
            exact ih (i + 1) _ hlt (by omega)
          · have hstore : f.store i byte = .error .outOfBounds := dif_neg hlt
            rw [hstore]
            rfl

/-- The clamped transfer size is the smaller of the request and the limit. -/
theorem clamp_toNat (uiSize limit : BitVec 32) :
    (if uiSize > limit then limit else uiSize).toNat = min uiSize.toNat limit.toNat := by
  split
  · rename_i h
    have : limit.toNat < uiSize.toNat := h
    omega
  · rename_i h
    have : ¬ limit.toNat < uiSize.toNat := h
    omega

/-- One write within bounds: it succeeds, reports the smaller of the size and
the limit, stores at that many indices from 0 on the bytes of the data and leaves
the rest of the buffer alone. -/
theorem xTraceStreamPortWriteData_spec (pvData : List UInt8) (uiSize old : BitVec 32)
    (port : StreamPort ws) (hsize : uiSize.toNat ≤ pvData.length)
    (hfits : min uiSize.toNat port.streamPortMaxTransferSize.toNat ≤ trcMaxBlobSize ws) :
    ∃ (buffer : Vector UInt8 (trcMaxBlobSize ws)) (written : BitVec 32),
      xTraceStreamPortWriteData pvData uiSize (some old) port =
        .ok ⟨.TRC_SUCCESS, { port with streamPortBuffer := buffer }, some written,
          List.range written.toNat⟩ ∧
      written.toNat = min uiSize.toNat port.streamPortMaxTransferSize.toNat ∧
      ∀ j, buffer[j]? =
        if j < written.toNat then pvData[j]? else port.streamPortBuffer[j]? := by
  have hclamp := clamp_toNat uiSize port.streamPortMaxTransferSize
  obtain ⟨after, hrun, hstores, hbuffer⟩ :=
    copyLoop_spec pvData
      (if uiSize > port.streamPortMaxTransferSize then port.streamPortMaxTransferSize
        else uiSize).toNat 0 ⟨port.streamPortBuffer, []⟩ (by omega) (by omega)
  rw [List.nil_append, ← List.range_eq_range'] at hstores
  refine ⟨after.buffer, _, ?_, hclamp, ?_⟩
  · simp only [xTraceStreamPortWriteData, hrun, ← hstores]
    rfl
  · intro j
    rw [hbuffer j]
    simp only [Nat.zero_le, true_and, Nat.zero_add]

/-! ## A client that writes its data in parts -/

/-- One write of the client: what it returned, the bytes collected from the
buffer, and the buffer before and after. -/
structure PartialWrite (ws : WordSize) where
  result : TraceResult
  chunk : List UInt8
  before : Vector UInt8 (trcMaxBlobSize ws)
  after : Vector UInt8 (trcMaxBlobSize ws)

/-- The two names the write has for its callers. -/
inductive WriteName
  | xTraceStreamPortWriteData
  | xTraceStreamPortCommit
  deriving DecidableEq, Repr

/-- The function of that name. -/
def WriteName.write : WriteName → List UInt8 → BitVec 32 → Option (BitVec 32) → StreamPort ws →
    Check (WriteOutcome ws)
  | .xTraceStreamPortWriteData => Mock.xTraceStreamPortWriteData
  | .xTraceStreamPortCommit => Mock.xTraceStreamPortCommit

theorem WriteName.write_eq (name : WriteName) :
    @WriteName.write ws name = Mock.xTraceStreamPortWriteData := by
  cases name <;> rfl

/-- A client in the middle of its data. -/
structure Client (ws : WordSize) where
  port : StreamPort ws
  offset : Nat
  writes : List (PartialWrite ws)

/-- One turn of the client: set the limit, write the remaining suffix of the
data with its length, collect the first `*piBytesWritten` bytes of the buffer
and advance the offset by `*piBytesWritten`, an `int32_t`. -/
def Client.turn (data : List UInt8) (name : WriteName) (limit : BitVec 32) (c : Client ws) :
    Check (Client ws) := do
  let suffix := data.drop c.offset
  let port : StreamPort ws := ⟨c.port.streamPortBuffer, limit⟩
  let outcome ← name.write suffix (BitVec.ofNat 32 suffix.length) (some 0) port
  let iBytesWritten := (outcome.piBytesWritten.getD 0).toInt.toNat
  return {
    port := outcome.port
    offset := c.offset + iBytesWritten
    writes := c.writes ++ [{
      result := outcome.result
      chunk := outcome.port.streamPortBuffer.toList.take iBytesWritten
      before := port.streamPortBuffer
      after := outcome.port.streamPortBuffer }] }

/-- The turns of the client, each with the name it calls and the limit it sets. -/
def Client.run (data : List UInt8) :
    List (WriteName × BitVec 32) → Client ws → Check (Client ws)
  | [], c => .ok c
  | (name, limit) :: rest, c => do
      let c' ← c.turn data name limit
      Client.run data rest c'

/-- A write of the client went well: it succeeded, and left the buffer past the
chunk as it was. -/
def PartialWrite.Clean (w : PartialWrite ws) : Prop :=
  w.result = .TRC_SUCCESS ∧ ∀ j, w.chunk.length ≤ j → w.after[j]? = w.before[j]?

/-- Numbers below `2 ^ 31` survive the way through `uint32_t` and `int32_t`. -/
theorem toInt_toNat_of_lt {x : BitVec 32} (h : x.toNat < 2 ^ 31) :
    x.toInt.toNat = x.toNat := by
  rw [BitVec.toInt_eq_toNat_of_lt (by omega)]
  rfl

/-- One turn: the chunk is the data from the offset on, up to the limit. -/
theorem Client.turn_spec {data : List UInt8} (hdata : data.length < 2 ^ 31) (name : WriteName)
    {limit : BitVec 32} (hlimit : limit.toNat ≤ trcMaxBlobSize ws) (c : Client ws) :
    ∃ (port : StreamPort ws) (w : PartialWrite ws),
      c.turn data name limit = .ok ⟨port, c.offset + w.chunk.length, c.writes ++ [w]⟩ ∧
      w.Clean ∧ w.chunk = (data.drop c.offset).take limit.toNat := by
  have hlen : (BitVec.ofNat 32 (data.drop c.offset).length).toNat =
      (data.drop c.offset).length := by
    rw [BitVec.toNat_ofNat, Nat.mod_eq_of_lt]
    rw [List.length_drop]
    omega
  obtain ⟨buffer, written, hrun, hwritten, hbuffer⟩ :=
    xTraceStreamPortWriteData_spec (data.drop c.offset)
      (BitVec.ofNat 32 (data.drop c.offset).length) 0
      ⟨c.port.streamPortBuffer, limit⟩ (by rw [hlen]) ((Nat.min_le_right _ _).trans hlimit)
  rw [hlen] at hwritten
  -- so `*piBytesWritten` is no negative number
  have hsmall : written.toNat < 2 ^ 31 := by
    rw [List.length_drop] at hwritten
    omega
  have hchunk : buffer.toList.take written.toNat =
      (data.drop c.offset).take limit.toNat := by
    apply List.ext_getElem?
    intro j
    rw [List.getElem?_take, List.getElem?_take, Vector.getElem?_toList, hbuffer j]
    by_cases hj : j < written.toNat
    · rw [if_pos hj, if_pos hj, if_pos (by simp only at hwritten; omega)]
    · rw [if_neg hj]
      split
      · rename_i hjl
        rw [List.getElem?_eq_none]
        simp only at hwritten
        omega
      · rfl
  have hlength : (buffer.toList.take written.toNat).length = written.toNat := by
    rw [hchunk, List.length_take, hwritten]
    exact Nat.min_comm _ _
  refine ⟨⟨buffer, limit⟩, ⟨.TRC_SUCCESS, buffer.toList.take written.toNat,
    c.port.streamPortBuffer, buffer⟩, ?_, ⟨rfl, ?_⟩, hchunk⟩
  · simp only [Client.turn, name.write_eq, hrun, hlength]
    simp only [Bind.bind, Except.bind, pure, Except.pure, Option.getD_some,
      toInt_toNat_of_lt hsmall]
  · intro j hj
    have hj' : written.toNat ≤ j := hlength ▸ hj
    rw [hbuffer j, if_neg (by omega)]

/-- A run of the client: its chunks are the data from its offset on, cut by the
limits. -/
theorem Client.run_spec {data : List UInt8} (hdata : data.length < 2 ^ 31) :
    ∀ (turns : List (WriteName × BitVec 32)) (c : Client ws),
      (∀ turn ∈ turns, turn.2.toNat ≤ trcMaxBlobSize ws) →
      ∃ (port : StreamPort ws) (writes : List (PartialWrite ws)),
        Client.run data turns c =
          .ok ⟨port, c.offset + (writes.map (·.chunk)).flatten.length,
            c.writes ++ writes⟩ ∧
        (∀ w ∈ writes, w.Clean) ∧
        writes.map (·.chunk) =
          (turns.map (·.2.toNat)).splitLengths (data.drop c.offset) := by
  intro turns
  induction turns with
  | nil =>
      intro c _
      exact ⟨c.port, [], by simp [Client.run], by simp, by simp⟩
  | cons turn rest ih =>
      intro c hlimits
      obtain ⟨name, limit⟩ := turn
      have hlimit : limit.toNat ≤ trcMaxBlobSize ws := hlimits (name, limit) List.mem_cons_self
      obtain ⟨port, w, hturn, hclean, hchunk⟩ := Client.turn_spec hdata name hlimit c
      obtain ⟨port', writes, hrun, hcleans, hchunks⟩ :=
        ih ⟨port, c.offset + w.chunk.length, c.writes ++ [w]⟩
          fun l hl => hlimits l (List.mem_cons_of_mem _ hl)
      refine ⟨port', w :: writes, ?_, ?_, ?_⟩
      · simp only [Client.run, hturn]
        refine Eq.trans hrun ?_
        simp [Nat.add_assoc]
      · intro v hv
        rcases List.mem_cons.mp hv with rfl | hv
        · exact hclean
        · exact hcleans v hv
      · -- past the chunk just written, the rest of the data is what is left of it
        have hrest : data.drop (c.offset + w.chunk.length) =
            (data.drop c.offset).drop limit.toNat := by
          rw [hchunk, List.length_take, List.drop_drop]
          by_cases hshort : limit.toNat ≤ (data.drop c.offset).length
          · rw [Nat.min_eq_left hshort]
          · rw [List.length_drop] at hshort ⊢
            rw [List.drop_eq_nil_of_le (by omega), List.drop_eq_nil_of_le (by omega)]
        simp only at hchunks
        rw [List.map_cons, List.map_cons, List.splitLengths_cons, hchunks, hrest, hchunk]

/-- Chunks of given lengths, the last ones shorter or empty where the list has run
out, put together are the list up to the sum of the lengths. -/
theorem flatten_splitLengths_eq_take {α : Type*} (lengths : List Nat) (data : List α) :
    (lengths.splitLengths data).flatten = data.take lengths.sum := by
  induction lengths generalizing data with
  | nil => simp
  | cons n rest ih =>
      rw [List.splitLengths_cons, List.flatten_cons, ih, List.sum_cons, List.take_add]

/-- Writing data in parts loses, duplicates and reorders nothing. For every
sequence of limits that fit the buffer, and whichever of its two names each turn
calls, each write succeeds and leaves the buffer past its chunk alone, the chunks
put together are the data up to the offset reached, and the offset is the sum of the
limits or the end of the data. A write with the null pointer for `piBytesWritten`
fails and changes nothing. -/
theorem partial_writes_are_the_data (data : List UInt8) (hdata : data.length < 2 ^ 31)
    (start : StreamPort ws) (turns : List (WriteName × BitVec 32))
    (hlimits : ∀ turn ∈ turns, turn.2.toNat ≤ trcMaxBlobSize ws) :
    (∃ (port : StreamPort ws) (writes : List (PartialWrite ws)),
      Client.run data turns ⟨start, 0, []⟩ =
        .ok ⟨port, min data.length (turns.map (·.2.toNat)).sum, writes⟩ ∧
      writes.length = turns.length ∧
      (∀ w ∈ writes, w.result = .TRC_SUCCESS) ∧
      (writes.map (·.chunk)).flatten =
        data.take (min data.length (turns.map (·.2.toNat)).sum) ∧
      ∀ w ∈ writes, ∀ j, w.chunk.length ≤ j → w.after[j]? = w.before[j]?) ∧
    ∀ (name : WriteName) (pvData : List UInt8) (uiSize : BitVec 32) (port : StreamPort ws),
      name.write pvData uiSize none port = .ok ⟨.TRC_FAIL, port, none, []⟩ := by
  refine ⟨?_, fun name pvData uiSize port => by rw [name.write_eq]; rfl⟩
  obtain ⟨port, writes, hrun, hclean, hchunks⟩ :=
    Client.run_spec hdata turns ⟨start, 0, []⟩ hlimits
  have hflat : (writes.map (·.chunk)).flatten =
      data.take (min data.length (turns.map (·.2.toNat)).sum) := by
    rw [hchunks, flatten_splitLengths_eq_take, List.drop_zero, List.take_eq_take_iff]
    omega
  refine ⟨port, writes, ?_, ?_, fun w hw => (hclean w hw).1, hflat,
    fun w hw => (hclean w hw).2⟩
  · rw [hrun, hflat, List.length_take]
    simp
  · have hlength := congrArg List.length hchunks
    simpa using hlength

/-- The stream port of a 64-bit build with a zeroed buffer and the limit the
tests start with. -/
def zeroPort : StreamPort .bits64 := ⟨Vector.replicate _ 0, 0xFFFFFFFF⟩

theorem partial_writes_are_the_data_three :
    ∃ (port : StreamPort .bits64) (writes : List (PartialWrite .bits64)),
      Client.run [1, 2, 3, 4, 5]
        [(.xTraceStreamPortWriteData, 2), (.xTraceStreamPortCommit, 0),
          (.xTraceStreamPortCommit, 50)] ⟨zeroPort, 0, []⟩ = .ok ⟨port, 5, writes⟩ ∧
      (writes.map (·.chunk)).flatten = [1, 2, 3, 4, 5] :=
  have ⟨port, writes, hrun, _, _, hflat, _⟩ :=
    (partial_writes_are_the_data [1, 2, 3, 4, 5] (by simp) zeroPort
      [(.xTraceStreamPortWriteData, 2), (.xTraceStreamPortCommit, 0),
        (.xTraceStreamPortCommit, 50)]
      (by simp [trcMaxBlobSize, WordSize.bytes])).1
  ⟨port, writes, hrun, hflat⟩

end TraceRecorderTests.Mock
