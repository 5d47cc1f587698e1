import TraceRecorderTests.Mock.StreamPort

/-!
# Where the stream-port mock stores

The number of bytes a write stores is bounded by the caller's size and by the
limit the tests set, and neither of them by the length of the buffer. A write is
inside the buffer exactly when the smaller of the two fits
(`writesInside_iff`). `xTraceStreamPortAllocate` does not look at the size it is
asked for, so it hands out a buffer that may be too short (`allocatesInside_iff`).
-/

namespace TraceRecorderTests.Mock

open Base

variable {ws : WordSize}

/-! ## Writing -/

/-- A call fails without a store, or stores inside the buffer only and reports
as many bytes as it stored, which is no negative number. A store past the end of
the buffer leaves no outcome. -/
def WritesInside (pvData : List UInt8) (uiSize old : BitVec 32) (port : StreamPort ws) :
    Prop :=
  ∃ outcome, xTraceStreamPortWriteData pvData uiSize (some old) port = .ok outcome ∧
    (outcome.result = .TRC_FAIL ∧ outcome.stores = [] ∨
      outcome.result = .TRC_SUCCESS ∧
        (∀ i ∈ outcome.stores, i < trcMaxBlobSize ws) ∧
        ∃ written, outcome.piBytesWritten = some written ∧ 0 ≤ written.toInt ∧
          written.toInt = outcome.stores.length)

/-- The outcome tells the stores: where it has one, the byte in the buffer is the one
of the data, and elsewhere it is what it was. -/
def TellsStores (pvData : List UInt8) (port : StreamPort ws) (outcome : WriteOutcome ws) :
    Prop :=
  ∀ i, outcome.port.streamPortBuffer[i]? =
    if i ∈ outcome.stores then pvData[i]? else port.streamPortBuffer[i]?

theorem trcMaxBlobSize_le (ws : WordSize) : trcMaxBlobSize ws ≤ 128 := by
  cases ws <;> decide

/-- A write that does not fit stores past the end of the buffer. -/
theorem xTraceStreamPortWriteData_outOfBounds {pvData : List UInt8} {uiSize old : BitVec 32}
    {port : StreamPort ws}
    (hlong : trcMaxBlobSize ws < min uiSize.toNat port.streamPortMaxTransferSize.toNat) :
    xTraceStreamPortWriteData pvData uiSize (some old) port = .error .outOfBounds := by
  have hstop := copyLoop_outOfBounds pvData
    (if uiSize > port.streamPortMaxTransferSize then port.streamPortMaxTransferSize
      else uiSize).toNat 0 ⟨port.streamPortBuffer, []⟩ (Nat.zero_le _)
    (by rw [clamp_toNat]; omega)
  simp only [xTraceStreamPortWriteData, hstop]
  rfl

/-- A write is inside the buffer exactly when the smaller of its size and the
limit fits. -/
theorem writesInside_iff {pvData : List UInt8} {uiSize : BitVec 32} (old : BitVec 32)
    (port : StreamPort ws) (hsource : uiSize.toNat ≤ pvData.length) :
    WritesInside pvData uiSize old port ↔
      min uiSize.toNat port.streamPortMaxTransferSize.toNat ≤ trcMaxBlobSize ws := by
  constructor
  · intro hinside
    obtain ⟨outcome, hrun, -⟩ := hinside
    by_contra hlong
    rw [xTraceStreamPortWriteData_outOfBounds (not_le.mp hlong)] at hrun
    cases hrun
  · intro hfits
    obtain ⟨buffer, written, hrun, hwritten, -⟩ :=
      xTraceStreamPortWriteData_spec pvData uiSize old port hsource hfits
    have hblob := trcMaxBlobSize_le ws
    have hint : written.toInt = written.toNat := BitVec.toInt_eq_toNat_of_lt (by omega)
    refine ⟨_, hrun, .inr ⟨rfl, fun i hi => ?_, written, rfl, ?_, ?_⟩⟩
    · have hlt : i < written.toNat := List.mem_range.mp hi
      omega
    · rw [hint]
      exact Int.natCast_nonneg _
    · rw [hint, List.length_range]

/-- Whatever a call that returns has stored, its outcome tells. -/
theorem tellsStores_of_eq_ok {pvData : List UInt8} {uiSize old : BitVec 32}
    {port : StreamPort ws} (hsource : uiSize.toNat ≤ pvData.length) {outcome : WriteOutcome ws}
    (h : xTraceStreamPortWriteData pvData uiSize (some old) port = .ok outcome) :
    TellsStores pvData port outcome := by
  by_cases hfits : min uiSize.toNat port.streamPortMaxTransferSize.toNat ≤ trcMaxBlobSize ws
  · obtain ⟨buffer, written, hrun, -, hbuffer⟩ :=
      xTraceStreamPortWriteData_spec pvData uiSize old port hsource hfits
    cases h.symm.trans hrun
    intro i
    simp only [List.mem_range]
    exact hbuffer i
  · rw [xTraceStreamPortWriteData_outOfBounds (not_le.mp hfits)] at h
    cases h

/-! ## Allocating -/

/-- The two arrays of the port, `TRC_MAX_BLOB_SIZE` bytes each. -/
inductive PortArray
  | tmpBuffer
  | streamPortBuffer
  deriving DecidableEq, Repr

/-- `xTraceStreamPortAllocate`: the result, and `*ppvData` where the pointer is
not null. -/
def xTraceStreamPortAllocate (_uiSize : BitVec 32) (ppvData : Option (Ptr PortArray)) :
    TraceResult × Option (Ptr PortArray) :=
  match ppvData with
  | none => (.TRC_FAIL, none)
  | some _ => (.TRC_SUCCESS, some (.addr .tmpBuffer 0))

/-- Filling `size` bytes at a pointer stores inside `MOCK_tmpBuffer` only. -/
def FillsInside (ws : WordSize) (p : Ptr PortArray) (size : Nat) : Prop :=
  ∀ i < size, ∃ offset, p = .addr .tmpBuffer offset ∧ offset + i < trcMaxBlobSize ws

/-- Where the allocation succeeds, the caller can fill what it asked for. -/
def AllocatesInside (ws : WordSize) (uiSize : BitVec 32) (ppvData : Option (Ptr PortArray)) :
    Prop :=
  (xTraceStreamPortAllocate uiSize ppvData).1 = .TRC_SUCCESS →
    ∃ address, (xTraceStreamPortAllocate uiSize ppvData).2 = some address ∧
      FillsInside ws address uiSize.toNat

theorem allocatesInside_iff (ws : WordSize) (uiSize : BitVec 32)
    (ppvData : Option (Ptr PortArray)) :
    AllocatesInside ws uiSize ppvData ↔ ppvData = none ∨ uiSize.toNat ≤ trcMaxBlobSize ws := by
  cases ppvData with
  | none => exact iff_of_true (fun hfail => nomatch hfail) (.inl rfl)
  | some old =>
      constructor
      · intro hinside
        obtain ⟨address, haddress, hfills⟩ := hinside rfl
        cases haddress
        refine .inr ?_
        by_contra hlong
        obtain ⟨offset, hoffset, hlt⟩ := hfills (trcMaxBlobSize ws) (not_le.mp hlong)
        cases hoffset
        omega
      · rintro (hnull | hfits) -
        · cases hnull
        · refine ⟨.addr .tmpBuffer 0, rfl, fun i hi => ⟨0, rfl, ?_⟩⟩
          omega

/-! ## Both -/

/-- On every build, for every request and every limit: a write that returns tells
its stores; it stays in its buffer exactly when the smaller of its size and the
limit is at most `TRC_MAX_BLOB_SIZE`; and what an allocation hands out can be filled
exactly when it fails or the requested size is. -/
theorem stream_port_inside_iff (pvData : List UInt8) (uiSize old : BitVec 32)
    (port : StreamPort ws) (hsource : uiSize.toNat ≤ pvData.length) (request : BitVec 32)
    (ppvData : Option (Ptr PortArray)) :
    (∀ outcome, xTraceStreamPortWriteData pvData uiSize (some old) port = .ok outcome →
      TellsStores pvData port outcome) ∧
    (WritesInside pvData uiSize old port ↔
      min uiSize.toNat port.streamPortMaxTransferSize.toNat ≤ trcMaxBlobSize ws) ∧
    (AllocatesInside ws request ppvData ↔
      ppvData = none ∨ request.toNat ≤ trcMaxBlobSize ws) :=
  ⟨fun _ hrun => tellsStores_of_eq_ok hsource hrun, writesInside_iff old port hsource,
    allocatesInside_iff ws request ppvData⟩

theorem stream_port_inside_iff_three :
    WritesInside [1, 2, 3] 3 0 zeroPort ∧ AllocatesInside .bits64 3 none := by
  obtain ⟨-, hwrite, hallocate⟩ := stream_port_inside_iff [1, 2, 3] 3 0 zeroPort (by decide) 3 none
  exact ⟨hwrite.mpr (by decide), hallocate.mpr (.inl rfl)⟩

/-- On a 32-bit build, the nine events of twelve bytes that fill the 116-byte
ring of the tests do not fit, and 65 bytes are allocated in a buffer of 64. -/
theorem ring_is_written_past_the_buffer :
    ¬ WritesInside (List.replicate 108 0) 108 0
      (⟨Vector.replicate _ 0, 0xFFFFFFFF⟩ : StreamPort .bits32) ∧
    ¬ AllocatesInside .bits32 65 (some .null) := by
  constructor
  · rw [writesInside_iff _ _ (by decide)]
    decide
  · rw [allocatesInside_iff]
    decide

end TraceRecorderTests.Mock
