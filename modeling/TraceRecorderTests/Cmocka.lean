import TraceRecorderTests.Base.Memory

/-!
# The cmocka assertions the tests rest on

`assert_int_equal` compares its operands after a cast to `intmax_t`, and
`assert_memory_equal` walks both buffers to the end counting differences; a
failed assertion leaves the test through `_fail`. A test step is therefore a
chain of checks that stops at the first failed assertion, or at the first read
outside a buffer, which C leaves undefined.
-/

namespace TraceRecorderTests

open Base

/-- How a check can stop: a failed assertion, or a read outside a buffer. -/
inductive Stop
  | assertFailed
  | outOfBounds
  deriving DecidableEq, Repr

/-- A chain of assertions. -/
abbrev Check (α : Type) := Except Stop α

/-- The check ran to its end. -/
def Passes {α : Type} (c : Check α) : Prop := c.isOk = true

instance {α : Type} (c : Check α) : Decidable (Passes c) :=
  inferInstanceAs (Decidable (c.isOk = true))

@[simp] theorem passes_pure {α : Type} (a : α) : Passes (pure a : Check α) := rfl

@[simp] theorem passes_ok {α : Type} (a : α) : Passes (.ok a : Check α) := rfl

@[simp] theorem not_passes_error {α : Type} (e : Stop) : ¬ Passes (.error e : Check α) := by
  simp [Passes, Except.isOk, Except.toBool]

/-- In a chain of unit checks both halves have to pass. -/
theorem passes_unit_bind {β : Type} (c : Check Unit) (k : Unit → Check β) :
    Passes (c >>= k) ↔ Passes c ∧ Passes (k ()) := by
  cases c with
  | error e => simp [Bind.bind, Except.bind]
  | ok a => simp [Bind.bind, Except.bind]

/-- The check stops at a read outside a buffer. -/
def Strays {α : Type} (c : Check α) : Prop := c = .error .outOfBounds

/-- A chain strays in its first half, or in its second if it gets there. -/
theorem strays_unit_bind {β : Type} (c : Check Unit) (k : Unit → Check β) :
    Strays (c >>= k) ↔ Strays c ∨ Passes c ∧ Strays (k ()) := by
  cases c with
  | error e => simp [Strays, Bind.bind, Except.bind]
  | ok a => simp [Strays, Bind.bind, Except.bind]

/-- What neither passes nor strays is a failed assertion. -/
theorem eq_assertFailed_of_not {α : Type} {c : Check α} (hstrays : ¬ Strays c)
    (hpasses : ¬ Passes c) : c = .error .assertFailed := by
  cases c with
  | error e =>
      cases e with
      | assertFailed => rfl
      | outOfBounds => exact absurd rfl hstrays
  | ok a => exact absurd (passes_ok a) hpasses

/-! ## Integers -/

/-- `intmax_t`. -/
abbrev IntMax := BitVec 64

/-- `cast_to_intmax_type` on an unsigned operand of `w` bits. -/
def castToIntmaxType {w : Nat} (value : BitVec w) : IntMax := value.setWidth 64

/-- The cast loses nothing of a word of at most 64 bits. -/
theorem castToIntmaxType_inj {w : Nat} (hw : w ≤ 64) (a b : BitVec w) :
    castToIntmaxType a = castToIntmaxType b ↔ a = b := by
  constructor
  · intro h
    apply BitVec.eq_of_toNat_eq
    have hnat := congrArg BitVec.toNat h
    have fits : ∀ x : BitVec w, x.toNat < 2 ^ 64 := fun x =>
      Nat.lt_of_lt_of_le x.isLt (Nat.pow_le_pow_right (by omega) hw)
    simp only [castToIntmaxType, BitVec.toNat_setWidth] at hnat
    rwa [Nat.mod_eq_of_lt (fits a), Nat.mod_eq_of_lt (fits b)] at hnat
  · rintro rfl
    rfl

/-- `assert_int_equal(a, b)`. -/
def assertIntEqual (a b : IntMax) : Check Unit :=
  if a = b then pure () else throw .assertFailed

@[simp] theorem passes_assertIntEqual (a b : IntMax) :
    Passes (assertIntEqual a b) ↔ a = b := by
  unfold assertIntEqual
  split
  · simp_all
  · rename_i h
    simpa [throw, throwThe, MonadExceptOf.throw] using h

@[simp] theorem not_strays_assertIntEqual (a b : IntMax) : ¬ Strays (assertIntEqual a b) := by
  unfold assertIntEqual
  split
  · exact nofun
  · exact nofun

/-! ## Memory -/

section Memory

variable {B : Type}

/-- Read one byte, or stop where C has undefined behaviour. -/
def readByte (m : Memory B UInt8) (p : Ptr B) (i : Nat) : Check UInt8 :=
  match m.load p i with
  | some byte => .ok byte
  | none => .error .outOfBounds

/-- The loop of `memory_equal_display_error`: every byte of both buffers is
read, also after a difference, and the differences are counted. -/
def countDifferences (m : Memory B UInt8) (a b : Ptr B) :
    (remaining i differences : Nat) → Check Nat
  | 0, _, differences => .ok differences
  | remaining + 1, i, differences => do
      let l ← readByte m a i
      let r ← readByte m b i
      countDifferences m a b remaining (i + 1)
        (if l ≠ r then differences + 1 else differences)

/-- `memory_equal_display_error`: whether no difference was found. -/
def memoryEqualDisplayError (m : Memory B UInt8) (a b : Ptr B) (size : Nat) :
    Check Bool := do
  let differences ← countDifferences m a b size 0 0
  return ! (differences > 0)

/-- `assert_memory_equal(a, b, size)`. -/
def assertMemoryEqual (m : Memory B UInt8) (a b : Ptr B) (size : Nat) :
    Check Unit := do
  if ← memoryEqualDisplayError m a b size then pure () else throw .assertFailed

/-- The loop ends exactly when both buffers can be read to the end, and then
it has counted up from `differences` by the number of unequal positions: the
count stays where it was just when the buffers agree on the range. -/
theorem countDifferences_eq_ok (m : Memory B UInt8) (a b : Ptr B) :
    ∀ (remaining i differences total : Nat),
      countDifferences m a b remaining i differences = .ok total →
        differences ≤ total ∧
        (∀ j, i ≤ j → j < i + remaining →
          (m.load a j).isSome ∧ (m.load b j).isSome) ∧
        (total = differences ↔
          ∀ j, i ≤ j → j < i + remaining → m.load a j = m.load b j) := by
  intro remaining
  induction remaining with
  | zero =>
      intro i differences total h
      simp only [countDifferences, Except.ok.injEq] at h
      subst h
      refine ⟨Nat.le_refl _, fun j h1 h2 => by omega, ?_⟩
      exact ⟨fun _ j h1 h2 => by omega, fun _ => rfl⟩
  | succ remaining ih =>
      intro i differences total h
      simp only [countDifferences] at h
      cases hl : m.load a i with
      | none => simp [readByte, hl, Bind.bind, Except.bind] at h
      | some l =>
          cases hr : m.load b i with
          | none => simp [readByte, hl, hr, Bind.bind, Except.bind] at h
          | some r =>
              simp only [readByte, hl, hr, Bind.bind, Except.bind] at h
              obtain ⟨hle, hread, heq⟩ := ih _ _ _ h
              have split : ∀ j, i ≤ j → j < i + (remaining + 1) →
                  j = i ∨ (i + 1 ≤ j ∧ j < i + 1 + remaining) := by
                intro j h1 h2
                omega
              refine ⟨?_, ?_, ?_⟩
              · split at hle <;> omega
              · intro j h1 h2
                rcases split j h1 h2 with rfl | ⟨h3, h4⟩
                · simp [hl, hr]
                · exact hread j h3 h4
              · constructor
                · intro htotal j h1 h2
                  have hlr : l = r := by
                    by_contra hne
                    rw [if_pos hne] at hle
                    omega
                  rw [if_neg (not_not.mpr hlr)] at heq
                  rcases split j h1 h2 with rfl | ⟨h3, h4⟩
                  · rw [hl, hr, hlr]
                  · exact heq.mp htotal j h3 h4
                · intro hall
                  have hlr : l = r := by
                    have := hall i (Nat.le_refl _) (by omega)
                    rw [hl, hr] at this
                    exact Option.some.inj this
                  rw [if_neg (not_not.mpr hlr)] at heq
                  exact heq.mpr fun j h3 h4 => hall j (by omega) (by omega)

/-- When both buffers can be read to the end, the loop ends. -/
theorem countDifferences_isOk (m : Memory B UInt8) (a b : Ptr B) :
    ∀ (remaining i differences : Nat),
      (∀ j, i ≤ j → j < i + remaining → (m.load a j).isSome ∧ (m.load b j).isSome) →
        ∃ total, countDifferences m a b remaining i differences = .ok total := by
  intro remaining
  induction remaining with
  | zero => intro i differences _; exact ⟨differences, rfl⟩
  | succ remaining ih =>
      intro i differences h
      obtain ⟨ha, hb⟩ := h i (Nat.le_refl _) (by omega)
      obtain ⟨l, hl⟩ := Option.isSome_iff_exists.mp ha
      obtain ⟨r, hr⟩ := Option.isSome_iff_exists.mp hb
      obtain ⟨total, htotal⟩ := ih (i + 1)
        (if l ≠ r then differences + 1 else differences)
        (fun j h1 h2 => h j (by omega) (by omega))
      exact ⟨total, by
        simpa only [countDifferences, readByte, hl, hr, Bind.bind, Except.bind]
          using htotal⟩

/-- The loop stops at nothing but a read outside a buffer. -/
theorem countDifferences_ne_assertFailed (m : Memory B UInt8) (a b : Ptr B) :
    ∀ remaining i differences : Nat,
      countDifferences m a b remaining i differences ≠ .error .assertFailed := by
  intro remaining
  induction remaining with
  | zero =>
      intro i differences
      exact nofun
  | succ remaining ih =>
      intro i differences
      cases hl : m.load a i with
      | none => simp [countDifferences, readByte, hl, Bind.bind, Except.bind]
      | some l =>
          cases hr : m.load b i with
          | none => simp [countDifferences, readByte, hl, hr, Bind.bind, Except.bind]
          | some r =>
              simp only [countDifferences, readByte, hl, hr, Bind.bind, Except.bind]
              exact ih _ _

section assertMemoryEqual

variable {m : Memory B UInt8} {a b : Ptr B} {size : Nat}

/-- From the start, the loop ends exactly when both buffers are long enough. -/
theorem exists_countDifferences_iff :
    (∃ total, countDifferences m a b size 0 0 = .ok total) ↔
      (m.span a size).isSome ∧ (m.span b size).isSome := by
  constructor
  · rintro ⟨total, htotal⟩
    obtain ⟨-, hread, -⟩ := countDifferences_eq_ok m a b size 0 0 total htotal
    exact ⟨Memory.span_isSome fun i hi => (hread i (Nat.zero_le _) (by omega)).1,
      Memory.span_isSome fun i hi => (hread i (Nat.zero_le _) (by omega)).2⟩
  · rintro ⟨ha, hb⟩
    exact countDifferences_isOk m a b size 0 0 fun j _ hj =>
      ⟨Memory.load_isSome_of_span ha (by omega), Memory.load_isSome_of_span hb (by omega)⟩

theorem assertMemoryEqual_of_error {e : Stop}
    (h : countDifferences m a b size 0 0 = .error e) : assertMemoryEqual m a b size = .error e := by
  unfold assertMemoryEqual memoryEqualDisplayError
  rw [h]
  rfl

theorem assertMemoryEqual_of_ok {total : Nat} (h : countDifferences m a b size 0 0 = .ok total) :
    assertMemoryEqual m a b size = if total = 0 then .ok () else .error .assertFailed := by
  unfold assertMemoryEqual memoryEqualDisplayError
  rw [h]
  by_cases hzero : total = 0
  · rw [if_pos hzero, hzero]
    rfl
  · have hpos : 0 < total := Nat.pos_of_ne_zero hzero
    simp [hzero, hpos, Bind.bind, Except.bind, pure, Except.pure, throw, throwThe,
      MonadExceptOf.throw]

end assertMemoryEqual

/-- `assert_memory_equal` passes exactly when both buffers can be read to the
end and hold the same bytes. -/
theorem passes_assertMemoryEqual (m : Memory B UInt8) (a b : Ptr B) (size : Nat) :
    Passes (assertMemoryEqual m a b size) ↔
      ∃ bytes, m.span a size = some bytes ∧ m.span b size = some bytes := by
  constructor
  · intro h
    cases hcount : countDifferences m a b size 0 0 with
    | error e =>
        rw [assertMemoryEqual_of_error hcount] at h
        exact absurd h (not_passes_error e)
    | ok total =>
        obtain ⟨_, _, heq⟩ := countDifferences_eq_ok m a b size 0 0 total hcount
        have hzero : total = 0 := by
          by_contra hne
          rw [assertMemoryEqual_of_ok hcount, if_neg hne] at h
          exact not_passes_error _ h
        obtain ⟨readA, readB⟩ := exists_countDifferences_iff.mp ⟨total, hcount⟩
        obtain ⟨bytesA, hA⟩ := Option.isSome_iff_exists.mp readA
        obtain ⟨bytesB, hB⟩ := Option.isSome_iff_exists.mp readB
        have same : bytesA = bytesB := by
          apply List.ext_getElem?
          intro i
          by_cases hi : i < size
          · rw [← Memory.load_of_span hA hi, ← Memory.load_of_span hB hi]
            exact heq.mp hzero i (Nat.zero_le _) (by omega)
          · rw [List.getElem?_eq_none (by rw [Memory.span_length hA]; omega),
              List.getElem?_eq_none (by rw [Memory.span_length hB]; omega)]
        exact ⟨bytesA, hA, same ▸ hB⟩
  · rintro ⟨bytes, hA, hB⟩
    have readA : (m.span a size).isSome := by rw [hA]; rfl
    have readB : (m.span b size).isSome := by rw [hB]; rfl
    obtain ⟨total, htotal⟩ := exists_countDifferences_iff.mpr ⟨readA, readB⟩
    obtain ⟨_, _, heq⟩ := countDifferences_eq_ok m a b size 0 0 total htotal
    have hzero : total = 0 := heq.mpr fun j _ hj => by
      rw [Memory.load_of_span hA (by omega), Memory.load_of_span hB (by omega)]
    rw [assertMemoryEqual_of_ok htotal, if_pos hzero]
    exact passes_ok ()

/-- `assert_memory_equal` strays exactly when one of the buffers cannot be read
to the end: the loop goes on after a difference. -/
theorem strays_assertMemoryEqual (m : Memory B UInt8) (a b : Ptr B) (size : Nat) :
    Strays (assertMemoryEqual m a b size) ↔
      ¬ ((m.span a size).isSome ∧ (m.span b size).isSome) := by
  rw [← exists_countDifferences_iff]
  cases hcount : countDifferences m a b size 0 0 with
  | error e =>
      have hstray : e = .outOfBounds := by
        cases e with
        | assertFailed => exact absurd hcount (countDifferences_ne_assertFailed m a b size 0 0)
        | outOfBounds => rfl
      rw [assertMemoryEqual_of_error hcount, hstray]
      refine iff_of_true rfl ?_
      rintro ⟨total, htotal⟩
      cases htotal
  | ok total =>
      rw [assertMemoryEqual_of_ok hcount]
      refine iff_of_false ?_ (not_not.mpr ⟨total, rfl⟩)
      split
      · exact nofun
      · exact nofun

end Memory

end TraceRecorderTests
