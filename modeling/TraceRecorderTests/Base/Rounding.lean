import Mathlib.Algebra.Order.Floor.Ring

/-!
# Rounding half to even

The integer nearest to a number, ties going to the even one. Rounding is
monotone, which is what lets a comparison of rounded values speak about the
values themselves.
-/

namespace TraceRecorderTests.Base

variable {K : Type*} [Ring K] [LinearOrder K] [FloorRing K]

/-- The integer nearest to `x`; of two equally near ones, the even one. -/
def roundHalfEven (x : K) : ℤ :=
  if 2 * Int.fract x < 1 then ⌊x⌋
  else if 1 < 2 * Int.fract x then ⌊x⌋ + 1
  else if ⌊x⌋ % 2 = 0 then ⌊x⌋ else ⌊x⌋ + 1

theorem floor_le_roundHalfEven (x : K) : ⌊x⌋ ≤ roundHalfEven x := by
  unfold roundHalfEven
  split_ifs <;> omega

theorem roundHalfEven_le_floor_add_one (x : K) : roundHalfEven x ≤ ⌊x⌋ + 1 := by
  unfold roundHalfEven
  split_ifs <;> omega

/-- Two numbers with the same floor are rounded in the order of their
fractional parts. -/
theorem roundHalfEven_le_of_floor_eq [IsStrictOrderedRing K] {x y : K} (hxy : x ≤ y)
    (hfloor : ⌊x⌋ = ⌊y⌋) : roundHalfEven x ≤ roundHalfEven y := by
  have hfract : Int.fract x ≤ Int.fract y := by
    rw [Int.fract, Int.fract, hfloor]
    exact sub_le_sub_right hxy _
  have htwice : 2 * Int.fract x ≤ 2 * Int.fract y :=
    mul_le_mul_of_nonneg_left hfract zero_le_two
  unfold roundHalfEven
  rw [hfloor]
  -- of the nine cases three have the order of the fractional parts wrong
  split_ifs with hx hy hy' he hx' hy hy' he' hy hy' he' he'
  all_goals first
    | exact absurd (lt_of_le_of_lt htwice ‹_›) ‹_›
    | exact absurd (lt_of_lt_of_le ‹_› htwice) ‹_›
    | omega

/-- Rounding is monotone. -/
theorem roundHalfEven_le_roundHalfEven [IsStrictOrderedRing K] {x y : K} (hxy : x ≤ y) :
    roundHalfEven x ≤ roundHalfEven y := by
  rcases (Int.floor_mono hxy).eq_or_lt with hfloor | hfloor
  · exact roundHalfEven_le_of_floor_eq hxy hfloor
  · calc roundHalfEven x ≤ ⌊x⌋ + 1 := roundHalfEven_le_floor_add_one x
      _ ≤ ⌊y⌋ := hfloor
      _ ≤ roundHalfEven y := floor_le_roundHalfEven y

/-- A number that rounds higher is higher. -/
theorem lt_of_roundHalfEven_lt [IsStrictOrderedRing K] {x y : K}
    (h : roundHalfEven x < roundHalfEven y) : x < y := by
  by_contra hnot
  have hle := roundHalfEven_le_roundHalfEven (not_lt.mp hnot)
  omega

end TraceRecorderTests.Base
