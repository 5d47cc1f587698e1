import Mathlib.Data.List.Basic

/-!
# Substring search

`firstMatch` is the textbook search for the first occurrence of a pattern in a
list. When the pattern starts with a separator, a piece without that separator
is stepped over as a whole (`firstMatch_cons_append`), so on a string made of
separated pieces the search goes piece by piece.
-/

namespace TraceRecorderTests.Base

variable {α : Type*} [DecidableEq α]

/-- The first position at which `pattern` occurs in a list. -/
def firstMatch (pattern : List α) : List α → Option Nat
  | [] => if pattern = [] then some 0 else none
  | c :: rest =>
      if pattern <+: c :: rest then some 0
      else (firstMatch pattern rest).map (· + 1)

theorem firstMatch_of_isPrefix {pattern text : List α} (h : pattern <+: text) :
    firstMatch pattern text = some 0 := by
  cases text with
  | nil => rw [firstMatch, if_pos (List.prefix_nil.mp h)]
  | cons c rest => rw [firstMatch, if_pos h]

theorem firstMatch_cons_of_not_isPrefix {pattern : List α} {c : α} {rest : List α}
    (h : ¬ pattern <+: c :: rest) :
    firstMatch pattern (c :: rest) = (firstMatch pattern rest).map (· + 1) := by
  rw [firstMatch, if_neg h]

/-- The search comes back without a position exactly when the pattern does not
occur. -/
theorem firstMatch_eq_none_iff {pattern text : List α} :
    firstMatch pattern text = none ↔ ¬ pattern <:+: text := by
  induction text with
  | nil =>
      rw [firstMatch, List.infix_nil]
      split
      · next h => exact iff_of_false nofun (not_not.mpr h)
      · next h => exact iff_of_true rfl h
  | cons c rest ih =>
      rw [firstMatch, List.infix_cons_iff, not_or, ← ih]
      split
      · next h => exact iff_of_false nofun fun hnot => hnot.1 h
      · next h => rw [Option.map_eq_none_iff, and_iff_right h]

/-- The pattern stands at the position found. -/
theorem isPrefix_drop_of_firstMatch {pattern text : List α} {n : Nat}
    (h : firstMatch pattern text = some n) : pattern <+: text.drop n := by
  induction text generalizing n with
  | nil =>
      rw [firstMatch] at h
      split at h
      · next hnil => exact hnil ▸ List.nil_prefix
      · cases h
  | cons c rest ih =>
      rw [firstMatch] at h
      split at h
      · next hpre =>
          cases h
          exact hpre
      · obtain ⟨k, hk, rfl⟩ := Option.map_eq_some_iff.mp h
        exact ih hk

omit [DecidableEq α] in
/-- A pattern without the separator occurs in one of the pieces it separates. -/
theorem infix_append_cons_iff {c : α} {pattern : List α} (h : c ∉ pattern) (a b : List α) :
    pattern <:+: a ++ c :: b ↔ pattern <:+: a ∨ pattern <:+: b := by
  have hstart : ∀ p : List α, c ∉ p → p <+: c :: b → p = [] := by
    intro p hp hpre
    cases p with
    | nil => rfl
    | cons x p =>
        obtain ⟨rfl, -⟩ := List.cons_prefix_cons.mp hpre
        exact absurd List.mem_cons_self hp
  constructor
  · intro hinfix
    rcases List.infix_append_iff_ne_nil.mp hinfix with
      ha | hcb | ⟨l, r, -, hr, rfl, -, hpre⟩
    · exact .inl ha
    · rcases List.infix_cons_iff.mp hcb with hpre | hb
      · rw [hstart pattern h hpre]
        exact .inl List.nil_infix
      · exact .inr hb
    · -- a match over the separator would contain it
      exact absurd (hstart r (fun hc => h (List.mem_append_right l hc)) hpre) hr
  · rintro (ha | hb)
    · exact ha.trans (List.prefix_append a (c :: b)).isInfix
    · exact hb.trans ((List.suffix_cons c b).trans (List.suffix_append a (c :: b))).isInfix

/-- A piece without the pattern's first letter is stepped over. -/
theorem firstMatch_cons_append {c : α} {piece : List α} (h : c ∉ piece)
    (pattern rest : List α) :
    firstMatch (c :: pattern) (piece ++ rest) =
      (firstMatch (c :: pattern) rest).map (· + piece.length) := by
  induction piece with
  | nil => simp
  | cons a piece ih =>
      obtain ⟨hne, hnot⟩ := not_or.mp (mt List.mem_cons.mpr h)
      have hstart : ¬ c :: pattern <+: a :: (piece ++ rest) :=
        fun hpre => hne (List.cons_prefix_cons.mp hpre).1
      rw [List.cons_append, firstMatch_cons_of_not_isPrefix hstart, ih hnot,
        Option.map_map]
      rfl

end TraceRecorderTests.Base
