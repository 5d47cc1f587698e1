import Mathlib.Computability.Language

/-!
# Wildcard patterns

A wildcard pattern is a list of letters, of places for any one letter and of places
for any word; its language is the product of what they stand for (`globLanguage`).
-/

namespace TraceRecorderTests.Base

/-- A piece of a wildcard pattern. -/
inductive Wild (α : Type)
  | letter (a : α)
  | one
  | many
  deriving DecidableEq, Repr

variable {α : Type}

/-- The words a piece stands for. -/
def Wild.language : Wild α → Language α
  | .letter a => {w | w = [a]}
  | .one => {w | w.length = 1}
  | .many => {_w | True}

/-- The words that match a pattern. -/
def globLanguage (pattern : List (Wild α)) : Language α := (pattern.map Wild.language).prod

@[simp] theorem mem_globLanguage_nil {w : List α} :
    w ∈ globLanguage ([] : List (Wild α)) ↔ w = [] := by
  rw [globLanguage, List.map_nil, List.prod_nil, Language.mem_one]

theorem globLanguage_cons (p : Wild α) (pattern : List (Wild α)) :
    globLanguage (p :: pattern) = p.language * globLanguage pattern := by
  rw [globLanguage, List.map_cons, List.prod_cons, globLanguage]

/-- A letter matches itself. -/
theorem mem_globLanguage_letter {a : α} {pattern : List (Wild α)} {w : List α} :
    w ∈ globLanguage (.letter a :: pattern) ↔
      ∃ rest, w = a :: rest ∧ rest ∈ globLanguage pattern := by
  rw [globLanguage_cons, Language.mem_mul]
  constructor
  · rintro ⟨front, hfront, rest, hrest, rfl⟩
    obtain rfl : front = [a] := hfront
    exact ⟨rest, rfl, hrest⟩
  · rintro ⟨rest, rfl, hrest⟩
    exact ⟨[a], rfl, rest, hrest, rfl⟩

/-- Any one letter. -/
theorem mem_globLanguage_one {pattern : List (Wild α)} {w : List α} :
    w ∈ globLanguage (.one :: pattern) ↔ ∃ a rest, w = a :: rest ∧ rest ∈ globLanguage pattern := by
  rw [globLanguage_cons, Language.mem_mul]
  constructor
  · rintro ⟨front, hfront, rest, hrest, rfl⟩
    obtain ⟨a, rfl⟩ := List.length_eq_one_iff.mp hfront
    exact ⟨a, rest, rfl, hrest⟩
  · rintro ⟨a, rest, rfl, hrest⟩
    exact ⟨[a], rfl, rest, hrest, rfl⟩

/-- Any word: the rest of the pattern matches a suffix. -/
theorem mem_globLanguage_many {pattern : List (Wild α)} {w : List α} :
    w ∈ globLanguage (.many :: pattern) ↔ ∃ rest, rest <:+ w ∧ rest ∈ globLanguage pattern := by
  rw [globLanguage_cons, Language.mem_mul]
  constructor
  · rintro ⟨front, -, rest, hrest, rfl⟩
    exact ⟨rest, List.suffix_append front rest, hrest⟩
  · rintro ⟨rest, ⟨front, rfl⟩, hrest⟩
    exact ⟨front, trivial, rest, hrest, rfl⟩

/-- The empty word matches where nothing but words are asked for. -/
theorem nil_mem_globLanguage_iff {pattern : List (Wild α)} :
    [] ∈ globLanguage pattern ↔ ∀ p ∈ pattern, p = .many := by
  induction pattern with
  | nil => simp
  | cons p pattern ih =>
      cases p with
      | letter a => simp [mem_globLanguage_letter]
      | one => simp [mem_globLanguage_one]
      | many => simp [mem_globLanguage_many, ih]

/-- A pattern that asks for words only matches everything. -/
theorem mem_globLanguage_of_many {pattern : List (Wild α)} (hne : pattern ≠ [])
    (hall : ∀ p ∈ pattern, p = .many) (w : List α) : w ∈ globLanguage pattern := by
  cases pattern with
  | nil => exact absurd rfl hne
  | cons p pattern =>
      obtain rfl := hall p List.mem_cons_self
      refine mem_globLanguage_many.mpr ⟨[], List.nil_suffix, nil_mem_globLanguage_iff.mpr ?_⟩
      exact fun q hq => hall q (List.mem_cons_of_mem _ hq)

section Length

variable [DecidableEq α]

/-- How many letters a pattern asks for. -/
def lettersAsked (pattern : List (Wild α)) : Nat := pattern.countP fun p => p ≠ .many

theorem lettersAsked_le_length {pattern : List (Wild α)} {w : List α}
    (h : w ∈ globLanguage pattern) : lettersAsked pattern ≤ w.length := by
  induction pattern generalizing w with
  | nil => exact Nat.zero_le _
  | cons p pattern ih =>
      cases p with
      | letter a =>
          obtain ⟨rest, rfl, hrest⟩ := mem_globLanguage_letter.mp h
          have hle := ih hrest
          simp only [lettersAsked, List.countP_cons, List.length_cons] at hle ⊢
          simpa using hle
      | one =>
          obtain ⟨a, rest, rfl, hrest⟩ := mem_globLanguage_one.mp h
          have hle := ih hrest
          simp only [lettersAsked, List.countP_cons, List.length_cons] at hle ⊢
          simpa using hle
      | many =>
          obtain ⟨rest, hsuffix, hrest⟩ := mem_globLanguage_many.mp h
          have hle := (ih hrest).trans hsuffix.length_le
          simpa [lettersAsked, List.countP_cons] using hle

/-- A word with no more letters than the pattern asks for. -/
theorem exists_shortest [Nonempty α] (pattern : List (Wild α)) :
    ∃ w ∈ globLanguage pattern, w.length = lettersAsked pattern := by
  induction pattern with
  | nil => exact ⟨[], by simp, rfl⟩
  | cons p pattern ih =>
      obtain ⟨w, hw, hlength⟩ := ih
      cases p with
      | letter a =>
          refine ⟨a :: w, mem_globLanguage_letter.mpr ⟨w, rfl, hw⟩, ?_⟩
          rw [List.length_cons, hlength]
          simp [lettersAsked]
      | one =>
          obtain ⟨a⟩ := ‹Nonempty α›
          refine ⟨a :: w, mem_globLanguage_one.mpr ⟨a, w, rfl, hw⟩, ?_⟩
          rw [List.length_cons, hlength]
          simp [lettersAsked]
      | many =>
          refine ⟨w, mem_globLanguage_many.mpr ⟨w, List.suffix_rfl, hw⟩, ?_⟩
          rw [hlength]
          simp [lettersAsked]

end Length

end TraceRecorderTests.Base
