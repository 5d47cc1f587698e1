import Mathlib.Data.Option.Basic

/-!
# Refinement of partial computations

A computation that may be undefined refines another when it is defined wherever the
other is, with a related result; two computations correspond (`Option.Rel`) when
this holds both ways. One rule for each way computations are put together: the
refinement of a program follows from those of its parts, along the program text.
-/

namespace TraceRecorderTests.Base

universe u v

variable {α α' : Type u} {β β' : Type v}

/-- `m` is defined wherever `n` is, and the results are related. -/
def Refines (P : α → β → Prop) (m : Option α) (n : Option β) : Prop :=
  ∀ b, n = some b → ∃ a, m = some a ∧ P a b

namespace Refines

variable {P : α → β → Prop} {P' : α' → β' → Prop} {m : Option α} {n : Option β}

theorem pure {a : α} {b : β} (h : P a b) : Refines P (some a) (some b) := by
  intro b' hb
  cases hb
  exact ⟨a, rfl, h⟩

/-- One computation after the other. -/
theorem bind {f : α → Option α'} {g : β → Option β'} (h : Refines P m n)
    (hnext : ∀ a b, P a b → Refines P' (f a) (g b)) : Refines P' (m >>= f) (n >>= g) := by
  intro b' hb'
  obtain ⟨b, hb, hg⟩ := Option.bind_eq_some_iff.mp hb'
  obtain ⟨a, ha, hP⟩ := h b hb
  obtain ⟨a', hf, hP'⟩ := hnext a b hP b' hg
  refine ⟨a', ?_, hP'⟩
  rw [ha]
  exact hf

/-- The same branch is taken on both sides. -/
theorem ite {c c' : Prop} [Decidable c] [Decidable c'] {m' : Option α} {n' : Option β}
    (hc : c ↔ c') (h : c' → Refines P m n) (h' : ¬ c' → Refines P m' n') :
    Refines P (if c then m else m') (if c' then n else n') := by
  by_cases hc' : c'
  · rw [if_pos (hc.mpr hc'), if_pos hc']
    exact h hc'
  · rw [if_neg fun hpos => hc' (hc.mp hpos), if_neg hc']
    exact h' hc'

end Refines

/-! ## Correspondence -/

section Rel

variable {P Q : α → β → Prop} {P' : α' → β' → Prop} {m : Option α} {n : Option β}

theorem rel_bind {f : α → Option α'} {g : β → Option β'} (h : Option.Rel P m n)
    (hnext : ∀ a b, P a b → Option.Rel P' (f a) (g b)) : Option.Rel P' (m >>= f) (n >>= g) := by
  cases h with
  | none => exact .none
  | some hP => exact hnext _ _ hP

/-- A computation corresponds to one that it is made from by a function. -/
theorem rel_map_left {f : β → α} (hP : ∀ b, n = some b → P (f b) b) :
    Option.Rel P (n.map f) n := by
  cases n with
  | none => exact .none
  | some b => exact .some (hP b rfl)

theorem rel_mono (h : Option.Rel P m n) (hPQ : ∀ a b, n = some b → P a b → Q a b) :
    Option.Rel Q m n := by
  cases h with
  | none => exact .none
  | some hP => exact .some (hPQ _ _ rfl hP)

end Rel

end TraceRecorderTests.Base
