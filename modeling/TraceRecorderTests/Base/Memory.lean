import Mathlib.Logic.Function.Basic
import Mathlib.Data.List.Basic

/-!
# Block memory with bounds

Memory is a family of blocks, each a list of cells; a pointer is null or an
offset into a block. Reading past the end of a block, or through the null
pointer, is undefined (`none`). `span m p n` is the content of the `n` cells
at `p`, defined exactly when each of them can be read.
-/

namespace TraceRecorderTests.Base

/-- A pointer: null, or an offset into a block. -/
inductive Ptr (B : Type*)
  | null
  | addr (block : B) (offset : Nat)
  deriving DecidableEq

/-- Memory: the cells of every block. A block that is not allocated has none. -/
abbrev Memory (B β : Type*) := B → List β

namespace Memory

variable {B β : Type*}

/-- Read the cell `i` places past a pointer. -/
def load (m : Memory B β) : Ptr B → Nat → Option β
  | .null, _ => none
  | .addr b o, i => (m b)[o + i]?

/-- Overwrite one cell of a block; a store outside the block has no effect. -/
def store [DecidableEq B] (m : Memory B β) (b : B) (i : Nat) (v : β) : Memory B β :=
  Function.update m b ((m b).set i v)

/-- The `n` cells at a pointer, when all of them can be read. -/
def span (m : Memory B β) : Ptr B → Nat → Option (List β)
  | .null, n => if n = 0 then some [] else none
  | .addr b o, n =>
      if n = 0 then some []
      else if o + n ≤ (m b).length then some (((m b).drop o).take n) else none

@[simp] theorem span_zero (m : Memory B β) (p : Ptr B) : m.span p 0 = some [] := by
  cases p <;> simp [span]

theorem span_length {m : Memory B β} {p : Ptr B} {n : Nat} {bs : List β}
    (h : m.span p n = some bs) : bs.length = n := by
  cases p with
  | null =>
      simp only [span, Option.ite_none_right_eq_some, Option.some.injEq] at h
      simp [← h.2, h.1]
  | addr b o =>
      simp only [span] at h
      split at h
      · rename_i hn
        simp only [Option.some.injEq] at h
        simp [← h, hn]
      · split at h
        · simp only [Option.some.injEq] at h
          rw [← h, List.length_take, List.length_drop]
          omega
        · cases h

/-- A defined span answers every read inside it. -/
theorem load_of_span {m : Memory B β} {p : Ptr B} {n i : Nat} {bs : List β}
    (h : m.span p n = some bs) (hi : i < n) : m.load p i = bs[i]? := by
  have hn : n ≠ 0 := by omega
  cases p with
  | null => simp [span, hn] at h
  | addr b o =>
      simp only [span, if_neg hn] at h
      split at h
      · simp only [Option.some.injEq] at h
        rw [← h, List.getElem?_take_of_lt hi, List.getElem?_drop]
        rfl
      · cases h

/-- Every cell of a defined span can be read. -/
theorem load_isSome_of_span {m : Memory B β} {p : Ptr B} {n i : Nat}
    (h : (m.span p n).isSome) (hi : i < n) : (m.load p i).isSome := by
  obtain ⟨bs, hbs⟩ := Option.isSome_iff_exists.mp h
  rw [load_of_span hbs hi, isSome_getElem?, span_length hbs]
  exact hi

/-- A span is defined as soon as every cell of it can be read. -/
theorem span_isSome {m : Memory B β} {p : Ptr B} {n : Nat}
    (h : ∀ i < n, (m.load p i).isSome) : (m.span p n).isSome := by
  cases n with
  | zero => simp
  | succ k =>
      have last := h k (by omega)
      cases p with
      | null => simp [load] at last
      | addr b o =>
          have bound : o + (k + 1) ≤ (m b).length := by
            have inside : o + k < (m b).length := by simpa [load] using last
            omega
          simp [span, bound]

/-! ## Pointers to a whole buffer -/

/-- The pointer addresses exactly `n` cells: the block ends after them. The null
pointer addresses none. -/
def Holds (m : Memory B β) : Ptr B → Nat → Prop
  | .null, n => n = 0
  | .addr b o, n => o + n = (m b).length

/-- Where a pointer addresses `n` cells, a read is undefined from the `n`-th on. -/
theorem load_isSome_iff {m : Memory B β} {p : Ptr B} {n : Nat} (h : m.Holds p n) (i : Nat) :
    (m.load p i).isSome ↔ i < n := by
  cases p with
  | null =>
      have hn : n = 0 := h
      simp [load, hn]
  | addr b o =>
      have hn : o + n = (m b).length := h
      simp only [load, isSome_getElem?]
      omega

/-- So a span of it is defined when it is no longer than the buffer. -/
theorem span_isSome_iff {m : Memory B β} {p : Ptr B} {n : Nat} (h : m.Holds p n) (k : Nat) :
    (m.span p k).isSome ↔ k ≤ n := by
  constructor
  · intro hspan
    by_contra hlong
    have hread := load_isSome_of_span hspan (Nat.lt_of_not_le hlong)
    exact absurd ((load_isSome_iff h n).mp hread) (Nat.lt_irrefl n)
  · intro hk
    exact span_isSome fun i hi => (load_isSome_iff h i).mpr (Nat.lt_of_lt_of_le hi hk)

/-- A store changes no length. -/
theorem length_store [DecidableEq B] (m : Memory B β) (b : B) (i : Nat) (v : β) (b' : B) :
    (m.store b i v b').length = (m b').length := by
  unfold store
  by_cases hb : b' = b
  · subst hb
    rw [Function.update_self, List.length_set]
  · rw [Function.update_of_ne hb]

/-- What a pointer addresses depends on the lengths of the blocks only. -/
theorem Holds.of_length {m m' : Memory B β} {p : Ptr B} {n : Nat} (h : m.Holds p n)
    (hlength : ∀ b, (m' b).length = (m b).length) : m'.Holds p n := by
  cases p with
  | null => exact h
  | addr b o => exact h.trans (hlength b).symm

end Memory

end TraceRecorderTests.Base
