import Mathlib.Data.List.Basic
import Mathlib.Logic.Function.Basic

/-!
# Flat memory

Memory as one array of cells, with the three ways C code writes it: one cell, a
range filled with one value (`fill`), a range copied from elsewhere (`copy`). A
reader looks at a `slice`, the cells of a range as a list; the rules say what
each write makes of a slice inside the range it writes, and that it leaves the
slices apart from that range as they are.
-/

namespace TraceRecorderTests.Base

variable {β : Type*}

/-- The value of every cell. -/
abbrev FlatMemory (β : Type*) := Nat → β

namespace FlatMemory

variable (m : FlatMemory β) {p q n k : Nat}

/-- `memset`. -/
def fill (p n : Nat) (v : β) : FlatMemory β :=
  fun a => if p ≤ a ∧ a < p + n then v else m a

/-- `memcpy`: what the source holds is read before anything is written. -/
def copy (dst src n : Nat) : FlatMemory β :=
  fun a => if dst ≤ a ∧ a < dst + n then m (src + (a - dst)) else m a

/-- The `n` cells from `p` on. -/
def slice (p n : Nat) : List β := (List.range n).map fun i => m (p + i)

/-! ## Slices -/

@[simp] theorem slice_length (p n : Nat) : (m.slice p n).length = n := by
  simp [slice]

@[simp] theorem slice_zero (p : Nat) : m.slice p 0 = [] := rfl

theorem slice_getElem {i : Nat} (h : i < (m.slice p n).length) :
    (m.slice p n)[i] = m (p + i) := by
  simp [slice]

theorem slice_getElem? {i : Nat} (h : i < n) : (m.slice p n)[i]? = some (m (p + i)) := by
  rw [List.getElem?_eq_getElem (by simpa using h), slice_getElem]

/-- A range is read in two parts. -/
theorem slice_add (p n k : Nat) : m.slice p (n + k) = m.slice p n ++ m.slice (p + n) k := by
  rw [slice, List.range_add, List.map_append, List.map_map, slice, slice]
  congr 1
  refine List.map_congr_left fun i _ => ?_
  show m (p + (n + i)) = m (p + n + i)
  rw [Nat.add_assoc]

/-- The first part of a range, and the rest. -/
theorem slice_take (h : k ≤ n) : (m.slice p n).take k = m.slice p k := by
  obtain ⟨r, rfl⟩ := Nat.exists_eq_add_of_le h
  rw [slice_add, List.take_left' (m.slice_length p k)]

theorem slice_drop (h : k ≤ n) : (m.slice p n).drop k = m.slice (p + k) (n - k) := by
  obtain ⟨r, rfl⟩ := Nat.exists_eq_add_of_le h
  rw [slice_add, List.drop_left' (m.slice_length p k), Nat.add_sub_cancel_left]

/-- A slice depends on its own cells only. -/
theorem slice_congr {m m' : FlatMemory β} (h : ∀ a, p ≤ a → a < p + n → m' a = m a) :
    m'.slice p n = m.slice p n := by
  refine List.map_congr_left fun i hi => ?_
  rw [List.mem_range] at hi
  exact h (p + i) (Nat.le_add_right p i) (by omega)

/-- A slice is constant when its cells are. -/
theorem slice_eq_replicate_iff (v : β) :
    m.slice p n = List.replicate n v ↔ ∀ a, p ≤ a → a < p + n → m a = v := by
  rw [List.eq_replicate_iff]
  constructor
  · intro h a hp ha
    refine h.2 (m a) (List.mem_map.mpr ⟨a - p, List.mem_range.mpr (by omega), ?_⟩)
    show m (p + (a - p)) = m a
    rw [show p + (a - p) = a by omega]
  · intro h
    refine ⟨m.slice_length p n, ?_⟩
    intro b hb
    obtain ⟨i, hi, rfl⟩ := List.mem_map.mp hb
    rw [List.mem_range] at hi
    exact h (p + i) (Nat.le_add_right p i) (by omega)

/-! ## Writing inside a slice -/

/-- Every part of a filled range holds the value. -/
theorem slice_fill (v : β) (hq : p ≤ q) (hk : q + k ≤ p + n) :
    (m.fill p n v).slice q k = List.replicate k v := by
  rw [slice_eq_replicate_iff]
  intro a ha hak
  rw [fill, if_pos ⟨by omega, by omega⟩]

/-- A copied range holds what the source held. -/
theorem slice_copy (dst src : Nat) : (m.copy dst src n).slice dst n = m.slice src n := by
  refine List.map_congr_left fun i hi => ?_
  rw [List.mem_range] at hi
  show m.copy dst src n (dst + i) = m (src + i)
  rw [copy, if_pos ⟨by omega, by omega⟩]
  congr 1
  omega

/-- Writing a cell sets it in the slices it belongs to. -/
theorem slice_update {a : Nat} (v : β) (hp : p ≤ a) :
    FlatMemory.slice (Function.update m a v) p n = (m.slice p n).set (a - p) v := by
  refine List.ext_getElem (by simp) ?_
  intro i hi hi'
  rw [slice_getElem, List.getElem_set, Function.update_apply, slice_getElem]
  by_cases hia : p + i = a
  · rw [if_pos hia, if_pos (by omega)]
  · rw [if_neg hia, if_neg (by omega)]

/-! ## Writing elsewhere -/

theorem slice_fill_apart (v : β) (h : q + k ≤ p ∨ p + n ≤ q) :
    (m.fill p n v).slice q k = m.slice q k := by
  refine slice_congr fun a ha hak => ?_
  rw [fill, if_neg (by omega)]

theorem slice_copy_apart {dst : Nat} (src : Nat) (h : q + k ≤ dst ∨ dst + n ≤ q) :
    (m.copy dst src n).slice q k = m.slice q k := by
  refine slice_congr fun a ha hak => ?_
  rw [copy, if_neg (by omega)]

theorem slice_update_apart {a : Nat} (v : β) (h : a < p ∨ p + n ≤ a) :
    FlatMemory.slice (Function.update m a v) p n = m.slice p n := by
  refine slice_congr fun b hb hbn => ?_
  rw [Function.update_of_ne (by omega)]

end FlatMemory

end TraceRecorderTests.Base
