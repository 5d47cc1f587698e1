import Mathlib.Logic.Function.Iterate
import TraceRecorderTests.Cmocka.SymbolGet
import TraceRecorderTests.Cmocka.SymbolSweep

/-!
# Queues of values with counts

What a queue of declared values answers, from the counts alone: which entry answers
call number `k` (`replyAt`), and whether anything is left after `k` calls
(`UsedUp`). `served` is iterated, and its fixed entries are those that answer for
ever.
-/

namespace TraceRecorderTests.Cmocka

variable {V : Type}

/-- What the next call is answered with; an entry with a count of 0 is an answer
the test fails on. -/
def nextReply : List (V × Int) → Option V
  | [] => none
  | (v, count) :: _ => if count = 0 then none else some v

/-- The answer to call number `k`, from the counts: an entry with a positive count
answers that many calls, one with a negative count all the others. -/
def replyAt : List (V × Int) → Nat → Option V
  | [], _ => none
  | (v, count) :: rest, k =>
      if count < 0 then some v
      else if count = 0 then none
      else if k < count.toNat then some v
      else replyAt rest (k - count.toNat)

/-- After `k` calls nothing is left that must still be returned: every count was
reached, `WILL_RETURN_ALWAYS` was returned once, and nothing stands behind an entry
that answers for ever. -/
def UsedUp : List (V × Int) → Nat → Prop
  | [], _ => True
  | (_, count) :: rest, k =>
      if 0 < count then count.toNat ≤ k ∧ UsedUp rest (k - count.toNat)
      else rest = [] ∧ (count < -1 ∨ count = -1 ∧ 0 < k)

theorem served_append {q : List (V × Int)} (hq : q ≠ []) (q' : List (V × Int)) :
    served (q ++ q') = served q ++ q' := by
  cases q with
  | nil => exact absurd rfl hq
  | cons e rest =>
      simp only [List.cons_append, served]
      split_ifs
      · rfl
      · rfl
      · rfl

theorem nextReply_append {q : List (V × Int)} (hq : q ≠ []) (q' : List (V × Int)) :
    nextReply (q ++ q') = nextReply q := by
  cases q with
  | nil => exact absurd rfl hq
  | cons e rest => rfl

/-- A positive count is counted down. -/
theorem served_iterate_pos (v : V) (rest : List (V × Int)) (n m : Nat) :
    served^[n] ((v, ((n + m + 1 : Nat) : Int)) :: rest) = (v, ((m + 1 : Nat) : Int)) :: rest := by
  induction n with
  | zero => simp
  | succ n ih =>
      have hstep : served ((v, ((n + 1 + m + 1 : Nat) : Int)) :: rest) =
          (v, ((n + m + 1 : Nat) : Int)) :: rest := by
        rw [served, if_neg (by omega), if_pos (by rw [willReturnOnce]; omega)]
        congr 2
        omega
      rw [Function.iterate_succ_apply, hstep, ih]

/-- With the last call of a positive count the entry goes. -/
theorem served_iterate_all (v : V) (rest : List (V × Int)) {count : Int} (hcount : 0 < count) :
    served^[count.toNat] ((v, count) :: rest) = rest := by
  obtain ⟨n, rfl⟩ : ∃ n : Nat, count = (n + 1 : Nat) := ⟨count.toNat - 1, by omega⟩
  have hpos := served_iterate_pos v rest n 0
  rw [Int.toNat_natCast, Function.iterate_succ_apply']
  rw [Nat.add_zero] at hpos
  rw [hpos, served, if_pos (by simp)]

/-- Before that it stays. -/
theorem served_iterate_lt (v : V) (rest : List (V × Int)) {count : Int} {k : Nat}
    (hk : k < count.toNat) :
    served^[k] ((v, count) :: rest) = (v, count - k) :: rest := by
  obtain ⟨m, rfl⟩ : ∃ m : Nat, count = (k + m + 1 : Nat) := ⟨count.toNat - k - 1, by omega⟩
  rw [served_iterate_pos]
  congr 2
  omega

/-- An entry that answers for ever is never removed. -/
theorem served_iterate_neg (v : V) (rest : List (V × Int)) {count : Int} (hcount : count < 0)
    (k : Nat) : served^[k] ((v, count) :: rest) =
      (v, if count = -1 ∧ 0 < k then -2 else count) :: rest := by
  induction k with
  | zero => simp
  | succ k ih =>
      rw [Function.iterate_succ_apply', ih]
      by_cases hlast : count = -1 ∧ 0 < k
      · rw [if_pos hlast, if_pos ⟨hlast.1, by omega⟩]
        rfl
      · rw [if_neg hlast]
        by_cases hfirst : count = -1
        · subst hfirst
          rw [if_pos ⟨rfl, by omega⟩]
          rfl
        · rw [if_neg (by omega), served, if_neg (by omega), if_neg (by rw [willReturnOnce]; omega)]

/-- The answers, as long as none was missing before. -/
theorem nextReply_iterate : ∀ {q : List (V × Int)} {k : Nat},
    (∀ j < k, nextReply (served^[j] q) ≠ none) → nextReply (served^[k] q) = replyAt q k
  | [], k, _ => by
      have hnil : served^[k] ([] : List (V × Int)) = [] := Function.iterate_fixed rfl k
      rw [hnil]
      rfl
  | (v, count) :: rest, k, hbefore => by
      rw [replyAt]
      rcases Int.lt_trichotomy count 0 with hneg | rfl | hpos
      · have hne : (if count = -1 ∧ 0 < k then -2 else count) ≠ 0 := by
          split_ifs
          · omega
          · omega
        rw [if_pos hneg, served_iterate_neg v rest hneg]
        exact if_neg hne
      · have hk : k = 0 := by
          by_contra hk
          exact hbefore 0 (by omega) (by simp [nextReply])
        subst hk
        simp [nextReply]
      · rw [if_neg (by omega), if_neg (by omega)]
        by_cases hk : k < count.toNat
        · rw [if_pos hk, served_iterate_lt v rest hk, nextReply, if_neg (by omega)]
        · have hsplit : k = (k - count.toNat) + count.toNat := by omega
          have hrest : ∀ j, served^[j + count.toNat] ((v, count) :: rest) = served^[j] rest :=
            fun j => by rw [Function.iterate_add_apply, served_iterate_all v rest hpos]
          rw [if_neg hk, ← nextReply_iterate (q := rest) (k := k - count.toNat)]
          · rw [hsplit, hrest, Nat.add_sub_cancel]
          · intro j hj
            rw [← hrest j]
            exact hbefore _ (by omega)

/-- When nothing is left at the end. -/
theorem dropAlways_iterate : ∀ {q : List (V × Int)} {k : Nat},
    (∀ j < k, nextReply (served^[j] q) ≠ none) → (dropAlways (served^[k] q) = [] ↔ UsedUp q k)
  | [], k, _ => by
      have hnil : served^[k] ([] : List (V × Int)) = [] := Function.iterate_fixed rfl k
      rw [hnil]
      exact iff_of_true rfl trivial
  | (v, count) :: rest, k, hbefore => by
      rw [UsedUp]
      rcases Int.lt_trichotomy count 0 with hneg | rfl | hpos
      · rw [if_neg (by omega), served_iterate_neg v rest hneg, dropAlways]
        split_ifs with hlast hdrop hdrop
        · simp [hlast]
        · omega
        · simp [hdrop]
        · simp
          omega
      · have hk : k = 0 := by
          by_contra hk
          exact hbefore 0 (by omega) (by simp [nextReply])
        subst hk
        simp [dropAlways]
      · rw [if_pos hpos]
        by_cases hk : k < count.toNat
        · rw [served_iterate_lt v rest hk, dropAlways, if_neg (by omega)]
          exact iff_of_false (by simp) fun hused => by omega
        · have hsplit : k = (k - count.toNat) + count.toNat := by omega
          have hrest : ∀ j, served^[j + count.toNat] ((v, count) :: rest) = served^[j] rest :=
            fun j => by rw [Function.iterate_add_apply, served_iterate_all v rest hpos]
          have ih : dropAlways (served^[k - count.toNat] rest) = [] ↔
              UsedUp rest (k - count.toNat) := by
            refine dropAlways_iterate fun j hj => ?_
            rw [← hrest j]
            exact hbefore _ (by omega)
          rw [hsplit, hrest, ih, Nat.add_sub_cancel]
          exact (and_iff_right (by omega)).symm

/-- `q` is what is left of the declared entries after `k` calls that all got an
answer. -/
structure ServedBy (q declared : List (V × Int)) (k : Nat) : Prop where
  queue : q = served^[k] declared
  answered : ∀ j < k, nextReply (served^[j] declared) ≠ none

namespace ServedBy

variable {q declared : List (V × Int)} {k : Nat}

theorem empty : ServedBy ([] : List (V × Int)) [] 0 :=
  ⟨rfl, fun _ hj => absurd hj (Nat.not_lt_zero _)⟩

/-- One more entry is declared. -/
theorem append (h : ServedBy q declared k) (e : V × Int) :
    ServedBy (q ++ [e]) (declared ++ [e]) k := by
  have hne : ∀ j < k, served^[j] declared ≠ [] := fun j hj hnil =>
    h.answered j hj (by rw [hnil]; rfl)
  have happend : ∀ j ≤ k, served^[j] (declared ++ [e]) = served^[j] declared ++ [e] := by
    intro j hj
    induction j with
    | zero => rfl
    | succ j ih =>
        rw [Function.iterate_succ_apply', Function.iterate_succ_apply', ih (by omega),
          served_append (hne j (by omega))]
  refine ⟨by rw [happend k (le_refl k), h.queue], fun j hj => ?_⟩
  rw [happend j (by omega), nextReply_append (hne j hj)]
  exact h.answered j hj

/-- One more call is answered. -/
theorem serve (h : ServedBy q declared k) (hnext : nextReply q ≠ none) :
    ServedBy (served q) declared (k + 1) := by
  refine ⟨by rw [Function.iterate_succ_apply', h.queue], fun j hj => ?_⟩
  rcases Nat.lt_succ_iff_lt_or_eq.mp hj with hj | rfl
  · exact h.answered j hj
  · rwa [← h.queue]

theorem nextReply_eq (h : ServedBy q declared k) : nextReply q = replyAt declared k := by
  rw [h.queue]
  exact nextReply_iterate h.answered

theorem dropAlways_iff (h : ServedBy q declared k) : dropAlways q = [] ↔ UsedUp declared k := by
  rw [h.queue]
  exact dropAlways_iterate h.answered

end ServedBy

end TraceRecorderTests.Cmocka
