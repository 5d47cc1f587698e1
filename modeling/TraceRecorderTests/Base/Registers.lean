import Mathlib.Logic.Function.Basic
import Mathlib.Data.List.Basic

/-!
# Register files and last-writer-wins assignment lists

A register file gives every register a value of the register's own type. A
straight-line program over it is a list of assignments. What such a program
leaves in a register is the value of the *last* assignment to it, or the
register's earlier value when there is none (`runAssignments_apply`); the lemmas on
`lastSome` say how that last value is found in a concatenation of programs.
-/

namespace TraceRecorderTests.Base

/-! ## The last defined value along a list -/

/-- The value of the last element of a list at which `f` is defined. -/
def lastSome {α β : Type*} (f : α → Option β) : List α → Option β
  | [] => none
  | a :: rest => (lastSome f rest).or (f a)

section LastSome

variable {α β γ : Type*} (f : α → Option β)

@[simp] theorem lastSome_nil : lastSome f [] = none := rfl

@[simp] theorem lastSome_cons (a : α) (rest : List α) :
    lastSome f (a :: rest) = (lastSome f rest).or (f a) := rfl

theorem lastSome_append (l r : List α) :
    lastSome f (l ++ r) = (lastSome f r).or (lastSome f l) := by
  induction l with
  | nil => simp
  | cons a rest ih => simp [ih, Option.or_assoc]

theorem lastSome_eq_none_iff (l : List α) :
    lastSome f l = none ↔ ∀ a ∈ l, f a = none := by
  induction l with
  | nil => simp
  | cons a rest ih => simp [ih, and_comm]

/-- A function applied to the values is applied to the last of them. -/
theorem lastSome_map {δ : Type*} (g : β → δ) (l : List α) :
    lastSome (fun a => (f a).map g) l = (lastSome f l).map g := by
  induction l with
  | nil => rfl
  | cons a rest ih =>
      rw [lastSome_cons, lastSome_cons, ih]
      cases lastSome f rest <;> rfl

/-- The last value is the value of an element. -/
theorem exists_of_lastSome_eq_some {l : List α} {b : β} (h : lastSome f l = some b) :
    ∃ a ∈ l, f a = some b := by
  induction l with
  | nil => cases h
  | cons a rest ih =>
      rcases Option.or_eq_some_iff.mp h with hrest | ⟨-, ha⟩
      · obtain ⟨a', hmem, ha'⟩ := ih hrest
        exact ⟨a', List.mem_cons_of_mem a hmem, ha'⟩
      · exact ⟨a, List.mem_cons_self, ha⟩

/-- The last value of a flattened program is the last value over its parts. -/
theorem lastSome_flatMap (g : γ → List α) (l : List γ) :
    lastSome f (l.flatMap g) = lastSome (fun c => lastSome f (g c)) l := by
  induction l with
  | nil => rfl
  | cons c rest ih => simp [lastSome_append, ih]

end LastSome

/-! ## Register files -/

section Registers

variable {R : Type*} [DecidableEq R] {V : R → Type*}

/-- One assignment `target = value`. -/
structure Assignment (V : R → Type*) where
  target : R
  value : V target

/-- The value an assignment gives to `r`, when `r` is its target. -/
def Assignment.valueAt (r : R) (a : Assignment V) : Option (V r) :=
  if h : a.target = r then some (h ▸ a.value) else none

/-- Run a list of assignments, left to right. -/
def runAssignments (program : List (Assignment V)) (regs : (r : R) → V r) :
    (r : R) → V r :=
  program.foldl (fun g a => Function.update g a.target a.value) regs

/-- **Last writer wins**: after a program, a register holds the value of the
last assignment to it, or what it held before when there is none. -/
theorem runAssignments_apply (program : List (Assignment V)) (regs : (r : R) → V r)
    (r : R) :
    runAssignments program regs r =
      (lastSome (Assignment.valueAt r) program).getD (regs r) := by
  induction program generalizing regs with
  | nil => rfl
  | cons a rest ih =>
      have step : runAssignments (a :: rest) regs =
          runAssignments rest (Function.update regs a.target a.value) := rfl
      rw [step, ih, lastSome_cons]
      cases hrest : lastSome (Assignment.valueAt r) rest with
      | some v => rfl
      | none =>
          obtain ⟨target, value⟩ := a
          by_cases h : target = r
          · subst h
            simp [Assignment.valueAt]
          · have hne : r ≠ target := fun e => h e.symm
            simp [Assignment.valueAt, h, hne]

theorem runAssignments_append (first second : List (Assignment V))
    (regs : (r : R) → V r) :
    runAssignments (first ++ second) regs =
      runAssignments second (runAssignments first regs) :=
  List.foldl_append

end Registers

end TraceRecorderTests.Base
