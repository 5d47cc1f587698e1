import Mathlib.Data.List.Basic
import Mathlib.Logic.Function.Basic
import TraceRecorderTests.Base.LinkRing

/-!
# The lists of cmocka

cmocka keeps everything a test has set up in circular doubly linked lists of
`ListNode`s: the return values and parameter checks of the mocks, by symbol, and
the order of their calls. This module has the heap those lists live in and the
`list_*` functions on it, as the code writes the links. Where C has undefined
behaviour (a dead or mistyped block, `NULL`) the functions return `none`.

`Relinked` says that a piece of code wrote links and nothing else.
-/

namespace TraceRecorderTests.Cmocka

open Base

/-! ## The heap -/

/-- `ListNode`. The `value` of a list head is `NULL`. -/
structure ListNode (A : Type) where
  value : Option A
  refcount : Int
  next : A
  prev : A
  deriving DecidableEq, Repr

/-- What a block holds: a list node (or the head of a global list), a
`SymbolMapValue` with the list head it embeds, or one of the values that leaf
nodes point to (`SymbolValue`, `CheckParameterEvent`, `FuncOrderingValue`). No
block holds two list nodes, so a pointer to a list node is the block it is in. -/
inductive Block (A V : Type)
  | listNode (node : ListNode A)
  | symbolMapValue (symbolName : String) (symbolValuesListHead : ListNode A)
  | value (v : V)
  deriving DecidableEq, Repr

/-- The blocks that are allocated, and the addresses the coming calls of
`malloc` return. -/
structure Heap (A V : Type) where
  block : A → Option (Block A V)
  mallocs : List A

variable {A V : Type}

/-- The list node in a block. -/
def Block.node? : Block A V → Option (ListNode A)
  | .listNode node => some node
  | .symbolMapValue _ head => some head
  | .value _ => none

/-- Write the list node in a block. -/
def Block.withNode (node : ListNode A) : Block A V → Block A V
  | .listNode _ => .listNode node
  | .symbolMapValue name _ => .symbolMapValue name node
  | .value v => .value v

/-- The symbol name in a block. -/
def Block.name? : Block A V → Option String
  | .symbolMapValue name _ => some name
  | _ => none

/-- The value in a block. -/
def Block.value? : Block A V → Option V
  | .value v => some v
  | _ => none

namespace Heap

/-- The list node at an address. -/
def nodeAt (σ : Heap A V) (a : A) : Option (ListNode A) := (σ.block a).bind Block.node?

/-- `((SymbolMapValue*)a)->symbol_name`. -/
def nameAt (σ : Heap A V) (a : A) : Option String := (σ.block a).bind Block.name?

/-- The value at an address. -/
def valueAt (σ : Heap A V) (a : A) : Option V := (σ.block a).bind Block.value?

/-- The links of the list nodes. -/
def links (σ : Heap A V) : Links A where
  next a := (σ.nodeAt a).map ListNode.next
  prev a := (σ.nodeAt a).map ListNode.prev

/-- The value and the reference count of the list node at an address. -/
def contents (σ : Heap A V) (a : A) : Option (Option A × Int) :=
  (σ.nodeAt a).map fun node => (node.value, node.refcount)

/-- Heaps that agree on a block agree on all that is read from it. -/
theorem nodeAt_congr {σ τ : Heap A V} {a : A} (h : τ.block a = σ.block a) :
    τ.nodeAt a = σ.nodeAt a := by
  rw [nodeAt, h, nodeAt]

theorem nameAt_congr {σ τ : Heap A V} {a : A} (h : τ.block a = σ.block a) :
    τ.nameAt a = σ.nameAt a := by
  rw [nameAt, h, nameAt]

theorem valueAt_congr {σ τ : Heap A V} {a : A} (h : τ.block a = σ.block a) :
    τ.valueAt a = σ.valueAt a := by
  rw [valueAt, h, valueAt]

theorem nodeAt_of_next {σ : Heap A V} {a b : A} (h : σ.links.next a = some b) :
    ∃ node, σ.nodeAt a = some node ∧ node.next = b :=
  Option.map_eq_some_iff.mp h

theorem nodeAt_of_prev {σ : Heap A V} {a b : A} (h : σ.links.prev a = some b) :
    ∃ node, σ.nodeAt a = some node ∧ node.prev = b :=
  Option.map_eq_some_iff.mp h

theorem nodeAt_of_contents {σ : Heap A V} {a : A} {c : Option A × Int}
    (h : σ.contents a = some c) :
    ∃ node, σ.nodeAt a = some node ∧ (node.value, node.refcount) = c :=
  Option.map_eq_some_iff.mp h

/-- A list node is in a live block. -/
theorem block_ne_none {σ : Heap A V} {a : A} {node : ListNode A} (h : σ.nodeAt a = some node) :
    σ.block a ≠ none := by
  intro hnone
  rw [nodeAt, hnone] at h
  cases h

variable [DecidableEq A]

/-- The heap with one block replaced. -/
def put (σ : Heap A V) (a : A) (b : Option (Block A V)) : Heap A V :=
  { σ with block := Function.update σ.block a b }

/-- The heap with the list node at `a` replaced. -/
def putNode (σ : Heap A V) (a : A) (node : ListNode A) : Heap A V :=
  σ.put a ((σ.block a).map (Block.withNode node))

/-- `a->next = b`. -/
def setNext (σ : Heap A V) (a b : A) : Option (Heap A V) :=
  (σ.nodeAt a).map fun node => σ.putNode a { node with next := b }

/-- `a->prev = b`. -/
def setPrev (σ : Heap A V) (a b : A) : Option (Heap A V) :=
  (σ.nodeAt a).map fun node => σ.putNode a { node with prev := b }

/-- `a->refcount = count`. -/
def setRefcount (σ : Heap A V) (a : A) (count : Int) : Option (Heap A V) :=
  (σ.nodeAt a).map fun node => σ.putNode a { node with refcount := count }

/-- `malloc`: the next address, when it is the address of no live block, and the
block as the assignments that follow the call fill it. -/
def malloc (σ : Heap A V) (b : A → Block A V) : Option (A × Heap A V) :=
  match σ.mallocs with
  | [] => none
  | a :: rest =>
      match σ.block a with
      | some _ => none
      | none => some (a, { σ.put a (some (b a)) with mallocs := rest })

/-- `free` of a pointer that is not `NULL`. -/
def free (σ : Heap A V) (a : A) : Option (Heap A V) :=
  (σ.block a).map fun _ => σ.put a none

/-! ### Reading a heap after a write -/

@[simp] theorem put_block_self (σ : Heap A V) (a : A) (b : Option (Block A V)) :
    (σ.put a b).block a = b := by
  simp [put]

theorem put_block_ne (σ : Heap A V) {a c : A} (b : Option (Block A V)) (h : c ≠ a) :
    (σ.put a b).block c = σ.block c := by
  simp [put, h]

@[simp] theorem put_mallocs (σ : Heap A V) (a : A) (b : Option (Block A V)) :
    (σ.put a b).mallocs = σ.mallocs := rfl

@[simp] theorem putNode_mallocs (σ : Heap A V) (a : A) (node : ListNode A) :
    (σ.putNode a node).mallocs = σ.mallocs := rfl

theorem putNode_block_ne (σ : Heap A V) {a c : A} (node : ListNode A) (h : c ≠ a) :
    (σ.putNode a node).block c = σ.block c :=
  σ.put_block_ne _ h

theorem putNode_nodeAt (σ : Heap A V) (a c : A) (node : ListNode A) :
    (σ.putNode a node).nodeAt c = if c = a then (σ.nodeAt a).map fun _ => node else σ.nodeAt c := by
  split
  · rename_i h
    subst h
    simp only [nodeAt, putNode, put_block_self]
    cases σ.block c with
    | none => rfl
    | some b => cases b <;> rfl
  · rename_i h
    rw [nodeAt, σ.putNode_block_ne node h, nodeAt]

@[simp] theorem putNode_nameAt (σ : Heap A V) (a c : A) (node : ListNode A) :
    (σ.putNode a node).nameAt c = σ.nameAt c := by
  by_cases h : c = a
  · subst h
    simp only [nameAt, putNode, put_block_self]
    cases σ.block c with
    | none => rfl
    | some b => cases b <;> rfl
  · rw [nameAt, σ.putNode_block_ne node h, nameAt]

@[simp] theorem putNode_valueAt (σ : Heap A V) (a c : A) (node : ListNode A) :
    (σ.putNode a node).valueAt c = σ.valueAt c := by
  by_cases h : c = a
  · subst h
    simp only [valueAt, putNode, put_block_self]
    cases σ.block c with
    | none => rfl
    | some b => cases b <;> rfl
  · rw [valueAt, σ.putNode_block_ne node h, valueAt]

theorem putNode_block_eq_none (σ : Heap A V) (a c : A) (node : ListNode A) :
    (σ.putNode a node).block c = none ↔ σ.block c = none := by
  by_cases h : c = a
  · subst h
    rw [putNode, put_block_self, Option.map_eq_none_iff]
  · rw [σ.putNode_block_ne node h]

theorem malloc_eq {σ : Heap A V} {a : A} {rest : List A} (hmallocs : σ.mallocs = a :: rest)
    (hfree : σ.block a = none) (b : A → Block A V) :
    σ.malloc b = some (a, { σ.put a (some (b a)) with mallocs := rest }) := by
  simp only [malloc, hmallocs, hfree]

end Heap

/-! ## Writing links -/

/-- `τ` is `σ` with other links in the list nodes among `S`; nothing else is
written. -/
structure Relinked (S : List A) (σ τ : Heap A V) : Prop where
  block : ∀ b, b ∉ S → τ.block b = σ.block b
  contents : ∀ b, τ.contents b = σ.contents b
  nameAt : ∀ b, τ.nameAt b = σ.nameAt b
  valueAt : ∀ b, τ.valueAt b = σ.valueAt b
  live : ∀ b, τ.block b = none ↔ σ.block b = none
  mallocs : τ.mallocs = σ.mallocs

namespace Relinked

variable {σ τ υ : Heap A V} {S T : List A}

theorem trans (h : Relinked S σ τ) (h' : Relinked S τ υ) : Relinked S σ υ where
  block b hb := (h'.block b hb).trans (h.block b hb)
  contents b := (h'.contents b).trans (h.contents b)
  nameAt b := (h'.nameAt b).trans (h.nameAt b)
  valueAt b := (h'.valueAt b).trans (h.valueAt b)
  live b := (h'.live b).trans (h.live b)
  mallocs := h'.mallocs.trans h.mallocs

theorem mono (h : Relinked S σ τ) (hsub : S ⊆ T) : Relinked T σ τ where
  block b hb := h.block b fun hmem => hb (hsub hmem)
  contents := h.contents
  nameAt := h.nameAt
  valueAt := h.valueAt
  live := h.live
  mallocs := h.mallocs

/-- What is a list node stays one. -/
theorem exists_nodeAt (h : Relinked S σ τ) {a : A} {node : ListNode A}
    (ha : σ.nodeAt a = some node) : ∃ node', τ.nodeAt a = some node' := by
  have hc := h.contents a
  rw [Heap.contents, Heap.contents, ha, Option.map_some] at hc
  obtain ⟨node', hnode', -⟩ := Option.map_eq_some_iff.mp hc
  exact ⟨node', hnode'⟩

end Relinked

section Writes

variable [DecidableEq A] {σ : Heap A V} {a : A} {node : ListNode A}

/-- Replacing a node by one with the same contents writes links only. -/
theorem relinked_putNode {node' : ListNode A} (h : σ.nodeAt a = some node)
    (hvalue : node'.value = node.value) (hcount : node'.refcount = node.refcount) :
    Relinked [a] σ (σ.putNode a node') where
  block b hb := σ.putNode_block_ne node' (by simpa using hb)
  contents b := by
    rw [Heap.contents, Heap.contents, Heap.putNode_nodeAt]
    split
    · rename_i hb
      subst hb
      rw [h, Option.map_some, Option.map_some, Option.map_some, hvalue, hcount]
    · rfl
  nameAt b := σ.putNode_nameAt a b node'
  valueAt b := σ.putNode_valueAt a b node'
  live b := σ.putNode_block_eq_none a b node'
  mallocs := rfl

theorem setNext_spec (h : σ.nodeAt a = some node) (b : A) :
    ∃ τ, σ.setNext a b = some τ ∧ Relinked [a] σ τ ∧
      τ.links.next = Function.update σ.links.next a (some b) ∧ τ.links.prev = σ.links.prev := by
  refine ⟨σ.putNode a { node with next := b }, by rw [Heap.setNext, h, Option.map_some],
    relinked_putNode h rfl rfl, funext fun c => ?_, funext fun c => ?_⟩
  · simp only [Heap.links, Heap.putNode_nodeAt, Function.update_apply]
    split
    · rw [h, Option.map_some, Option.map_some]
    · rfl
  · simp only [Heap.links, Heap.putNode_nodeAt]
    split
    · rename_i hc
      rw [hc, h, Option.map_some, Option.map_some, Option.map_some]
    · rfl

theorem setPrev_spec (h : σ.nodeAt a = some node) (b : A) :
    ∃ τ, σ.setPrev a b = some τ ∧ Relinked [a] σ τ ∧
      τ.links.next = σ.links.next ∧ τ.links.prev = Function.update σ.links.prev a (some b) := by
  refine ⟨σ.putNode a { node with prev := b }, by rw [Heap.setPrev, h, Option.map_some],
    relinked_putNode h rfl rfl, funext fun c => ?_, funext fun c => ?_⟩
  · simp only [Heap.links, Heap.putNode_nodeAt]
    split
    · rename_i hc
      rw [hc, h, Option.map_some, Option.map_some, Option.map_some]
    · rfl
  · simp only [Heap.links, Heap.putNode_nodeAt, Function.update_apply]
    split
    · rw [h, Option.map_some, Option.map_some]
    · rfl

end Writes

/-! ## The list functions -/

section Functions

variable [DecidableEq A]

/-- `list_initialize`. -/
def listInitialize (σ : Heap A V) (node : A) : Option (Heap A V) :=
  (σ.nodeAt node).map fun _ =>
    σ.putNode node { value := none, refcount := 1, next := node, prev := node }

/-- `list_add`: add `newNode` to the end of the list. -/
def listAdd (σ : Heap A V) (head newNode : A) : Option (Heap A V) := do
  let σ ← σ.setNext newNode head
  let σ ← σ.setPrev newNode (← σ.links.prev head)
  let σ ← σ.setNext (← σ.links.prev head) newNode
  σ.setPrev head newNode

/-- `list_add_value`: a new node, its links not yet determinate, and `list_add`. -/
def listAddValue (σ : Heap A V) (head value : A) (refcount : Int) :
    Option (A × Heap A V) := do
  let (newNode, σ) ← σ.malloc fun a =>
    .listNode { value := some value, refcount := refcount, next := a, prev := a }
  return (newNode, ← listAdd σ head newNode)

/-- The two assignments of `list_remove`. -/
def unlink (σ : Heap A V) (node : A) : Option (Heap A V) := do
  let σ ← σ.setNext (← σ.links.prev node) (← σ.links.next node)
  σ.setPrev (← σ.links.next node) (← σ.links.prev node)

/-- `list_remove`; the cleanup function may be `NULL`. -/
def listRemove (σ : Heap A V) (node : A)
    (cleanupValue : Option (A → Heap A V → Option (Heap A V))) : Option (Heap A V) := do
  let σ ← unlink σ node
  match cleanupValue with
  | none => return σ
  | some cleanup => cleanup (← (← σ.nodeAt node).value) σ

/-- `list_remove_free`. -/
def listRemoveFree (σ : Heap A V) (node : A)
    (cleanupValue : Option (A → Heap A V → Option (Heap A V))) : Option (Heap A V) := do
  let σ ← listRemove σ node cleanupValue
  σ.free node

/-- `list_empty`. -/
def listEmpty (σ : Heap A V) (head : A) : Option Bool := do
  let node ← σ.nodeAt head
  return node.next = head

/-- `list_first`. -/
def listFirst (σ : Heap A V) (head : A) : Option (Option A) := do
  if ← listEmpty σ head then return none
  let node ← σ.nodeAt head
  return some node.next

/-- The loop of `list_find`, from `current`, for at most `fuel` nodes. -/
def listFindLoop (σ : Heap A V) (head : A) (equalFunc : A → Option Bool) :
    Nat → A → Option (Option A)
  | 0, _ => none
  | fuel + 1, current =>
      if current = head then some none
      else do
        let node ← σ.nodeAt current
        if ← equalFunc (← node.value) then return some current
        listFindLoop σ head equalFunc fuel node.next

/-- `list_find`: the first node whose value is equal. -/
def listFind (σ : Heap A V) (head : A) (equalFunc : A → Option Bool) (fuel : Nat) :
    Option (Option A) := do
  let node ← σ.nodeAt head
  listFindLoop σ head equalFunc fuel node.next

/-- `list_free`, for at most `fuel` rounds of its loop. -/
def listFree (head : A) (cleanup : A → Heap A V → Option (Heap A V)) :
    Nat → Heap A V → Option (Heap A V)
  | 0, _ => none
  | fuel + 1, σ => do
      if ← listEmpty σ head then return σ
      let node ← σ.nodeAt head
      let σ ← listRemoveFree σ node.next (some cleanup)
      listFree head cleanup fuel σ

end Functions

end TraceRecorderTests.Cmocka
