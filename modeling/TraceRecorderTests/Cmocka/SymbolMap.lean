import TraceRecorderTests.Cmocka.ListNode

/-!
# Symbol maps

A symbol map is a list whose nodes point to `SymbolMapValue`s: a symbol name and
the head of a list of its own, one level deeper. At the last level the nodes
point to the values a test has set up: `add_symbol_value` puts a value at the end
of the list of a symbol, `get_symbol_value` serves the first one and counts it
down. The functions are those of the code, on the heap; the loops run for at most
`fuel` rounds.
-/

namespace TraceRecorderTests.Cmocka

variable {A V : Type} [DecidableEq A]

/-- `WILL_RETURN_ONCE`. -/
def willReturnOnce : Int := -2

/-- `free_value`. -/
def freeValue (value : A) (σ : Heap A V) : Option (Heap A V) := σ.free value

/-- `free_symbol_map_value`; the second argument is `cleanup_value_data`. -/
def freeSymbolMapValue (fuel : Nat) : (children : Nat) → A → Heap A V → Option (Heap A V)
  | 0, value, σ => do
      let σ ← listFree value freeValue fuel σ
      σ.free value
  | children + 1, value, σ => do
      let σ ← listFree value (freeSymbolMapValue fuel children) fuel σ
      σ.free value

/-- `symbol_names_match`. -/
def symbolNamesMatch (σ : Heap A V) (symbol : String) (mapValue : A) : Option Bool :=
  (σ.nameAt mapValue).map fun name => name = symbol

/-- The branch of `add_symbol_value` for a symbol that is not in the map. -/
def addSymbol (σ : Heap A V) (symbolMapHead : A) (symbolName : String) :
    Option (A × Heap A V) := do
  let (newSymbolMapValue, σ) ← σ.malloc fun a =>
    .symbolMapValue symbolName { value := none, refcount := 0, next := a, prev := a }
  let σ ← listInitialize σ newSymbolMapValue
  listAddValue σ symbolMapHead newSymbolMapValue 1

/-- The first half of `add_symbol_value`: the node of the symbol. -/
def findOrAddSymbol (fuel : Nat) (σ : Heap A V) (symbolMapHead : A) (symbolName : String) :
    Option (A × Heap A V) := do
  match ← listFind σ symbolMapHead (symbolNamesMatch σ symbolName) fuel with
  | some targetNode => return (targetNode, σ)
  | none => addSymbol σ symbolMapHead symbolName

/-- `add_symbol_value`. -/
def addSymbolValue (fuel : Nat) (value : A) (refcount : Int) :
    (symbolNames : List String) → Heap A V → A → Option (Heap A V)
  | [], _, _ => none
  | symbolName :: rest, σ, symbolMapHead => do
      let (targetNode, σ) ← findOrAddSymbol fuel σ symbolMapHead symbolName
      let targetMapValue ← (← σ.nodeAt targetNode).value
      match rest with
      | [] => (listAddValue σ targetMapValue value refcount).map Prod.snd
      | _ :: _ => addSymbolValue fuel value refcount rest σ targetMapValue

/-- The branch of `get_symbol_value` at the last symbol: what the first node
points to and its count, which is then counted down. -/
def getFirstValue (σ : Heap A V) (childList : A) : Option ((A × Int) × Heap A V) := do
  let valueNode ← (← listFirst σ childList)
  let node ← σ.nodeAt valueNode
  let output ← node.value
  let σ ←
    if node.refcount - 1 = 0 then listRemoveFree σ valueNode none
    else if node.refcount > willReturnOnce then σ.setRefcount valueNode (node.refcount - 1)
    else some σ
  return ((output, node.refcount), σ)

/-- `get_symbol_value`: what `*output` is set to and the return value, or `none`
where no entry was found and it returns 0. -/
def getSymbolValue (fuel : Nat) :
    (symbolNames : List String) → Heap A V → A → Option (Option (A × Int) × Heap A V)
  | [], _, _ => none
  | symbolName :: rest, σ, head => do
      match ← listFind σ head (symbolNamesMatch σ symbolName) fuel with
      | none => return (none, σ)
      | some targetNode => do
          let childList ← (← σ.nodeAt targetNode).value
          let (result, σ) ← match rest with
            | [] => (getFirstValue σ childList).map fun r => (some r.1, r.2)
            | _ :: _ => getSymbolValue fuel rest σ childList
          if ← listEmpty σ childList then
            let σ ← listRemoveFree σ targetNode (some (freeSymbolMapValue fuel 0))
            return (result, σ)
          else return (result, σ)

/-- `remove_always_return_values_from_list`, from `current`. -/
def removeAlwaysFromListLoop (head : A) : Nat → A → Heap A V → Option (Heap A V)
  | 0, _, _ => none
  | fuel + 1, current, σ =>
      if current = head then some σ
      else do
        let node ← σ.nodeAt current
        let σ ←
          if node.refcount < -1 then listRemoveFree σ current (some freeValue) else some σ
        removeAlwaysFromListLoop head fuel node.next σ

/-- `remove_always_return_values_from_list`. -/
def removeAlwaysReturnValuesFromList (fuel : Nat) (σ : Heap A V) (mapHead : A) :
    Option (Heap A V) := do
  removeAlwaysFromListLoop mapHead fuel (← σ.nodeAt mapHead).next σ

/-- The loop of `remove_always_return_values`: apply `sweep` to every child list
that is not empty, and drop the symbols whose list is empty then. -/
def removeAlwaysLoop (head : A) (sweep : Heap A V → A → Option (Heap A V)) :
    Nat → A → Heap A V → Option (Heap A V)
  | 0, _, _ => none
  | fuel + 1, current, σ =>
      if current = head then some σ
      else do
        let node ← σ.nodeAt current
        let childList ← node.value
        let σ ← if ← listEmpty σ childList then some σ else sweep σ childList
        let σ ←
          if ← listEmpty σ childList then listRemoveFree σ current (some freeValue) else some σ
        removeAlwaysLoop head sweep fuel node.next σ

/-- The branch of `remove_always_return_values` at the last symbol: drop the
first node if it has been returned and may be returned again. -/
def removeAlwaysFirst (σ : Heap A V) (childList : A) : Option (Heap A V) := do
  let childNode := (← σ.nodeAt childList).next
  if (← σ.nodeAt childNode).refcount < -1 then listRemoveFree σ childNode (some freeValue)
  else some σ

/-- `remove_always_return_values`. -/
def removeAlwaysReturnValues (fuel : Nat) :
    (numberOfSymbolNames : Nat) → Heap A V → A → Option (Heap A V)
  | 0, _, _ => none
  | 1, σ, mapHead => do
      removeAlwaysLoop mapHead removeAlwaysFirst fuel (← σ.nodeAt mapHead).next σ
  | n + 2, σ, mapHead => do
      removeAlwaysLoop mapHead (removeAlwaysReturnValues fuel (n + 1)) fuel
        (← σ.nodeAt mapHead).next σ

/-- `check_for_leftover_values_list`, from `childNode`: how many nodes are left. -/
def leftoverListLoop (σ : Heap A V) (head : A) : Nat → A → Nat → Option Nat
  | 0, _, _ => none
  | fuel + 1, childNode, leftoverCount =>
      if childNode = head then some leftoverCount
      else do leftoverListLoop σ head fuel (← σ.nodeAt childNode).next (leftoverCount + 1)

/-- `check_for_leftover_values_list`. -/
def checkForLeftoverValuesList (fuel : Nat) (σ : Heap A V) (head : A) : Option Nat := do
  leftoverListLoop σ head fuel (← σ.nodeAt head).next 0

/-- `check_for_leftover_values`, from `current`: how many symbols have a list that
is not empty. What the recursion into the lists of a deeper map returns is not
used. -/
def leftoverMapLoop (σ : Heap A V) (head : A) : Nat → A → Nat → Option Nat
  | 0, _, _ => none
  | fuel + 1, current, symbolsWithLeftoverValues =>
      if current = head then some symbolsWithLeftoverValues
      else do
        let node ← σ.nodeAt current
        if ← listEmpty σ (← node.value) then
          leftoverMapLoop σ head fuel node.next symbolsWithLeftoverValues
        else leftoverMapLoop σ head fuel node.next (symbolsWithLeftoverValues + 1)

/-- `check_for_leftover_values`. -/
def checkForLeftoverValues (fuel : Nat) (σ : Heap A V) (mapHead : A) : Option Nat := do
  leftoverMapLoop σ mapHead fuel (← σ.nodeAt mapHead).next 0

end TraceRecorderTests.Cmocka
