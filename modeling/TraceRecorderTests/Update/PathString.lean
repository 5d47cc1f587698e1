import Mathlib.Data.List.Basic
import Mathlib.Data.List.Induction
import Mathlib.Data.Option.Basic
import TraceRecorderTests.Base.Search

/-!
# Paths as the script handles them

`update_mocks.py` works on path strings: `str.find`, slices and
`os.path.join`. The file system works on components. This module has both: the
string operations under their Python names, the string `os.walk` gives a
folder, and `resolve`, which says what a string names relative to the directory
the script runs in. The bridge is that both kinds of string the script builds,
`walkRoot` and `relative`, resolve to the components they were built from.
-/

namespace TraceRecorderTests.Update

open TraceRecorderTests.Base

/-- A Python string. -/
abbrev PyStr := List Char

/-- The path separator of the platform, `os.sep`. -/
inductive Sep
  | backslash
  | slash
  deriving DecidableEq, Repr

namespace Sep

/-- The separator itself. -/
def char : Sep → Char
  | backslash => '\\'
  | slash => '/'

/-- The characters that separate components: with `'\\'` as separator, `'/'`
separates too. -/
def separates : Sep → Char → Bool
  | backslash, c => c = '\\' || c = '/'
  | slash, c => c = '/'

@[simp] theorem separates_char (sep : Sep) : sep.separates sep.char = true := by
  cases sep <;> decide

end Sep

/-! ## Names -/

/-- What can be the name of a file or a folder: no separator, and no name that
stands for a folder by its position; where the separator is `'\\'` also no
drive colon, and no final period or space, which the system drops. -/
def ValidName : Sep → PyStr → Prop
  | .backslash, s => s ≠ [] ∧ '\\' ∉ s ∧ '/' ∉ s ∧ ':' ∉ s ∧
      s.getLast? ≠ some '.' ∧ s.getLast? ≠ some ' '
  | .slash, s => s ≠ [] ∧ '/' ∉ s ∧ s ≠ ['.'] ∧ s ≠ ['.', '.']

instance (sep : Sep) (s : PyStr) : Decidable (ValidName sep s) := by
  cases sep <;> exact inferInstanceAs (Decidable (_ ∧ _))

/-- The name of a file or a folder. -/
structure Name (sep : Sep) where
  text : PyStr
  valid : ValidName sep text
  deriving DecidableEq

/-- A path below the directory the script runs in, component by component. -/
abbrev Path (sep : Sep) := List (Name sep)

namespace Name

variable {sep : Sep}

@[ext] theorem ext {a b : Name sep} (h : a.text = b.text) : a = b := by
  cases a
  cases b
  cases h
  rfl

theorem text_ne_nil (n : Name sep) : n.text ≠ [] := by
  cases sep with
  | backslash => exact n.valid.1
  | slash => exact n.valid.1

theorem text_ne_dot (n : Name sep) : n.text ≠ ['.'] := by
  cases sep with
  | backslash =>
      intro hdot
      have hlast := n.valid.2.2.2.2.1
      rw [hdot] at hlast
      exact hlast rfl
  | slash => exact n.valid.2.2.1

/-- No character of a name separates components. -/
theorem separates_eq_false (n : Name sep) : ∀ c ∈ n.text, sep.separates c = false := by
  intro c hc
  cases sep with
  | backslash =>
      have hback : c ≠ '\\' := fun h => n.valid.2.1 (h ▸ hc)
      have hslash : c ≠ '/' := fun h => n.valid.2.2.1 (h ▸ hc)
      simp [Sep.separates, hback, hslash]
  | slash =>
      have hslash : c ≠ '/' := fun h => n.valid.2.1 (h ▸ hc)
      simp [Sep.separates, hslash]

theorem sep_notMem (n : Name sep) : sep.char ∉ n.text := by
  intro hmem
  have hsep := n.separates_eq_false _ hmem
  rw [Sep.separates_char] at hsep
  cases hsep

end Name

/-! ## The string operations of the script -/

/-- `s.find(pattern)`. -/
def find (s pattern : PyStr) : Int :=
  match firstMatch pattern s with
  | some n => n
  | none => -1

/-- `os.path.join(path, p)`: a second part that starts at the root takes the
first one's place. -/
def join (sep : Sep) (path p : PyStr) : PyStr :=
  if p.head?.any sep.separates then p
  else if path.getLast?.all sep.separates then path ++ p
  else path ++ sep.char :: p

/-- Components, each after a separator. -/
def tail {sep : Sep} (p : Path sep) : PyStr := p.flatMap fun n => sep.char :: n.text

/-- The string `os.walk('.')` gives for a folder: it starts at `'.'` and joins
the name of each folder on the way. -/
def walkRoot {sep : Sep} (d : Path sep) : PyStr := '.' :: tail d

/-- Components joined by the separator. -/
def relative {sep : Sep} : Path sep → PyStr
  | [] => []
  | n :: p => n.text ++ tail p

section strings

variable {sep : Sep}

@[simp] theorem tail_nil : tail ([] : Path sep) = [] := rfl

@[simp] theorem tail_cons (n : Name sep) (p : Path sep) :
    tail (n :: p) = sep.char :: (n.text ++ tail p) := rfl

theorem tail_append (p q : Path sep) : tail (p ++ q) = tail p ++ tail q :=
  List.flatMap_append

/-- After the first character, the components read from the first one on. -/
theorem drop_one_tail (p : Path sep) : (tail p).drop 1 = relative p := by
  cases p with
  | nil => rfl
  | cons n p => rfl

theorem two_le_length_tail {p : Path sep} (h : p ≠ []) : 2 ≤ (tail p).length := by
  obtain ⟨n, q, rfl⟩ := List.exists_cons_of_ne_nil h
  have hpos : 0 < n.text.length := List.length_pos_of_ne_nil n.text_ne_nil
  simp only [tail_cons, List.length_cons, List.length_append]
  omega

theorem separates_head?_relative (p : Path sep) :
    (relative p).head?.any sep.separates = false := by
  cases p with
  | nil => rfl
  | cons n p =>
      obtain ⟨c, s, hcs⟩ := List.exists_cons_of_ne_nil n.text_ne_nil
      have hsep := n.separates_eq_false c (by rw [hcs]; exact List.mem_cons_self)
      rw [relative, hcs]
      simpa using hsep

/-- No path string ends in a separator. -/
theorem separates_getLast? {a : PyStr} (ha : a ≠ []) (hsep : ∀ c ∈ a, sep.separates c = false)
    (p : Path sep) : (a ++ tail p).getLast?.all sep.separates = false := by
  have hlast : ∀ b : PyStr, b ≠ [] → (∀ c ∈ b, sep.separates c = false) →
      ∀ s : PyStr, (s ++ b).getLast?.all sep.separates = false := by
    intro b hb hbsep s
    rw [List.getLast?_append_of_ne_nil s hb, List.getLast?_eq_some_getLast hb, Option.all_some]
    exact hbsep _ (List.getLast_mem hb)
  cases p using List.reverseRec with
  | nil => simpa using hlast a ha hsep []
  | append_singleton p n =>
      have hsplit : a ++ tail (p ++ [n]) = (a ++ tail p ++ [sep.char]) ++ n.text := by
        simp [tail_append]
      rw [hsplit]
      exact hlast n.text n.text_ne_nil n.separates_eq_false _

/-- Joining more components to a path string. -/
theorem join_relative {a : PyStr} (ha : a ≠ []) (hsep : ∀ c ∈ a, sep.separates c = false)
    (p : Path sep) {q : Path sep} (hq : q ≠ []) :
    join sep (a ++ tail p) (relative q) = a ++ tail (p ++ q) := by
  obtain ⟨n, q, rfl⟩ := List.exists_cons_of_ne_nil hq
  rw [join, separates_head?_relative, separates_getLast? ha hsep, tail_append]
  simp [relative]

/-- A second part that starts with a separator takes the first one's place. -/
theorem join_tail (path : PyStr) {p : Path sep} (hp : p ≠ []) :
    join sep path (tail p) = tail p := by
  obtain ⟨n, p, rfl⟩ := List.exists_cons_of_ne_nil hp
  rw [join, tail_cons, List.head?_cons, Option.any_some, Sep.separates_char, if_pos rfl]

theorem dot_separates : ∀ c ∈ ['.'], sep.separates c = false := by
  intro c hc
  rw [List.mem_singleton.mp hc]
  cases sep <;> decide

/-- `os.walk` goes down by joining the name of the folder. -/
theorem join_walkRoot (d : Path sep) {q : Path sep} (hq : q ≠ []) :
    join sep (walkRoot d) (relative q) = walkRoot (d ++ q) :=
  join_relative (List.cons_ne_nil '.' []) dot_separates d hq

theorem join_relative_relative {p q : Path sep} (hp : p ≠ []) (hq : q ≠ []) :
    join sep (relative p) (relative q) = relative (p ++ q) := by
  obtain ⟨n, p, rfl⟩ := List.exists_cons_of_ne_nil hp
  exact join_relative n.text_ne_nil n.separates_eq_false p hq

/-- Joining below a string of components that starts at the root. -/
theorem join_tail_relative {p q : Path sep} (hp : p ≠ []) (hq : q ≠ []) :
    join sep (tail p) (relative q) = tail (p ++ q) := by
  cases p using List.reverseRec with
  | nil => exact absurd rfl hp
  | append_singleton p n =>
      obtain ⟨m, q, rfl⟩ := List.exists_cons_of_ne_nil hq
      have hend : (tail (p ++ [n])).getLast?.all sep.separates = false := by
        have hlast := separates_getLast? n.text_ne_nil n.separates_eq_false ([] : Path sep)
        rw [tail_append, tail_cons, tail_nil, List.append_nil]
        rw [tail_nil, List.append_nil] at hlast
        rw [List.getLast?_append_of_ne_nil _ (List.cons_ne_nil _ _),
          List.getLast?_cons_of_ne_nil n.text_ne_nil]
        exact hlast
      rw [join, separates_head?_relative, hend, tail_append _ (m :: q)]
      simp [relative]

end strings

/-! ## What a string names -/

/-- A place in the file system: a path in the tree the script walks, or a
string that leads out of it. -/
inductive Loc (sep : Sep)
  | inTree (path : Path sep)
  | elsewhere (text : PyStr)
  deriving DecidableEq

/-- Read components as names. -/
def parseNames (sep : Sep) : List PyStr → Option (Path sep)
  | [] => some []
  | s :: rest =>
      if h : ValidName sep s then (parseNames sep rest).map (⟨s, h⟩ :: ·) else none

/-- What a path string names: from the root of the drive if it starts with a
separator, else from the current directory, component by component, where an
empty component and `'.'` stand for the folder itself. -/
def resolve (sep : Sep) (s : PyStr) : Loc sep :=
  if s.head?.any sep.separates then .elsewhere s
  else match parseNames sep ((s.splitOnP sep.separates).filter fun c => c ≠ [] ∧ c ≠ ['.']) with
    | some path => .inTree path
    | none => .elsewhere s

section resolve

variable {sep : Sep}

theorem parseNames_map_text (p : Path sep) :
    parseNames sep (p.map Name.text) = some p := by
  induction p with
  | nil => rfl
  | cons n p ih => rw [List.map_cons, parseNames, dif_pos n.valid, ih]; rfl

theorem filter_map_text (p : Path sep) :
    ((p.map Name.text).filter fun c => c ≠ [] ∧ c ≠ ['.']) = p.map Name.text := by
  rw [List.filter_eq_self]
  intro s hs
  obtain ⟨n, -, rfl⟩ := List.mem_map.mp hs
  simp [n.text_ne_nil, n.text_ne_dot]

/-- Splitting a path string gives its components. -/
theorem splitOnP_append_tail {a : PyStr} (ha : ∀ c ∈ a, sep.separates c = false)
    (p : Path sep) :
    (a ++ tail p).splitOnP sep.separates = a :: p.map Name.text := by
  induction p generalizing a with
  | nil => rw [tail_nil, List.append_nil, List.splitOnP_eq_singleton ha]; rfl
  | cons n p ih =>
      rw [tail_cons, List.splitOnP_append_cons_of_forall_mem ha sep.char sep.separates_char,
        ih n.separates_eq_false, List.map_cons]

/-- The string of a folder, and of a file in it, names what it was built from. -/
@[simp] theorem resolve_walkRoot (d : Path sep) : resolve sep (walkRoot d) = .inTree d := by
  have hsplit := splitOnP_append_tail (a := ['.']) dot_separates d
  have hdot : sep.separates '.' = false := dot_separates '.' List.mem_cons_self
  rw [List.singleton_append] at hsplit
  rw [resolve, walkRoot, hsplit, List.filter_cons_of_neg (by simp), filter_map_text,
    parseNames_map_text, List.head?_cons, Option.any_some, hdot]
  rfl

@[simp] theorem resolve_relative {p : Path sep} (hp : p ≠ []) :
    resolve sep (relative p) = .inTree p := by
  rw [resolve, separates_head?_relative]
  obtain ⟨n, p, rfl⟩ := List.exists_cons_of_ne_nil hp
  rw [relative, splitOnP_append_tail n.separates_eq_false, ← List.map_cons,
    filter_map_text, parseNames_map_text]
  rfl

/-- A string that starts with a separator leads to the root of the drive. -/
theorem resolve_tail {p : Path sep} (hp : p ≠ []) :
    resolve sep (tail p) = .elsewhere (tail p) := by
  obtain ⟨n, p, rfl⟩ := List.exists_cons_of_ne_nil hp
  rw [resolve, tail_cons, List.head?_cons, Option.any_some, Sep.separates_char, if_pos rfl]

end resolve

end TraceRecorderTests.Update
