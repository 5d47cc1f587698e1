import TraceRecorderTests.Base.FileTree
import TraceRecorderTests.Base.Rounding
import TraceRecorderTests.Update.PathString

/-!
# update_mocks.py

The script as a step function: a step enters the next folder of the walk, or
runs the loop body on the next file of the folder it is in. What the run cannot
know beforehand is a parameter: the order of `os.walk`, the answers of the
user, and the time of the system clock when a folder gains a file.
-/

namespace TraceRecorderTests.Update

open TraceRecorderTests.Base

/-! ## The paths of a file -/

/-- `'\\mocks'`, the string the script looks for. -/
def mocksPattern : PyStr := "\\mocks".toList

/-- `source_directory`. -/
def sourceDirectory : PyStr := "unit_test_mocks".toList

/-- `found`. -/
def found (root : PyStr) : Int := find root mocksPattern

/-- `root[:found+6]`. -/
def mocksRoot (root : PyStr) : PyStr := root.take (found root + 6).toNat

/-- `len(root) > found+7`, the branch that reads the name `target`. -/
def Nested (root : PyStr) : Prop := (root.length : Int) > found root + 7

instance (root : PyStr) : Decidable (Nested root) :=
  inferInstanceAs (Decidable (_ < _))

/-- What ends the script early. -/
inductive Exception
  | nameError
  | fileNotFound (path : PyStr)
  | eof
  | ioError
  deriving DecidableEq

/-- `mock`. The branch of nested folders first reads the name `target`, which may
not be bound to anything yet. -/
def mock (sep : Sep) (target : Option PyStr) (root filename : PyStr) :
    Except Exception PyStr :=
  if Nested root then
    match target with
    | none => .error .nameError
    | some _ => .ok (join sep (root.drop (found root + 7).toNat) filename)
  else .ok filename

/-- `target` and `source`, as the loop body binds them. -/
structure Paths where
  target : PyStr
  source : PyStr
  deriving DecidableEq

/-- The loop body up to the two paths; `target` is what that name is bound to
before it. -/
def computePaths (sep : Sep) (target : Option PyStr) (root filename : PyStr) :
    Except Exception Paths := do
  let mock ← mock sep target root filename
  return {
    target := join sep (mocksRoot root) mock
    source := join sep sourceDirectory mock }

/-! ## The file system -/

/-- A path below the directory the script runs in; the separator is `'\\'`. -/
abbrev Folder := Path .backslash

/-- The tree below the directory the script runs in. -/
abbrev Tree (κ γ : Type*) := FileTree (Name .backslash) κ γ

/-- The tree the script works on, and what strings that lead out of it name. -/
structure Disk (κ γ : Type*) where
  tree : Tree κ γ
  elsewhere : PyStr → Option (Node κ γ)

namespace Disk

variable {κ γ : Type*}

/-- `os.stat`; `none` where the path does not exist. -/
def stat (disk : Disk κ γ) (path : PyStr) : Option (Node κ γ) :=
  match resolve .backslash path with
  | .inTree p => disk.tree.stat p
  | .elsewhere s => disk.elsewhere s

/-- `shutil.copy2`; `none` where it raises. A string that leads out of the tree
is paired with itself only (`pairing_rooted`), and copying a file onto itself
raises. -/
def copy2 (disk : Disk κ γ) (source target : PyStr) (now : κ) : Option (Disk κ γ) :=
  match resolve .backslash source, resolve .backslash target with
  | .inTree s, .inTree t =>
      (disk.tree.copy2 s t now).map fun tree => { disk with tree := tree }
  | _, _ => none

end Disk

/-! ## The run -/

/-- What the script prints and reads while it goes through the files. -/
inductive LogEntry
  | warned (target : PyStr)
  | answered (yn : PyStr)
  | skipped
  | updating (target : PyStr)
  deriving DecidableEq

/-- What the script does not determine: the line `input()` reads, if any, and
the clock, both after what has been printed and read so far. -/
structure Environment (κ : Type*) where
  answer : List LogEntry → Option PyStr
  clock : List LogEntry → κ

/-- The state between two steps. `target` is the variable of that name, bound
or not; `files` are the names left in the folder `root`. -/
structure Config (κ γ : Type*) where
  disk : Disk κ γ
  target : Option PyStr
  log : List LogEntry
  raised : Option Exception
  root : Folder
  files : List (Name .backslash)
  folders : List Folder

/-- `yn.lower() == 'y'`. -/
def Accepts (yn : PyStr) : Prop := yn.map Char.toLower = ['y']

instance (yn : PyStr) : Decidable (Accepts yn) :=
  inferInstanceAs (Decidable (_ = _))

theorem toLower_eq_y {c : Char} (h : c.toLower = 'y') : c = 'y' ∨ c = 'Y' := by
  by_cases hrange : c.val ≥ 'A'.val ∧ c.val ≤ 'Z'.val
  · have hlower : c.toLower.val = c.val + ('a'.val - 'A'.val) :=
      congrArg Char.val (dif_pos hrange)
    have hupper : 'Y'.val + ('a'.val - 'A'.val) = 'y'.val := by decide
    rw [h, ← hupper] at hlower
    exact .inr (Char.ext ((UInt32.add_left_inj _).mp hlower.symm))
  · have hsame : c.toLower = c := dif_neg hrange
    exact .inl (hsame.symm.trans h)

/-- The answers that accept. -/
theorem accepts_iff (yn : PyStr) : Accepts yn ↔ yn = ['y'] ∨ yn = ['Y'] := by
  constructor
  · intro h
    obtain ⟨c, rest, rfl, hc, hrest⟩ := List.map_eq_cons_iff.mp h
    obtain rfl := List.map_eq_nil_iff.mp hrest
    rcases toLower_eq_y hc with rfl | rfl
    · exact .inl rfl
    · exact .inr rfl
  · rintro (rfl | rfl) <;> decide

namespace Config

variable {κ γ : Type*}

/-- The script stops with an exception. -/
def raise (cfg : Config κ γ) (e : Exception) : Config κ γ := { cfg with raised := some e }

/-- One more line printed or read. -/
def print (cfg : Config κ γ) (entry : LogEntry) : Config κ γ :=
  { cfg with log := cfg.log ++ [entry] }

/-- The last two statements of the loop body. -/
def update (env : Environment κ) (cfg : Config κ γ) (target source : PyStr) : Config κ γ :=
  let cfg := cfg.print (.updating target)
  match cfg.disk.copy2 source target (env.clock cfg.log) with
  | none => cfg.raise .ioError
  | some disk => { cfg with disk := disk }

variable [Ring κ] [LinearOrder κ] [FloorRing κ]

/-- The loop body, from the two times on. -/
def compare (env : Environment κ) (cfg : Config κ γ) (target source : PyStr)
    (target_ct source_ct : ℤ) : Config κ γ :=
  if target_ct = source_ct then cfg
  else if target_ct > source_ct then
    let cfg := cfg.print (.warned target)
    match env.answer cfg.log with
    | none => cfg.raise .eof
    | some yn =>
        let cfg := cfg.print (.answered yn)
        if ¬ Accepts yn then cfg.print .skipped
        else cfg.update env target source
  else cfg.update env target source

/-- The loop body on one file. -/
def processFile (env : Environment κ) (cfg : Config κ γ) (filename : PyStr) : Config κ γ :=
  match computePaths .backslash cfg.target (walkRoot cfg.root) filename with
  | .error e => cfg.raise e
  | .ok ⟨target, source⟩ =>
      let cfg := { cfg with target := some target }
      match cfg.disk.stat target with
      | none => cfg.raise (.fileNotFound target)
      | some t =>
          match cfg.disk.stat source with
          | none => cfg.raise (.fileNotFound source)
          | some s =>
              cfg.compare env target source (roundHalfEven t.mtime) (roundHalfEven s.mtime)

/-- Enter a folder: its files are listed now, and only under `'\\mocks'` does the
script go through them. -/
def enter (w : Walk (Name .backslash)) (cfg : Config κ γ) (d : Folder) : Config κ γ :=
  { cfg with
    root := d
    files := if found (walkRoot d) > 0 then w.arrange d (cfg.disk.tree.fileNames d) else [] }

/-- One step of the run. -/
def step (env : Environment κ) (w : Walk (Name .backslash)) (cfg : Config κ γ) : Config κ γ :=
  if cfg.raised.isSome then cfg
  else
    match cfg.files with
    | n :: files => { cfg with files := files }.processFile env n.text
    | [] =>
        match cfg.folders with
        | d :: folders => { cfg with folders := folders }.enter w d
        | [] => cfg

/-- The state before the first folder. -/
def start (w : Walk (Name .backslash)) (disk : Disk κ γ) : Config κ γ where
  disk := disk
  target := none
  log := []
  raised := none
  root := []
  files := []
  folders := w.folders

/-- The script has gone through all files and prints `Done!`. -/
structure Completed (cfg : Config κ γ) : Prop where
  raised : cfg.raised = none
  files : cfg.files = []
  folders : cfg.folders = []

instance (cfg : Config κ γ) : Decidable cfg.Completed :=
  decidable_of_iff (cfg.raised = none ∧ cfg.files = [] ∧ cfg.folders = [])
    ⟨fun h => ⟨h.1, h.2.1, h.2.2⟩, fun h => ⟨h.raised, h.files, h.folders⟩⟩

/-- The script ends, with or without an exception. -/
def Halted (cfg : Config κ γ) : Prop := cfg.raised.isSome ∨ cfg.Completed

end Config

end TraceRecorderTests.Update
