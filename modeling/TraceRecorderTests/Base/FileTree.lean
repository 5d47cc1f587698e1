import Mathlib.Data.List.AList
import Mathlib.Data.List.Induction

/-!
# File trees

A finite tree of files and folders, as a table from paths to nodes, in which
the parent of every entry is a folder. Besides looking a path up there are two
operations: `copy2`, which behaves as Python's `shutil.copy2` does (a target
that is a folder receives the file under its own name), and the listing of a
folder's files. A `Walk` is one of the orders in which `os.walk` can go through
the folders of a tree, and through the files of each of them.
-/

namespace TraceRecorderTests.Base

variable {ν κ γ : Type*} [DecidableEq ν]

/-- What a path names: a file with its content and modification time, or a
folder with its modification time. -/
inductive Node (κ γ : Type*)
  | file (content : γ) (mtime : κ)
  | dir (mtime : κ)
  deriving DecidableEq, Repr

namespace Node

/-- The `st_mtime` of a node. -/
def mtime : Node κ γ → κ
  | file _ mtime => mtime
  | dir mtime => mtime

/-- The node is a folder. -/
def isDir : Node κ γ → Bool
  | file _ _ => false
  | dir _ => true

@[simp] theorem isDir_file (content : γ) (mtime : κ) :
    (file content mtime).isDir = false := rfl

@[simp] theorem isDir_dir (mtime : κ) : (dir mtime : Node κ γ).isDir = true := rfl

end Node

/-- A finite tree: the root is a folder, and so is the parent of every entry. -/
@[ext] structure FileTree (ν κ γ : Type*) [DecidableEq ν] where
  nodes : AList fun _ : List ν => Node κ γ
  root_isDir : (nodes.lookup []).any Node.isDir = true
  parent_isDir : ∀ p ∈ nodes.keys, (nodes.lookup p.dropLast).any Node.isDir = true

namespace FileTree

/-- What a path names, if anything. -/
def stat (t : FileTree ν κ γ) (p : List ν) : Option (Node κ γ) := t.nodes.lookup p

/-- The path names a folder. -/
def isDir (t : FileTree ν κ γ) (p : List ν) : Bool := (t.stat p).any Node.isDir

/-- The path names a file. -/
def isFile (t : FileTree ν κ γ) (p : List ν) : Bool :=
  (t.stat p).any fun x => !x.isDir

theorem isDir_iff {t : FileTree ν κ γ} {p : List ν} :
    t.isDir p = true ↔ ∃ m, t.stat p = some (.dir m) := by
  rw [isDir, Option.any_eq_true]
  constructor
  · rintro ⟨x, hx, hdir⟩
    cases x with
    | file c m => cases hdir
    | dir m => exact ⟨m, hx⟩
  · rintro ⟨m, hm⟩
    exact ⟨_, hm, rfl⟩

theorem isFile_iff {t : FileTree ν κ γ} {p : List ν} :
    t.isFile p = true ↔ ∃ c m, t.stat p = some (.file c m) := by
  rw [isFile, Option.any_eq_true]
  constructor
  · rintro ⟨x, hx, hfile⟩
    cases x with
    | file c m => exact ⟨c, m, hx⟩
    | dir m => cases hfile
  · rintro ⟨c, m, hm⟩
    exact ⟨_, hm, rfl⟩

theorem isDir_of_stat_file {t : FileTree ν κ γ} {p : List ν} {c : γ} {m : κ}
    (h : t.stat p = some (.file c m)) : t.isDir p = false := by
  rw [isDir, h]
  rfl

theorem isSome_of_isDir {t : FileTree ν κ γ} {p : List ν} (h : t.isDir p = true) :
    (t.stat p).isSome = true := by
  obtain ⟨m, hm⟩ := isDir_iff.mp h
  rw [hm]
  rfl

theorem mem_keys_of_stat {t : FileTree ν κ γ} {p : List ν} {x : Node κ γ}
    (h : t.stat p = some x) : p ∈ t.nodes.keys :=
  AList.lookup_isSome.mp (Option.isSome_iff_exists.mpr ⟨x, h⟩)

/-- The parent of an entry is a folder. -/
theorem isDir_dropLast {t : FileTree ν κ γ} {p : List ν} (h : (t.stat p).isSome) :
    t.isDir p.dropLast = true :=
  t.parent_isDir p (AList.lookup_isSome.mp h)

/-- Every proper ancestor of an entry is a folder. -/
theorem isDir_of_append {t : FileTree ν κ γ} {p q : List ν} (hq : q ≠ [])
    (h : (t.stat (p ++ q)).isSome) : t.isDir p = true := by
  induction q using List.reverseRecOn with
  | nil => exact absurd rfl hq
  | append_singleton q n ih =>
      have hdir : t.isDir (p ++ q) = true := by
        simpa [← List.append_assoc] using isDir_dropLast h
      by_cases hnil : q = []
      · simpa [hnil] using hdir
      · exact ih hnil (isSome_of_isDir hdir)

/-- Nothing lies below a file. -/
theorem stat_append_of_file {t : FileTree ν κ γ} {p q : List ν} {c : γ} {m : κ}
    (h : t.stat p = some (.file c m)) (hq : q ≠ []) : t.stat (p ++ q) = none := by
  by_contra hne
  have hdir := isDir_of_append hq (Option.isSome_iff_ne_none.mpr hne)
  rw [isDir_of_stat_file h] at hdir
  cases hdir

/-! ## Storing a node -/

/-- Store a node at a path whose parent is a folder. A folder stays a folder,
and nothing else becomes one. -/
def insertNode (t : FileTree ν κ γ) (p : List ν) (x : Node κ γ)
    (hparent : t.isDir p.dropLast = true) (hkind : t.isDir p = x.isDir) :
    FileTree ν κ γ where
  nodes := t.nodes.insert p x
  root_isDir := by
    by_cases hp : [] = p
    · subst hp
      rw [AList.lookup_insert, Option.any_some, ← hkind]
      exact t.root_isDir
    · rw [AList.lookup_insert_ne hp]
      exact t.root_isDir
  parent_isDir := by
    have hdir : ∀ q, t.isDir q = true →
        ((t.nodes.insert p x).lookup q).any Node.isDir = true := by
      intro q hq
      by_cases hqp : q = p
      · subst hqp
        rw [AList.lookup_insert, Option.any_some, ← hkind, hq]
      · rw [AList.lookup_insert_ne hqp]
        exact hq
    intro q hq
    rcases (AList.mem_insert t.nodes).mp (AList.mem_keys.mpr hq) with rfl | hmem
    · exact hdir _ hparent
    · exact hdir _ (t.parent_isDir q hmem)

section insertNode

variable {t : FileTree ν κ γ} {p : List ν} {x : Node κ γ}
  {hparent : t.isDir p.dropLast = true} {hkind : t.isDir p = x.isDir}

@[simp] theorem stat_insertNode_self : (t.insertNode p x hparent hkind).stat p = some x :=
  AList.lookup_insert t.nodes

theorem stat_insertNode_ne {q : List ν} (h : q ≠ p) :
    (t.insertNode p x hparent hkind).stat q = t.stat q :=
  AList.lookup_insert_ne h

@[simp] theorem isDir_insertNode (q : List ν) :
    (t.insertNode p x hparent hkind).isDir q = t.isDir q := by
  by_cases h : q = p
  · subst h
    rw [isDir, stat_insertNode_self, Option.any_some, hkind]
  · rw [isDir, stat_insertNode_ne h, isDir]

end insertNode

/-- Give a folder a new modification time. -/
def touch (t : FileTree ν κ γ) (p : List ν) (now : κ) : FileTree ν κ γ :=
  if h : t.isDir p = true then
    t.insertNode p (.dir now) (isDir_dropLast (isSome_of_isDir h))
      (h.trans (Node.isDir_dir now).symm)
  else t

@[simp] theorem isDir_touch (t : FileTree ν κ γ) (p q : List ν) (now : κ) :
    (t.touch p now).isDir q = t.isDir q := by
  rw [touch]
  split
  · exact isDir_insertNode q
  · rfl

/-- Only the node of a folder changes. -/
theorem stat_touch_of_not_isDir {t : FileTree ν κ γ} {p q : List ν} {now : κ}
    (h : t.isDir q = false) : (t.touch p now).stat q = t.stat q := by
  rw [touch]
  split
  · next hp =>
      refine stat_insertNode_ne ?_
      rintro rfl
      rw [h] at hp
      cases hp
  · rfl

/-! ## Copying -/

/-- Where `copy2` writes: a target that is a folder receives the file under the
source's own name. -/
def landing (t : FileTree ν κ γ) (source target : List ν) : List ν :=
  if t.isDir target then target ++ source.getLast?.toList else target

/-- Write a file at a path that names a file, or nothing yet in a folder; a
folder that gains an entry is given the time `now`. -/
def write (t : FileTree ν κ γ) (p : List ν) (content : γ) (mtime now : κ) :
    Option (FileTree ν κ γ) :=
  if h : t.isDir p.dropLast = true ∧ t.isDir p = false then
    let written := t.insertNode p (.file content mtime) h.1
      (h.2.trans (Node.isDir_file content mtime).symm)
    if (t.stat p).isSome then some written else some (written.touch p.dropLast now)
  else none

/-- What a successful write does: the path was no folder and holds the file,
folders stay folders, and every other path that is no folder is as it was. -/
theorem write_spec {t t' : FileTree ν κ γ} {p : List ν} {content : γ} {mtime now : κ}
    (h : t.write p content mtime now = some t') :
    t.isDir p = false ∧ t'.stat p = some (.file content mtime) ∧
      (∀ q, t'.isDir q = t.isDir q) ∧
      ∀ q, q ≠ p → t.isDir q = false → t'.stat q = t.stat q := by
  rw [write] at h
  split at h
  · next hplace =>
      refine ⟨hplace.2, ?_⟩
      simp only at h
      split at h
      · cases h
        exact ⟨stat_insertNode_self, fun q => isDir_insertNode q,
          fun q hq _ => stat_insertNode_ne hq⟩
      · cases h
        refine ⟨?_, fun q => ?_, fun q hq hdir => ?_⟩
        · rw [stat_touch_of_not_isDir, stat_insertNode_self]
          rw [isDir_insertNode]
          exact hplace.2
        · rw [isDir_touch, isDir_insertNode]
        · rw [stat_touch_of_not_isDir, stat_insertNode_ne hq]
          rw [isDir_insertNode]
          exact hdir
  · cases h

/-- `shutil.copy2`: content and modification time of the source are written to
the target; `none` where the call raises. -/
def copy2 (t : FileTree ν κ γ) (source target : List ν) (now : κ) :
    Option (FileTree ν κ γ) :=
  match t.stat source with
  | some (.file content mtime) =>
      if source = t.landing source target then none
      else t.write (t.landing source target) content mtime now
  | _ => none

/-- A successful copy is a write of the source's file. -/
theorem copy2_spec {t t' : FileTree ν κ γ} {source target : List ν} {now : κ}
    (h : t.copy2 source target now = some t') :
    ∃ content mtime, t.stat source = some (.file content mtime) ∧
      t.write (t.landing source target) content mtime now = some t' := by
  rw [copy2] at h
  split at h
  · next content mtime hsource =>
      split at h
      · cases h
      · exact ⟨content, mtime, hsource, h⟩
  · cases h

/-- A copy onto a file writes that file. -/
theorem landing_of_not_isDir {t : FileTree ν κ γ} {source target : List ν}
    (h : t.isDir target = false) : t.landing source target = target := by
  rw [landing, h]
  rfl

/-- A copy of a file onto another file succeeds and changes nothing else: no
folder gains an entry. -/
theorem copy2_of_files {t : FileTree ν κ γ} {source target : List ν} {c c' : γ} {m m' : κ}
    (hne : source ≠ target) (hsource : t.stat source = some (.file c' m'))
    (htarget : t.stat target = some (.file c m)) (now : κ) :
    ∃ t', t.copy2 source target now = some t' ∧ t'.stat target = some (.file c' m') ∧
      ∀ q, q ≠ target → t'.stat q = t.stat q := by
  have hsome : (t.stat target).isSome = true := by
    rw [htarget]
    rfl
  have hfile := isDir_of_stat_file htarget
  have hplace : t.isDir target.dropLast = true ∧ t.isDir target = false :=
    ⟨isDir_dropLast hsome, hfile⟩
  refine ⟨t.insertNode target (.file c' m') hplace.1
    (hplace.2.trans (Node.isDir_file c' m').symm), ?_, stat_insertNode_self,
    fun q hq => stat_insertNode_ne hq⟩
  rw [copy2, hsource]
  simp only [landing_of_not_isDir hfile, if_neg hne, write, dif_pos hplace, if_pos hsome]

/-! ## Leaving files out -/

/-- The tree without the files that are not kept. -/
def restrict (t : FileTree ν κ γ) (keep : List ν → Bool)
    (hkeep : ∀ p, t.isDir p = true → keep p = true) : FileTree ν κ γ :=
  let nodes : AList fun _ : List ν => Node κ γ :=
    ⟨t.nodes.entries.filter fun entry => keep entry.1,
      t.nodes.nodupKeys.sublist List.filter_sublist⟩
  have hdir : ∀ p, t.isDir p = true → (nodes.lookup p).any Node.isDir = true := by
    intro p hp
    obtain ⟨m, hm⟩ := isDir_iff.mp hp
    have hentry : ⟨p, .dir m⟩ ∈ nodes.entries :=
      List.mem_filter.mpr ⟨AList.mem_lookup_iff.mp hm, hkeep p hp⟩
    rw [Option.mem_def.mp (AList.mem_lookup_iff.mpr hentry)]
    rfl
  { nodes := nodes
    root_isDir := hdir [] t.root_isDir
    parent_isDir := by
      intro p hp
      refine hdir _ (t.parent_isDir p ?_)
      exact (List.filter_sublist.map Sigma.fst).subset hp }

/-- A tree all of whose entries are kept stays the same. -/
theorem restrict_eq_self {t : FileTree ν κ γ} {keep : List ν → Bool}
    {hkeep : ∀ p, t.isDir p = true → keep p = true}
    (hall : ∀ p, (t.stat p).isSome = true → keep p = true) : t.restrict keep hkeep = t := by
  refine FileTree.ext (AList.ext (List.filter_eq_self.mpr fun entry hentry => hall entry.1 ?_))
  rw [stat, Option.mem_def.mp (AList.mem_lookup_iff.mpr hentry)]
  rfl

/-! ## Listing and walking -/

/-- The names of the files of a folder. -/
def fileNames (t : FileTree ν κ γ) (d : List ν) : List ν :=
  (t.nodes.keys.filter fun p => p.dropLast = d && t.isFile p).filterMap List.getLast?

theorem mem_fileNames {t : FileTree ν κ γ} {d : List ν} {n : ν} :
    n ∈ t.fileNames d ↔ t.isFile (d ++ [n]) = true := by
  simp only [fileNames, List.mem_filterMap, List.mem_filter, Bool.and_eq_true,
    decide_eq_true_eq]
  constructor
  · rintro ⟨p, ⟨-, hd, hfile⟩, hlast⟩
    have hp : p = d ++ [n] := by
      rw [← hd]
      exact (List.dropLast_append_getLast? n hlast).symm
    rwa [← hp]
  · intro hfile
    obtain ⟨c, m, hstat⟩ := isFile_iff.mp hfile
    refine ⟨d ++ [n], ⟨?_, ?_, hfile⟩, ?_⟩
    · exact mem_keys_of_stat hstat
    · exact List.dropLast_concat
    · exact List.getLast?_concat

/-- A folder lists no name twice. -/
theorem nodup_fileNames (t : FileTree ν κ γ) (d : List ν) : (t.fileNames d).Nodup := by
  have hpath : ∀ p n, p ∈ t.nodes.keys.filter (fun p => p.dropLast = d && t.isFile p) →
      p.getLast? = some n → p = d ++ [n] := by
    intro p n hp hlast
    rw [List.mem_filter, Bool.and_eq_true, decide_eq_true_eq] at hp
    rw [← hp.2.1]
    exact (List.dropLast_append_getLast? n hlast).symm
  rw [fileNames, List.Nodup, List.pairwise_filterMap]
  refine (t.nodes.keys_nodup.filter _).imp_of_mem ?_
  intro p q hp hq hne n hn m hm heq
  rw [← heq] at hm
  exact hne ((hpath p n hp hn).trans (hpath q n hq hm).symm)

end FileTree

/-- An order of enumeration: the folders in the order of their visits, and for
each folder the order in which its files are listed. -/
structure Walk (ν : Type*) where
  folders : List (List ν)
  arrange : List ν → List ν → List ν
  arrange_perm : ∀ d names, (arrange d names).Perm names

/-- The walk through these folders that lists files as the file system does. -/
def Walk.inOrder (folders : List (List ν)) : Walk ν where
  folders := folders
  arrange _ names := names
  arrange_perm _ _ := .rfl

/-- `os.walk` can go through the tree in this order: top down from the root,
through every folder once, and through everything below a folder before what
comes after it. -/
structure Walk.Enumerates (w : Walk ν) (t : FileTree ν κ γ) : Prop where
  starts_at_root : w.folders.head? = some []
  nodup : w.folders.Nodup
  mem_iff : ∀ d, d ∈ w.folders ↔ t.isDir d = true
  preorder : w.folders.IsChain fun a b => b ≠ [] ∧ b.dropLast <+: a

omit [DecidableEq ν] in
theorem Walk.mem_arrange {w : Walk ν} {d names : List ν} {n : ν} :
    n ∈ w.arrange d names ↔ n ∈ names :=
  (w.arrange_perm d names).mem_iff

/-- It is enough to look at the paths the tree has. -/
theorem Walk.mem_folders_iff {w : Walk ν} {t : FileTree ν κ γ}
    (hdirs : w.folders.all t.isDir = true)
    (hall : (t.nodes.keys.all fun d => !t.isDir d || decide (d ∈ w.folders)) = true)
    (d : List ν) : d ∈ w.folders ↔ t.isDir d = true := by
  refine ⟨List.all_eq_true.mp hdirs d, fun hdir => ?_⟩
  have hmem : d ∈ t.nodes.keys := AList.lookup_isSome.mp (FileTree.isSome_of_isDir hdir)
  have hd := List.all_eq_true.mp hall d hmem
  rw [hdir] at hd
  simpa using hd

/-- A walk goes on to enumerate a tree whose folders are the same. -/
theorem Walk.Enumerates.congr {w : Walk ν} {t t' : FileTree ν κ γ} (h : w.Enumerates t)
    (hdirs : ∀ q, t'.isDir q = t.isDir q) : w.Enumerates t' where
  starts_at_root := h.starts_at_root
  nodup := h.nodup
  mem_iff d := by rw [hdirs d]; exact h.mem_iff d
  preorder := h.preorder

end TraceRecorderTests.Base
