import TraceRecorderTests.Update.Pairing

/-!
# The pairing the script is after

A file below a folder `mocks` belongs with itself, as target, and with the file
of the same path below `unit_test_mocks`, as source (`PairsRightly`). The script
finds the folder by a search for `'\\mocks'` and cuts the path six characters
later. With `'\\'` as separator that is right as long as the first name that
starts with `mocks` is no longer than that; with `'/'` the search finds no folder
named `mocks` at all. Below a folder `mocks` the body reads the name `target` before
it computes a path, and computes none as long as the name is not bound
(`pairsRightly_iff`).
-/

namespace TraceRecorderTests.Update

open TraceRecorderTests.Base

variable {sep : Sep}

/-! ## What is to be computed -/

/-- `target_directory`, which the script sets and does not use. -/
def targetDirectory : PyStr := "mocks".toList

/-- `os.path.join` of a path with names, one after the other. -/
def joinAll (sep : Sep) (path : PyStr) (p : Path sep) : PyStr :=
  p.foldl (fun path n => join sep path n.text) path

/-- The components after the first one that is exactly `mocks`. -/
def belowMocks : Path sep → Option (Path sep)
  | [] => none
  | n :: d => if n.text = targetDirectory then some d else belowMocks d

/-- The script goes through the files of this folder. -/
def Processed (root : Path sep) : Prop := found (walkRoot root) > 0

instance (root : Path sep) : Decidable (Processed root) := inferInstanceAs (Decidable (_ > _))

/-- A file in a folder is processed exactly when some component of the folder's
path is `mocks`; then the loop body computes its target, which is the file itself,
and its source, the file of the same path, from that component on, below
`unit_test_mocks`. `target` is what that name is bound to before the body. -/
structure PairsRightly (sep : Sep) (target : Option PyStr) (root : Path sep) (n : Name sep) :
    Prop where
  processed_iff : Processed root ↔ ∃ m ∈ root, m.text = targetDirectory
  target_eq : Processed root →
    (computePaths sep target (walkRoot root) n.text).map Paths.target =
      .ok (join sep (walkRoot root) n.text)
  source_eq : Processed root → ∀ below, belowMocks root = some below →
    (computePaths sep target (walkRoot root) n.text).map Paths.source =
      .ok (joinAll sep sourceDirectory (below ++ [n]))

/-- The folders on which the script gets it right: with `'\\'`, the first name
that starts with `mocks` is exactly that, if there is one; with `'/'`, no name is
`mocks` and none contains `'\\mocks'`. -/
def Regular : (sep : Sep) → Path sep → Prop
  | .backslash, root => ∀ m, root.find? (fun m => StartsMocks m) = some m → m.text = targetDirectory
  | .slash, root => ∀ m ∈ root, m.text ≠ targetDirectory ∧ ¬ mocksPattern <:+: m.text

/-- The name `target` can be read where the body reads it: it is bound, or the script
does not get to the branch of nested folders in this folder. -/
def Readable (target : Option PyStr) (root : Path sep) : Prop :=
  target ≠ none ∨ ¬ (Processed root ∧ Nested (walkRoot root))

/-- The strings are the right ones, where they are computed. -/
structure StringsRight (sep : Sep) (root : Path sep) (n : Name sep) : Prop where
  processed_iff : Processed root ↔ ∃ m ∈ root, m.text = targetDirectory
  target_eq : Processed root →
    targetString sep (walkRoot root) n.text = join sep (walkRoot root) n.text
  source_eq : Processed root → ∀ below, belowMocks root = some below →
    sourceString sep (walkRoot root) n.text = joinAll sep sourceDirectory (below ++ [n])

/-- Where the name can be read, the paths of a file that is processed are the strings. -/
theorem computePaths_of_readable {target : Option PyStr} {root : Path sep}
    (h : Readable target root) (hprocessed : Processed root) (filename : PyStr) :
    computePaths sep target (walkRoot root) filename =
      .ok ⟨targetString sep (walkRoot root) filename,
        sourceString sep (walkRoot root) filename⟩ := by
  refine computePaths_of_bound sep ?_ filename
  rintro ⟨hnested, hunbound⟩
  rcases h with hbound | hnot
  · exact hbound hunbound
  · exact hnot ⟨hprocessed, hnested⟩

theorem PairsRightly.stringsRight {target : Option PyStr} {root : Path sep} {n : Name sep}
    (h : PairsRightly sep target root n) (hreadable : Readable target root) :
    StringsRight sep root n := by
  refine ⟨h.processed_iff, fun hprocessed => ?_, fun hprocessed below hbelow => ?_⟩
  · have htarget := h.target_eq hprocessed
    rw [computePaths_of_readable hreadable hprocessed] at htarget
    exact Except.ok.inj htarget
  · have hsource := h.source_eq hprocessed below hbelow
    rw [computePaths_of_readable hreadable hprocessed] at hsource
    exact Except.ok.inj hsource

theorem StringsRight.pairsRightly {target : Option PyStr} {root : Path sep} {n : Name sep}
    (h : StringsRight sep root n) (hreadable : Readable target root) :
    PairsRightly sep target root n := by
  refine ⟨h.processed_iff, fun hprocessed => ?_, fun hprocessed below hbelow => ?_⟩
  · rw [computePaths_of_readable hreadable hprocessed]
    exact congrArg Except.ok (h.target_eq hprocessed)
  · rw [computePaths_of_readable hreadable hprocessed]
    exact congrArg Except.ok (h.source_eq hprocessed below hbelow)

/-- A file whose target is computed is one where the name can be read. -/
theorem PairsRightly.readable {target : Option PyStr} {root : Path sep} {n : Name sep}
    (h : PairsRightly sep target root n) : Readable target root := by
  by_contra hnot
  obtain ⟨hunbound, hboth⟩ := not_or.mp hnot
  obtain ⟨hprocessed, hnested⟩ := not_not.mp hboth
  have htarget := h.target_eq hprocessed
  -- the body raises, and there is no target to be right
  rw [not_not.mp hunbound, computePaths_of_unbound sep hnested] at htarget
  cases htarget

/-- A file is paired rightly when its strings are right and nothing is read that is
not bound. -/
theorem pairsRightly_iff_stringsRight (target : Option PyStr) (root : Path sep) (n : Name sep) :
    PairsRightly sep target root n ↔ StringsRight sep root n ∧ Readable target root :=
  ⟨fun h => ⟨h.stringsRight h.readable, h.readable⟩, fun h => h.1.pairsRightly h.2⟩

/-! ## Joining -/

theorem join_walkRoot_name (root : Path sep) (n : Name sep) :
    join sep (walkRoot root) n.text = walkRoot (root ++ [n]) := by
  have hname : n.text = relative [n] := (List.append_nil n.text).symm
  rw [hname]
  exact join_walkRoot root (List.cons_ne_nil n [])

theorem joinAll_append_tail {a : PyStr} (ha : a ≠ []) (hsep : ∀ c ∈ a, sep.separates c = false)
    (p q : Path sep) : joinAll sep (a ++ tail p) q = a ++ tail (p ++ q) := by
  induction q generalizing p with
  | nil => rw [List.append_nil, joinAll, List.foldl_nil]
  | cons n q ih =>
      have hname : n.text = relative [n] := (List.append_nil n.text).symm
      have hstep : join sep (a ++ tail p) n.text = a ++ tail (p ++ [n]) := by
        rw [hname]
        exact join_relative ha hsep p (List.cons_ne_nil n [])
      have hrest := ih (p ++ [n])
      rw [List.append_assoc, List.singleton_append] at hrest
      rw [← hrest, ← hstep, joinAll, joinAll, List.foldl_cons]

theorem sourceDirectory_separates : ∀ c ∈ sourceDirectory, sep.separates c = false := by
  have hall : sourceDirectory.all (fun c => !sep.separates c) = true := by
    cases sep <;> rfl
  intro c hc
  exact Bool.not_eq_true' _ ▸ List.all_eq_true.mp hall c hc

theorem joinAll_sourceDirectory (p : Path sep) :
    joinAll sep sourceDirectory p = sourceDirectory ++ tail p := by
  have hall := joinAll_append_tail (a := sourceDirectory) (by decide) sourceDirectory_separates
    ([] : Path sep) p
  rwa [tail_nil, List.append_nil, List.nil_append] at hall

/-! ## The first component `mocks` -/

theorem belowMocks_eq_some {d below : Path sep} (h : belowMocks d = some below) :
    ∃ pre n, n.text = targetDirectory ∧ d = pre ++ n :: below := by
  induction d with
  | nil => cases h
  | cons n d ih =>
      rw [belowMocks] at h
      split at h
      · next hn =>
          cases h
          exact ⟨[], n, hn, rfl⟩
      · obtain ⟨pre, m, hm, rfl⟩ := ih h
        exact ⟨n :: pre, m, hm, rfl⟩

theorem exists_belowMocks {d : Path sep} (h : ∃ m ∈ d, m.text = targetDirectory) :
    ∃ below, belowMocks d = some below := by
  induction d with
  | nil =>
      obtain ⟨m, hm, -⟩ := h
      exact absurd hm List.not_mem_nil
  | cons n d ih =>
      rw [belowMocks]
      split
      · exact ⟨d, rfl⟩
      · next hn =>
          obtain ⟨m, hm, htext⟩ := h
          rcases List.mem_cons.mp hm with rfl | hm
          · exact absurd htext hn
          · exact ih ⟨m, hm, htext⟩

/-! ## With either separator -/

/-- The script goes through a folder exactly when its path contains `'\\mocks'`:
not at the start, where the path has a period. -/
theorem processed_iff_contains (root : Path sep) :
    Processed root ↔ mocksPattern <:+: walkRoot root := by
  have hstart : ¬ mocksPattern <+: walkRoot root := by
    intro hpre
    exact absurd (List.cons_prefix_cons.mp hpre).1 (by decide)
  unfold Processed found find
  cases hfind : firstMatch mocksPattern (walkRoot root) with
  | none => exact iff_of_false (by decide) (firstMatch_eq_none_iff.mp hfind)
  | some k =>
      have hinfix : mocksPattern <:+: walkRoot root := by
        by_contra hnot
        rw [firstMatch_eq_none_iff.mpr hnot] at hfind
        cases hfind
      refine iff_of_true ?_ hinfix
      cases k with
      | zero => exact absurd (isPrefix_drop_of_firstMatch hfind) hstart
      | succ k => exact Int.natCast_pos.mpr k.succ_pos

/-- The prefix cut off ends in `'\\mocks'`. -/
theorem exists_mocksRoot {root : Path sep} (h : Processed root) :
    ∃ s, mocksRoot (walkRoot root) = s ++ mocksPattern := by
  unfold Processed found find at h
  cases hfind : firstMatch mocksPattern (walkRoot root) with
  | none =>
      rw [hfind] at h
      exact absurd h (by decide)
  | some k =>
      have hfound : found (walkRoot root) = k := by
        rw [found, find, hfind]
      have hcut : (found (walkRoot root) + 6).toNat = k + mocksPattern.length := by
        rw [hfound]
        rfl
      refine ⟨(walkRoot root).take k, ?_⟩
      rw [mocksRoot, hcut, List.take_add,
        ← List.prefix_iff_eq_take.mp (isPrefix_drop_of_firstMatch hfind)]

/-- A second part of a join is either the whole result, or comes after the first
part and a separator. -/
theorem join_cases {path p : PyStr} (hlast : path.getLast?.all sep.separates = false) :
    p.head?.any sep.separates = true ∧ join sep path p = p ∨
      p.head?.any sep.separates = false ∧ join sep path p = path ++ sep.char :: p := by
  rw [join, hlast]
  cases hhead : p.head?.any sep.separates with
  | true => exact .inl ⟨rfl, rfl⟩
  | false => exact .inr ⟨rfl, rfl⟩

/-- A folder the script goes through, with target and source as they should be:
the cut is after the first component `mocks`, so the separator is `'\\'`. -/
theorem StringsRight.char_eq {root : Path sep} {n : Name sep} (h : StringsRight sep root n)
    (hprocessed : Processed root) : sep.char = '\\' := by
  obtain ⟨below, hbelow⟩ := exists_belowMocks (h.processed_iff.mp hprocessed)
  obtain ⟨pre, m, hm, hroot⟩ := belowMocks_eq_some hbelow
  obtain ⟨s, hcut⟩ := exists_mocksRoot hprocessed
  have htarget := h.target_eq hprocessed
  have hsource := h.source_eq hprocessed below hbelow
  rw [targetString, hcut, join_walkRoot_name] at htarget
  rw [sourceString, joinAll_sourceDirectory] at hsource
  generalize mockString sep (walkRoot root) n.text = p at htarget hsource
  have hendSource : sourceDirectory.getLast?.all sep.separates = false := by
    cases sep <;> rfl
  have hendCut : (s ++ mocksPattern).getLast?.all sep.separates = false := by
    rw [List.getLast?_append_of_ne_nil s (by decide)]
    cases sep <;> rfl
  rcases join_cases hendSource with ⟨hroot', hjoin⟩ | ⟨hrel, hjoin⟩
  · -- a part that takes the place of `unit_test_mocks` does not start with it
    have hname : (sourceDirectory ++ tail (below ++ [n])).head?.any sep.separates = false :=
      sourceDirectory_separates 'u' List.mem_cons_self
    rw [← hsource, hjoin, hroot'] at hname
    cases hname
  · rcases join_cases hendCut with ⟨habs, -⟩ | ⟨-, hjoin'⟩
    · rw [hrel] at habs
      cases habs
    · -- so the part is what is below the folder, and the cut is the folder
      rw [hjoin, List.append_cancel_left_eq] at hsource
      have hpath : walkRoot (root ++ [n]) =
          walkRoot pre ++ sep.char :: targetDirectory ++ tail (below ++ [n]) := by
        rw [hroot, ← hm, List.append_assoc, List.cons_append, walkRoot, walkRoot, tail_append,
          tail_cons]
        simp only [List.cons_append, List.append_assoc]
      rw [hjoin', hsource, hpath, List.append_cancel_right_eq] at htarget
      have hlength : mocksPattern.length = (sep.char :: targetDirectory).length := rfl
      have hend := List.append_inj_right' htarget hlength
      exact (List.cons.inj hend).1.symm

/-! ## Where it is right -/

/-- With `'/'` the pattern would have to be part of a name. -/
theorem processed_slash_iff (root : Path .slash) :
    Processed root ↔ ∃ m ∈ root, mocksPattern <:+: m.text := by
  have hsep : Sep.slash.char ∉ mocksPattern := by decide
  have htail : ∀ (d : Path .slash) (a : PyStr), mocksPattern <:+: a ++ tail d ↔
      mocksPattern <:+: a ∨ ∃ m ∈ d, mocksPattern <:+: m.text := by
    intro d
    induction d with
    | nil =>
        intro a
        simp
    | cons m d ih =>
        intro a
        rw [tail_cons, infix_append_cons_iff hsep, ih, List.exists_mem_cons_iff]
  have hdot : ¬ mocksPattern <:+: ['.'] := by decide
  rw [processed_iff_contains]
  exact (htail root ['.']).trans (or_iff_right hdot)

theorem stringsRight_slash_iff (root : Path .slash) (n : Name .slash) :
    StringsRight .slash root n ↔ Regular .slash root := by
  constructor
  · intro h
    have hnot : ¬ Processed root := fun hprocessed => absurd (h.char_eq hprocessed) (by decide)
    exact fun m hm => ⟨fun htext => hnot (h.processed_iff.mpr ⟨m, hm, htext⟩),
      fun hinfix => hnot ((processed_slash_iff root).mpr ⟨m, hm, hinfix⟩)⟩
  · intro h
    have hnot : ¬ Processed root := by
      rw [processed_slash_iff]
      rintro ⟨m, hm, hinfix⟩
      exact (h m hm).2 hinfix
    exact ⟨iff_of_false hnot fun ⟨m, hm, htext⟩ => (h m hm).1 htext,
      fun hprocessed => absurd hprocessed hnot, fun hprocessed => absurd hprocessed hnot⟩

/-- In a free folder no name starts with `mocks`. -/
theorem find?_startsMocks_of_free {d : Folder} (h : Free d) :
    d.find? (fun m => decide (StartsMocks m)) = none := by
  rw [List.find?_eq_none]
  intro m hm
  simpa using h m hm

/-- With `'\\'` the first name that starts with `mocks` decides. -/
theorem find?_startsMocks {d pre post : Folder} {x : PyStr}
    (h : splitMocks d = some (pre, x, post)) :
    ∃ m, d.find? (fun m => StartsMocks m) = some m ∧ m.text = targetDirectory ++ x := by
  obtain ⟨hfree, m, hm, rfl⟩ := splitMocks_eq_some h
  refine ⟨m, ?_, hm⟩
  have hstarts : StartsMocks m := ⟨x, hm.symm⟩
  rw [List.find?_append, find?_startsMocks_of_free hfree, Option.none_or,
    List.find?_cons_of_pos (by simpa using hstarts)]

theorem startsMocks_of_eq {m : Name .backslash} (h : m.text = targetDirectory) :
    StartsMocks m := by
  unfold StartsMocks
  rw [h]
  exact List.prefix_rfl

theorem belowMocks_mocks {project : Folder} (h : Free project) (below : Folder) :
    belowMocks (project ++ mocksName :: below) = some below := by
  induction project with
  | nil => exact if_pos rfl
  | cons m project ih =>
      obtain ⟨hm, hfree⟩ := List.forall_mem_cons.mp h
      have hne : m.text ≠ targetDirectory := fun htext => hm (startsMocks_of_eq htext)
      rw [List.cons_append, belowMocks, if_neg hne, ih hfree]

/-- In a folder `mocks`, or below one, target and source are as they should be. -/
theorem stringsRight_mocks {project : Folder} (h : Free project) (below : Folder)
    (n : Name .backslash) : StringsRight .backslash (project ++ mocksName :: below) n where
  processed_iff := iff_of_true ((found_pos_iff _).mpr (not_free_mocks project below))
    ⟨mocksName, List.mem_append_right _ List.mem_cons_self, rfl⟩
  target_eq _ := by
    rw [target_of_paired (pairing_mocks h below), join_walkRoot_name, targetPath_eq_append]
  source_eq _ rest hrest := by
    rw [belowMocks_mocks h below] at hrest
    cases hrest
    rw [source_of_paired (pairing_mocks h below), joinAll_sourceDirectory]
    rfl

/-- A target that is the file itself is in a folder `mocks`, or below one. -/
theorem exists_eq_mocks_of_target_eq {root : Folder} {n : Name .backslash} (h : ¬ Free root)
    (htarget : targetString .backslash (walkRoot root) n.text = walkRoot (root ++ [n])) :
    ∃ project below, Free project ∧ root = project ++ mocksName :: below := by
  rcases pairing_of_not_free h with ⟨project, below, hpair⟩ | ⟨below, hpair⟩
  · rw [target_of_paired hpair] at htarget
    have hpath := congrArg (resolve .backslash) htarget
    rw [resolve_walkRoot, resolve_walkRoot, targetPath_eq_append] at hpath
    have heq := List.append_cancel_right (Loc.inTree.inj hpath)
    exact ⟨project, below, free_project hpair, heq.symm⟩
  · -- at the root of the drive the target would not start with a period
    rw [(pairing_rooted hpair n).1] at htarget
    have hplace := congrArg (resolve .backslash) htarget
    rw [resolve_walkRoot, resolve_tail (List.concat_ne_nil _ _)] at hplace
    cases hplace

theorem stringsRight_backslash_iff (root : Folder) (n : Name .backslash) :
    StringsRight .backslash root n ↔ Regular .backslash root := by
  cases hsplit : splitMocks root with
  | none =>
      have hfree := free_of_splitMocks_eq_none hsplit
      have hnot : ¬ Processed root := fun hprocessed => (found_pos_iff root).mp hprocessed hfree
      refine iff_of_true ⟨iff_of_false hnot ?_, fun h => absurd h hnot, fun h => absurd h hnot⟩ ?_
      · rintro ⟨m, hm, htext⟩
        exact hfree m hm (startsMocks_of_eq htext)
      · intro m hm
        rw [find?_startsMocks_of_free hfree] at hm
        cases hm
  | some cut =>
      obtain ⟨pre, x, post⟩ := cut
      obtain ⟨m, hfind, hm⟩ := find?_startsMocks hsplit
      have hnot := not_free_of_splitMocks hsplit
      constructor
      · intro h k hk
        cases hfind.symm.trans hk
        have htarget := h.target_eq ((found_pos_iff root).mpr hnot)
        rw [join_walkRoot_name] at htarget
        obtain ⟨project, below, hfree, rfl⟩ := exists_eq_mocks_of_target_eq hnot htarget
        have hcut := splitMocks_append_cons hfree startsMocks_mocksName below
        cases hcut.symm.trans hsplit
        exact hm
      · intro h
        obtain ⟨hfree, k, hk, hroot⟩ := splitMocks_eq_some hsplit
        have hx : x = [] := by
          have hexact := h m hfind
          rw [hm] at hexact
          exact List.append_right_eq_self.mp hexact
        rw [hx, List.append_nil] at hk
        have hname : k = mocksName := Name.ext hk
        rw [hroot, hname]
        exact stringsRight_mocks hfree post n

/-- For both separators, every folder and every file in it, and whatever the name
`target` is bound to: the script processes the file when it should and computes the
target and the source it should exactly when the folder is regular and `target` can
be read where it is. -/
theorem pairsRightly_iff (sep : Sep) (target : Option PyStr) (root : Path sep) (n : Name sep) :
    PairsRightly sep target root n ↔ Regular sep root ∧ Readable target root := by
  rw [pairsRightly_iff_stringsRight]
  refine and_congr_left fun _ => ?_
  cases sep with
  | backslash => exact stringsRight_backslash_iff root n
  | slash => exact stringsRight_slash_iff root n

/-- With `'/'` a project's folder `mocks` is passed by; with `'\\'` a folder `mocks2`
is taken for one; and in a folder below `mocks` that is the first the script goes
through, no path is computed. -/
theorem project_is_passed_by :
    ¬ PairsRightly .slash none
        [⟨"UnitTest_trcEvent".toList, by decide⟩, ⟨"mocks".toList, by decide⟩]
        ⟨"trcEvent.h".toList, by decide⟩ ∧
      ¬ PairsRightly .backslash none
        [⟨"UnitTest_trcEvent".toList, by decide⟩, ⟨"mocks2".toList, by decide⟩]
        ⟨"trcEvent.h".toList, by decide⟩ ∧
      ¬ PairsRightly .backslash none
        [⟨"P".toList, by decide⟩, ⟨"mocks".toList, by decide⟩, ⟨"port".toList, by decide⟩]
        ⟨"trcEvent.h".toList, by decide⟩ := by
  refine ⟨?_, ?_, ?_⟩
  · intro h
    have hprocessed := h.processed_iff.mpr
      ⟨_, List.mem_cons_of_mem _ List.mem_cons_self, rfl⟩
    exact absurd hprocessed (by decide)
  · intro h
    have hfound : found ".\\UnitTest_trcEvent\\mocks2".toList > 0 := by decide
    obtain ⟨m, hm, htext⟩ := h.processed_iff.mp hfound
    rcases List.mem_cons.mp hm with rfl | hm
    · exact absurd htext (by decide)
    · rw [List.mem_singleton.mp hm] at htext
      exact absurd htext (by decide)
  · intro h
    have hfound : found ".\\P\\mocks\\port".toList > 0 := by decide
    have hnested : Nested ".\\P\\mocks\\port".toList := by decide
    have htarget := h.target_eq hfound
    have hraises := computePaths_of_unbound .backslash hnested "trcEvent.h".toList
    cases (congrArg (Except.map Paths.target) hraises).symm.trans htarget

end TraceRecorderTests.Update
