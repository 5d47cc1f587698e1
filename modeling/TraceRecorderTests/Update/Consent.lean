import TraceRecorderTests.Update.Accepted

/-!
# Consent

What the script has changed at any point of a run (`Safe`): files below a
matched folder, each of which now is the file of `unit_test_mocks` it is paired
with, and none that was at least as new unless the user was asked about it and
agreed. One kind of step breaks this (`LandsOnNewer`): when the target is a
folder, its time is compared, but `shutil.copy2` writes the file of that name
inside it.
-/

namespace TraceRecorderTests.Update

open TraceRecorderTests.Base

variable {κ γ : Type*}

/-- `unit_test_mocks` has no folder in it whose name starts with `mocks`. -/
def CommonIsNoProject (tree : Tree κ γ) : Prop :=
  ∀ q, tree.isDir (unitTestMocks :: q) = true → Free q

/-- Some file of the tree makes the script write `source` at `written`. -/
def PairedWith (tree : Tree κ γ) (written source : Folder) : Prop :=
  ∃ d n project below, tree.isFile (d ++ [n]) = true ∧ pairing d = .paired project below ∧
    source = sourcePath below n ∧
    written = tree.landing source (targetPath project below n)

/-- The state of a run that started on `tree`: the changed files and what may be
said of them. -/
structure Safe [LE κ] (tree : Tree κ γ) (cfg : Config κ γ) : Prop where
  changed : ∀ p content mtime, cfg.disk.tree.stat p = some (.file content mtime) →
    tree.stat p ≠ some (.file content mtime) →
    found (walkRoot p.dropLast) > 0 ∧
      ∃ q, PairedWith cfg.disk.tree p (unitTestMocks :: q) ∧
        tree.stat (unitTestMocks :: q) = some (.file content mtime) ∧
        ∀ content₀ mtime₀, tree.stat p = some (.file content₀ mtime₀) →
          mtime ≤ mtime₀ → Consented cfg.log p
  kept : ∀ p, tree.isFile p = true → cfg.disk.tree.isFile p = true
  common : ∀ q, tree.isDir (unitTestMocks :: q) = false →
    cfg.disk.tree.stat (unitTestMocks :: q) = tree.stat (unitTestMocks :: q)

/-! ## Pairs -/

/-- A written path, its project and what is below its mocks folder. -/
theorem PairedWith.cases {tree : Tree κ γ} {p s : Folder} (h : PairedWith tree p s) :
    ∃ n project below R, Free project ∧ s = sourcePath below n ∧ p = targetPath project R n ∧
      (R = below ∨ R = below ++ [n]) := by
  obtain ⟨d, n, project, below, -, hpair, rfl, rfl⟩ := h
  rw [landing_targetPath]
  split
  · exact ⟨n, project, below, below ++ [n], free_project hpair, rfl, rfl, .inr rfl⟩
  · exact ⟨n, project, below, below, free_project hpair, rfl, rfl, .inl rfl⟩

/-- Nothing is below a source file. -/
theorem sourcePath_append_singleton {tree : Tree κ γ} {below : Folder}
    {n : Name .backslash} {content : γ} {mtime : κ}
    (h : tree.stat (sourcePath below n) = some (.file content mtime)) :
    tree.stat (sourcePath (below ++ [n]) n) = none := by
  have hbelow := FileTree.stat_append_of_file h (List.cons_ne_nil n [])
  rwa [sourcePath, List.cons_append] at hbelow

/-- A written path has one source file. -/
theorem PairedWith.unique {tree tree' : Tree κ γ} {p s s' : Folder} {c c' : γ} {m m' : κ}
    (h : PairedWith tree p s) (h' : PairedWith tree p s')
    (hs : tree'.stat s = some (.file c m)) (hs' : tree'.stat s' = some (.file c' m')) :
    s = s' := by
  obtain ⟨n, project, below, R, hfree, rfl, rfl, hR⟩ := h.cases
  obtain ⟨n', project', below', R', hfree', rfl, heq, hR'⟩ := h'.cases
  obtain ⟨-, rfl, rfl⟩ := targetPath_inj hfree hfree' heq
  -- a path can be reached directly or through a folder of its name, but then one of the two
  -- source files would lie below the other
  rcases hR with rfl | rfl
  · rcases hR' with rfl | rfl
    · rfl
    · rw [sourcePath_append_singleton hs'] at hs
      cases hs
  · rcases hR' with hbelow | hbelow
    · subst hbelow
      rw [sourcePath_append_singleton hs] at hs'
      cases hs'
    · rw [List.append_cancel_right hbelow]

theorem PairedWith.mono {tree tree' : Tree κ γ} {p s : Folder} (h : PairedWith tree p s)
    (hdirs : ∀ q, tree'.isDir q = tree.isDir q)
    (hfiles : ∀ q, tree.isFile q = true → tree'.isFile q = true) : PairedWith tree' p s := by
  obtain ⟨d, n, project, below, hfile, hpair, rfl, rfl⟩ := h
  refine ⟨d, n, project, below, hfiles _ hfile, hpair, rfl, ?_⟩
  rw [landing_targetPath, landing_targetPath, hdirs]

/-- A target is not in `unit_test_mocks`: it would have a mocks folder on its
way there. -/
theorem targetPath_ne_of_commonIsNoProject {tree : Tree κ γ} (hcommon : CommonIsNoProject tree)
    {project below : Folder} {n : Name .backslash}
    (hparent : tree.isDir (targetPath project below n).dropLast = true) (q : Folder) :
    targetPath project below n ≠ unitTestMocks :: q := by
  intro heq
  cases project with
  | nil => exact absurd (List.cons.inj heq).1 (by decide)
  | cons m project =>
      have hm : m = unitTestMocks := (List.cons.inj heq).1
      subst hm
      rw [dropLast_targetPath] at hparent
      exact not_free_mocks project below (hcommon _ hparent)

namespace Config

/-- The files the script has left to go through are files of the folder it is
in. -/
def Listed (cfg : Config κ γ) : Prop :=
  ∀ n ∈ cfg.files, cfg.disk.tree.isFile (cfg.root ++ [n]) = true

section steps

variable [Ring κ] [LinearOrder κ] [FloorRing κ] {env : Environment κ}
  {w : Walk (Name .backslash)} {cfg cfg' : Config κ γ}

/-- The next step copies into a folder that has the target's name, onto a file
in it that is not older than the source and differs from it. -/
def LandsOnNewer (env : Environment κ) (cfg : Config κ γ) : Prop :=
  cfg.raised = none ∧ ∃ n project below time content mtime content₁ mtime₁ log,
    cfg.files.head? = some n ∧ cfg.Bound ∧ pairing cfg.root = .paired project below ∧
      cfg.disk.tree.stat (targetPath project below n) = some (.dir time) ∧
      cfg.disk.tree.stat (sourcePath below n) = some (.file content mtime) ∧
      Agreed env cfg n (.dir time) (.file content mtime) log ∧
      cfg.disk.tree.stat (targetPath project (below ++ [n]) n) =
        some (.file content₁ mtime₁) ∧
      mtime ≤ mtime₁ ∧ Node.file content₁ mtime₁ ≠ .file content mtime

theorem Step.listed (hstep : Step env w cfg cfg') (hmatched : cfg.Matched)
    (h : cfg.Listed) : cfg'.Listed := by
  have hkept : ∀ q, cfg.disk.tree.isFile q = true → cfg'.disk.tree.isFile q = true :=
    fun q hq => hstep.isFile hmatched hq
  cases hstep with
  | ended => exact h
  | @entered d folders =>
      intro n hn
      by_cases hpos : found (walkRoot d) > 0
      · simp only [enter, if_pos hpos] at hn
        exact FileTree.mem_fileNames.mp (Walk.mem_arrange.mp hn)
      · simp only [enter, if_neg hpos] at hn
        exact absurd hn List.not_mem_nil
  | processed _ hfiles hbody =>
      intro n hn
      rw [hbody.files_eq] at hn
      rw [hbody.root_eq]
      exact hkept _ (h n (hfiles ▸ List.mem_cons_of_mem _ hn))

/-- The user accepted, or the target was older. -/
theorem Agreed.consented {n : Name .backslash} {project below : Folder} {t s : Node κ γ}
    {log : List LogEntry} (h : Agreed env cfg n t s log)
    (hpair : pairing cfg.root = .paired project below) :
    roundHalfEven t.mtime < roundHalfEven s.mtime ∨
      Consented log (targetPath project below n) := by
  cases h with
  | older hlt => exact .inl hlt
  | @accepted yn _ _ hyes =>
      refine .inr ⟨yn, (accepts_iff yn).mp hyes, ?_⟩
      rw [targetOf, target_of_paired hpair, List.append_assoc]
      exact (List.suffix_append cfg.log _).isInfix

end steps

end Config

/-! ## What is safe stays safe -/

section safe

variable [Ring κ] [LinearOrder κ] [FloorRing κ] {env : Environment κ}
  {w : Walk (Name .backslash)} {disk : Disk κ γ} {cfg cfg' : Config κ γ}

omit [Ring κ] [FloorRing κ] in
theorem safe_start (w : Walk (Name .backslash)) (disk : Disk κ γ) :
    Safe disk.tree (Config.start w disk) where
  changed _ _ _ hnow hbefore := absurd hnow hbefore
  kept _ h := h
  common _ _ := rfl

omit [Ring κ] [FloorRing κ] in
/-- A source file is what it was at the start. -/
theorem Safe.source (h : Safe disk.tree cfg) (hfollows : Config.Follows disk cfg)
    {below : Folder} {n : Name .backslash} {content : γ} {mtime : κ}
    (hstat : cfg.disk.tree.stat (sourcePath below n) = some (.file content mtime)) :
    disk.tree.stat (sourcePath below n) = some (.file content mtime) := by
  have hfile : disk.tree.isDir (sourcePath below n) = false := by
    rw [← hfollows.isDir]
    exact FileTree.isDir_of_stat_file hstat
  exact (h.common _ hfile).symm.trans hstat

/-- A written file that was not older than the source, and is not the same, was
written with consent, now or before. -/
theorem Safe.consented [IsStrictOrderedRing κ] (h : Safe disk.tree cfg)
    (hfollows : Config.Follows disk cfg) (hguard : ¬ Config.LandsOnNewer env cfg)
    {project below R : Folder} {n : Name .backslash} {t : Node κ γ} {content c₀ : γ}
    {mtime m₀ : κ} (hcopied : Config.Copied env cfg cfg' project below n t content mtime)
    (hlog : cfg.log <+: cfg'.log)
    (hR : R = below ∧ t.isDir = false ∨ R = below ++ [n] ∧ t.isDir = true)
    (hpaired : PairedWith cfg.disk.tree (targetPath project R n) (sourcePath below n))
    (hstart : disk.tree.stat (targetPath project R n) = some (.file c₀ m₀))
    (hnewer : mtime ≤ m₀) (hne : Node.file c₀ m₀ ≠ .file content mtime) :
    Consented cfg'.log (targetPath project R n) := by
  obtain ⟨c₁, m₁, hnow⟩ := FileTree.isFile_iff.mp
    (h.kept _ (FileTree.isFile_iff.mpr ⟨c₀, m₀, hstart⟩))
  by_cases hsame : disk.tree.stat (targetPath project R n) = some (.file c₁ m₁)
  · -- not written so far: the times the script compares are those of the start
    cases hstart.symm.trans hsame
    obtain ⟨log, hagreed, hprefix⟩ := hcopied.agreed
    rcases hR with ⟨rfl, -⟩ | ⟨rfl, hdir⟩
    · have ht : t = .file c₀ m₀ := Option.some.inj (hcopied.target_stat.symm.trans hnow)
      subst ht
      rcases hagreed.consented hcopied.paired with hlt | hconsented
      · -- an older rounded time is an older time, rounding being monotone
        exact absurd (lt_of_roundHalfEven_lt hlt) hnewer.not_gt
      · exact hconsented.mono hprefix
    · cases t with
      | file => cases hdir
      | dir time =>
          exact absurd ⟨hcopied.raised, n, project, below, time, content, mtime, c₀, m₀, log,
            hcopied.files, hcopied.bound, hcopied.paired, hcopied.target_stat,
            hcopied.source_stat, hagreed, hnow, hnewer, hne⟩ hguard
  · -- a file that has changed already is the source's, so consent was given then
    obtain ⟨-, q, hpair, hsource, hconsented⟩ := h.changed _ c₁ m₁ hnow hsame
    have hstartSource := h.source hfollows hcopied.source_stat
    have hunique := hpaired.unique hpair hstartSource hsource
    rw [← hunique, hstartSource] at hsource
    cases hsource
    exact (hconsented c₀ m₀ hstart hnewer).mono hlog

/-- The folder of a target is one the script goes through. -/
theorem found_targetPath (project below : Folder) (n : Name .backslash) :
    found (walkRoot (targetPath project below n).dropLast) > 0 := by
  rw [found_pos_iff, dropLast_targetPath]
  exact not_free_mocks project below

/-- What is on the disk in `unit_test_mocks`, folders apart, is what was there. -/
def KeepsCommon (tree : Tree κ γ) (cfg : Config κ γ) : Prop :=
  ∀ q, tree.isDir (unitTestMocks :: q) = false →
    cfg.disk.tree.stat (unitTestMocks :: q) = tree.stat (unitTestMocks :: q)

theorem KeepsCommon.step (hcommon : CommonIsNoProject disk.tree)
    (hstep : Config.Step env w cfg cfg') (hfollows : Config.Follows disk cfg)
    (h : KeepsCommon disk.tree cfg) : KeepsCommon disk.tree cfg' := by
  have hfollows' := hfollows.step hstep
  intro q hq
  rcases hstep.tree hfollows.matched with
    hsame | ⟨-, project, below, n, t, content, mtime, hcopied⟩
  · rw [hsame]
    exact h q hq
  · obtain ⟨R, -, -, hwritten, -, hframe⟩ := hcopied.written
    have hparent : disk.tree.isDir (targetPath project R n).dropLast = true := by
      rw [← hfollows'.isDir]
      exact FileTree.isDir_dropLast (by rw [hwritten]; rfl)
    have hne := targetPath_ne_of_commonIsNoProject hcommon hparent q
    rw [hframe _ hne.symm (by rw [hfollows.isDir]; exact hq)]
    exact h q hq

/-- No step writes to `unit_test_mocks`. -/
theorem keepsCommon_run (env : Environment κ) (w : Walk (Name .backslash))
    (hcommon : CommonIsNoProject disk.tree) (k : Nat) :
    KeepsCommon disk.tree (Config.run env w disk k) :=
  Config.run_invariant (fun _ _ hstep hfollows h => h.step hcommon hstep hfollows)
    (fun _ _ => rfl) k

theorem Safe.step [IsStrictOrderedRing κ] (hcommon : CommonIsNoProject disk.tree)
    (hstep : Config.Step env w cfg cfg') (hguard : ¬ Config.LandsOnNewer env cfg)
    (hfollows : Config.Follows disk cfg) (hlisted : cfg.Listed) (h : Safe disk.tree cfg) :
    Safe disk.tree cfg' := by
  refine ⟨fun p c m hnow hbefore => ?_, (hfollows.step hstep).isFile,
    KeepsCommon.step hcommon hstep hfollows h.common⟩
  rcases hstep.tree hfollows.matched with
    hsame | ⟨-, project, below, n, t, content, mtime, hcopied⟩
  · rw [hsame] at hnow
    obtain ⟨hfound, q, hpair, hsource, hconsented⟩ := h.changed p c m hnow hbefore
    rw [hsame]
    exact ⟨hfound, q, hpair, hsource, fun c₀ m₀ hstart hnewer =>
      (hconsented c₀ m₀ hstart hnewer).mono hstep.log_prefix⟩
  · obtain ⟨R, hR, -, hwritten, hdirs, hframe⟩ := hcopied.written
    have hkept : ∀ q, cfg.disk.tree.isFile q = true → cfg'.disk.tree.isFile q = true :=
      fun q hq => hstep.isFile hfollows.matched hq
    have hpaired : PairedWith cfg.disk.tree (targetPath project R n) (sourcePath below n) := by
      refine ⟨cfg.root, n, project, below, hlisted n ?_, hcopied.paired, rfl, ?_⟩
      · exact List.mem_of_mem_head? hcopied.files
      · have hkind : cfg.disk.tree.isDir (targetPath project below n) = t.isDir := by
          rw [FileTree.isDir, hcopied.target_stat, Option.any_some]
        rw [landing_targetPath, hkind]
        rcases hR with ⟨rfl, ht⟩ | ⟨rfl, ht⟩ <;> rw [ht] <;> rfl
    by_cases hp : p = targetPath project R n
    · subst hp
      cases hnow.symm.trans hwritten
      refine ⟨found_targetPath project R n, below ++ [n], hpaired.mono hdirs hkept,
        h.source hfollows hcopied.source_stat, fun c₀ m₀ hstart hnewer => ?_⟩
      exact h.consented hfollows hguard hcopied hstep.log_prefix hR hpaired hstart hnewer
        fun heq => hbefore (hstart.trans (congrArg some heq))
    · rw [hframe p hp (hdirs p ▸ FileTree.isDir_of_stat_file hnow)] at hnow
      obtain ⟨hfound, q, hpair, hsource, hconsented⟩ := h.changed p c m hnow hbefore
      exact ⟨hfound, q, hpair.mono hdirs hkept, hsource, fun c₀ m₀ hstart hnewer =>
        (hconsented c₀ m₀ hstart hnewer).mono hstep.log_prefix⟩

/-- A run none of whose steps lands on a newer file is safe at every point: each
changed file is below a matched folder and is its paired source file, no file of
`unit_test_mocks` has changed, and no file at least as new as the source has
changed without the user's consent. -/
theorem safe_run [IsStrictOrderedRing κ] (hcommon : CommonIsNoProject disk.tree) (k : Nat)
    (hguard : ∀ j < k, ¬ Config.LandsOnNewer env (Config.run env w disk j)) :
    Safe disk.tree (Config.run env w disk k) := by
  have hstep : ∀ cfg cfg', Config.Step env w cfg cfg' → Config.Follows disk cfg →
      ¬ Config.LandsOnNewer env cfg → cfg.Listed ∧ Safe disk.tree cfg →
        cfg'.Listed ∧ Safe disk.tree cfg' :=
    fun cfg cfg' hstep hfollows hnot ⟨hlisted, hsafe⟩ =>
      ⟨hstep.listed hfollows.matched hlisted,
        hsafe.step hcommon hstep hnot hfollows hlisted⟩
  have hinit : (Config.start w disk).Listed ∧ Safe disk.tree (Config.start w disk) :=
    ⟨fun _ hn => absurd hn List.not_mem_nil, safe_start w disk⟩
  exact (Config.run_invariant_of_guard hstep hinit k hguard).2

end safe

/-! ## A folder in the place of a mock -/

/-- It is enough to look at the paths the tree has. -/
theorem commonIsNoProject_of_all {tree : Tree κ γ}
    (h : (tree.nodes.keys.all fun p =>
      p.head? ≠ some unitTestMocks || !tree.isDir p || decide (Free p.tail)) = true) :
    CommonIsNoProject tree := by
  intro q hdir
  have hmem : unitTestMocks :: q ∈ tree.nodes.keys :=
    AList.lookup_isSome.mp (FileTree.isSome_of_isDir hdir)
  have hq := List.all_eq_true.mp h _ hmem
  rw [hdir] at hq
  simp only [List.head?_cons, ne_eq, not_true, decide_false, Bool.not_true, Bool.false_or,
    List.tail_cons] at hq
  exact of_decide_eq_true hq

/-- A run in which the user lets an edited copy be overwritten. -/
theorem safe_run_accepted :
    Safe (oneProject 1 100 2 200).tree
      (Config.run acceptAll oneProjectWalk (oneProject 1 100 2 200) 5) := by
  refine safe_run (commonIsNoProject_of_all (by decide)) 5 fun j hj hlands => ?_
  obtain ⟨-, n, project, below, time, content, mtime, c, m, log, hfiles, -, hpair, htarget, -⟩ :=
    hlands
  have hentering : ∀ j < 4,
      (Config.run acceptAll oneProjectWalk (oneProject 1 100 2 200) j).files = [] := by decide
  obtain hj | rfl : j < 4 ∨ j = 4 := by omega
  · rw [hentering j hj] at hfiles
    cases hfiles
  · have hhead : (Config.run acceptAll oneProjectWalk (oneProject 1 100 2 200) 4).files.head? =
        some header := by decide
    have hroot : pairing (Config.run acceptAll oneProjectWalk
        (oneProject 1 100 2 200) 4).root = .paired [unitTest] [] := by decide
    have hstat : (Config.run acceptAll oneProjectWalk
        (oneProject 1 100 2 200) 4).disk.tree.stat (targetPath [unitTest] [] header) =
          some (.file 2 200) := by decide
    cases hhead.symm.trans hfiles
    cases hroot.symm.trans hpair
    cases hstat.symm.trans htarget

/-- A folder beside `mocks`. -/
def mocks2 : Name .backslash := ⟨"mocks2".toList, by decide⟩

/-- The project has a mock in `mocks2`, and a folder of its name in `mocks` with
a newer file of that name in it. -/
def folderInPlace : Disk ℤ ℤ where
  tree :=
    { nodes := List.toAList
        [⟨[], .dir 0⟩, ⟨[unitTestMocks], .dir 0⟩, ⟨commonCopy header, .file 1 10⟩,
          ⟨[unitTest], .dir 0⟩, ⟨[unitTest, mocks2], .dir 0⟩,
          ⟨[unitTest, mocks2, header], .file 3 0⟩, ⟨[unitTest, mocksName], .dir 0⟩,
          ⟨[unitTest, mocksName, header], .dir 5⟩,
          ⟨[unitTest, mocksName, header, header], .file 2 20⟩]
      root_isDir := rfl
      parent_isDir := List.all_eq_true.mp rfl }
  elsewhere _ := none

/-- An order in which `os.walk` can go through it. -/
def folderInPlaceWalk : Walk (Name .backslash) :=
  .inOrder [[], [unitTestMocks], [unitTest], [unitTest, mocks2], [unitTest, mocksName],
    [unitTest, mocksName, header]]

/-- The target is an older folder, so nothing is asked; the copy replaces the
newer file in it. -/
theorem newer_file_in_folder_overwritten :
    CommonIsNoProject folderInPlace.tree ∧
      folderInPlaceWalk.Enumerates folderInPlace.tree ∧
      folderInPlace.tree.stat [unitTest, mocksName, header, header] = some (.file 2 20) ∧
      (Config.run acceptAll folderInPlaceWalk folderInPlace 5).disk.tree.stat
        [unitTest, mocksName, header, header] = some (.file 1 10) ∧
      ¬ Safe folderInPlace.tree (Config.run acceptAll folderInPlaceWalk folderInPlace 5) := by
  have hbefore : folderInPlace.tree.stat [unitTest, mocksName, header, header] =
      some (.file 2 20) := by decide
  have hnow : (Config.run acceptAll folderInPlaceWalk folderInPlace 5).disk.tree.stat
      [unitTest, mocksName, header, header] = some (.file 1 10) := by decide
  refine ⟨commonIsNoProject_of_all (by decide),
    ⟨rfl, by decide, Walk.mem_folders_iff rfl rfl, by decide⟩, hbefore, hnow, fun hsafe => ?_⟩
  obtain ⟨-, -, -, -, hconsented⟩ := hsafe.changed _ 1 10 hnow (by rw [hbefore]; decide)
  obtain ⟨yn, -, hasked⟩ := hconsented 2 20 hbefore (by decide)
  have hlog : (Config.run acceptAll folderInPlaceWalk folderInPlace 5).log.length = 1 := by
    decide
  have hlength := hasked.length_le
  simp [hlog] at hlength

end TraceRecorderTests.Update
