import TraceRecorderTests.Update.Run

/-!
# Runs in which the user accepts everything

The files of a project's `mocks` folder. No step ever writes a file directly in
`unit_test_mocks` (`Step.stat_commonCopy`), and a step that writes a project's copy
writes the common one (`Step.projectCopy`). A copy is written when the rounded times
differ, and only then: two copies with the same rounded time stay as they are,
whatever they contain.
-/

namespace TraceRecorderTests.Update

open TraceRecorderTests.Base

variable {κ γ : Type*}

/-- The common copy of a mock. -/
def commonCopy (m : Name .backslash) : Folder := sourcePath [] m

/-- A project's copy of a mock. -/
def projectCopy (project : Folder) (m : Name .backslash) : Folder := targetPath project [] m

/-- The common copy of a mock is no target: a target has a `mocks` folder on its
way. -/
theorem targetPath_ne_commonCopy (project below : Folder) (n m : Name .backslash) :
    targetPath project below n ≠ commonCopy m := by
  intro heq
  have hlength := congrArg List.length heq
  simp only [targetPath, commonCopy, sourcePath, List.length_append, List.length_cons,
    List.length_nil] at hlength
  have hproject : project = [] := List.eq_nil_of_length_eq_zero (by omega)
  subst hproject
  have hname : mocksName = unitTestMocks := (List.cons.inj heq).1
  exact absurd hname (by decide)

namespace Config

variable [Ring κ] [LinearOrder κ] [FloorRing κ] {env : Environment κ}
  {w : Walk (Name .backslash)} {disk : Disk κ γ} {cfg cfg' : Config κ γ}

/-- What is directly in `unit_test_mocks`, and no folder, stays as it is; nothing new
appears there. -/
theorem Step.stat_commonCopy (hstep : Step env w cfg cfg') (hmatched : cfg.Matched)
    {m : Name .backslash} (h : cfg.disk.tree.isDir (commonCopy m) = false) :
    cfg'.disk.tree.stat (commonCopy m) = cfg.disk.tree.stat (commonCopy m) := by
  rcases hstep.tree hmatched with hsame | ⟨-, project, below, n, t, content, mtime, hcopied⟩
  · rw [hsame]
  · obtain ⟨R, -, -, -, -, hframe⟩ := hcopied.written
    exact hframe _ (targetPath_ne_commonCopy project R n m).symm h

/-- The common copy stays as it is. -/
theorem Step.common (hstep : Step env w cfg cfg') (hmatched : cfg.Matched)
    {m : Name .backslash} {c : γ} {time : κ}
    (h : cfg.disk.tree.stat (commonCopy m) = some (.file c time)) :
    cfg'.disk.tree.stat (commonCopy m) = some (.file c time) := by
  rw [hstep.stat_commonCopy hmatched (FileTree.isDir_of_stat_file h), h]

theorem stat_commonCopy_run (env : Environment κ) (w : Walk (Name .backslash))
    {m : Name .backslash} (h : disk.tree.isDir (commonCopy m) = false) (k : Nat) :
    (run env w disk k).disk.tree.stat (commonCopy m) = disk.tree.stat (commonCopy m) := by
  refine run_invariant
    (fun cfg cfg' hstep hfollows (hkept : cfg.disk.tree.stat (commonCopy m) = _) => ?_) rfl k
  have hfile : cfg.disk.tree.isDir (commonCopy m) = false := by
    rw [FileTree.isDir, hkept]
    exact h
  exact (hstep.stat_commonCopy hfollows.matched hfile).trans hkept

theorem common_run (env : Environment κ) (w : Walk (Name .backslash)) {m : Name .backslash}
    {c : γ} {time : κ}
    (h : disk.tree.stat (commonCopy m) = some (.file c time)) (k : Nat) :
    (run env w disk k).disk.tree.stat (commonCopy m) = some (.file c time) := by
  rw [stat_commonCopy_run env w (FileTree.isDir_of_stat_file h), h]

/-- A project's copy stays as it is, or becomes the common one; the latter only
if their rounded times differ. -/
theorem Step.projectCopy (hstep : Step env w cfg cfg') (hmatched : cfg.Matched)
    {project : Folder} (hproject : Free project) {m : Name .backslash} {c : γ} {time : κ}
    (h : cfg.disk.tree.stat (projectCopy project m) = some (.file c time)) :
    cfg'.disk.tree.stat (Update.projectCopy project m) = some (.file c time) ∨
      ∃ c' time', cfg.disk.tree.stat (commonCopy m) = some (.file c' time') ∧
        cfg'.disk.tree.stat (Update.projectCopy project m) = some (.file c' time') ∧
        roundHalfEven time ≠ roundHalfEven time' := by
  rcases hstep.tree hmatched with hsame | ⟨-, other, below, n, t, content, mtime, hcopied⟩
  · exact .inl (by rw [hsame, h])
  · obtain ⟨R, hR, -, hwritten, -, hframe⟩ := hcopied.written
    by_cases hhere : Update.projectCopy project m = targetPath other R n
    · have hother := free_project hcopied.paired
      obtain ⟨rfl, hnil, rfl⟩ := targetPath_inj hproject hother hhere
      rcases hR with ⟨rfl, -⟩ | ⟨rfl, -⟩
      · subst hnil
        have ht : t = .file c time := Option.some.inj (hcopied.target_stat.symm.trans h)
        subst ht
        refine .inr ⟨content, mtime, hcopied.source_stat, hwritten, ?_⟩
        obtain ⟨log, hagreed, -⟩ := hcopied.agreed
        cases hagreed with
        | older hlt => exact hlt.ne
        | accepted hgt => exact hgt.ne'
      · -- what lands inside a folder is deeper than a project's copy
        exact absurd hnil.symm (List.concat_ne_nil _ _)
    · exact .inl (by rw [hframe _ hhere (FileTree.isDir_of_stat_file h), h])

section copies

variable {project : Folder} {m : Name .backslash} {c c' : γ} {time time' : κ}

/-- The common copy is this file, and the project's copy is what it was, or is
the common one, which it became because the times differed. -/
def KeptOrTaken (cfg : Config κ γ) (project : Folder) (m : Name .backslash) (c : γ) (time : κ)
    (c' : γ) (time' : κ) : Prop :=
  cfg.disk.tree.stat (commonCopy m) = some (.file c' time') ∧
    (cfg.disk.tree.stat (Update.projectCopy project m) = some (.file c time) ∨
      cfg.disk.tree.stat (Update.projectCopy project m) = some (.file c' time') ∧
        roundHalfEven time ≠ roundHalfEven time')

theorem Step.keptOrTaken (hstep : Step env w cfg cfg') (hmatched : cfg.Matched)
    (hproject : Free project) (h : cfg.KeptOrTaken project m c time c' time') :
    cfg'.KeptOrTaken project m c time c' time' := by
  obtain ⟨hcommon, hcopy⟩ := h
  refine ⟨hstep.common hmatched hcommon, ?_⟩
  rcases hcopy with hsame | ⟨htaken, hdiffer⟩
  · rcases hstep.projectCopy hmatched hproject hsame with hstill | ⟨c₂, t₂, hc, hnow, hne⟩
    · exact .inl hstill
    · cases hcommon.symm.trans hc
      exact .inr ⟨hnow, hne⟩
  · rcases hstep.projectCopy hmatched hproject htaken with hstill | ⟨c₂, t₂, hc, hnow, -⟩
    · exact .inr ⟨hstill, hdiffer⟩
    · cases hcommon.symm.trans hc
      exact .inr ⟨hnow, hdiffer⟩

theorem keptOrTaken_run (env : Environment κ) (w : Walk (Name .backslash))
    (hproject : Free project)
    (hcopy : disk.tree.stat (projectCopy project m) = some (.file c time))
    (hcommon : disk.tree.stat (commonCopy m) = some (.file c' time')) (k : Nat) :
    (run env w disk k).KeptOrTaken project m c time c' time' :=
  run_invariant (fun _ _ hstep hfollows h => hstep.keptOrTaken hfollows.matched hproject h)
    ⟨hcommon, .inl hcopy⟩ k

/-- The project's copy has the rounded time of the common one. -/
def SameTime (cfg : Config κ γ) (project : Folder) (m : Name .backslash) (time' : κ) : Prop :=
  ∃ c time, cfg.disk.tree.stat (Update.projectCopy project m) = some (.file c time) ∧
    roundHalfEven time = roundHalfEven time'

theorem Step.sameTime (hstep : Step env w cfg cfg') (hmatched : cfg.Matched)
    (hproject : Free project)
    (hcommon : cfg.disk.tree.stat (commonCopy m) = some (.file c' time'))
    (h : cfg.SameTime project m time') : cfg'.SameTime project m time' := by
  obtain ⟨c, time, hstat, hround⟩ := h
  rcases hstep.projectCopy hmatched hproject hstat with hstill | ⟨c₂, t₂, hc, hnow, -⟩
  · exact ⟨c, time, hstill, hround⟩
  · rw [hcommon] at hc
    cases hc
    exact ⟨c', time', hnow, rfl⟩

/-- The loop body leaves a copy with the rounded time of the common one, unless
it raises or the user declines. -/
theorem Visits.sameTime (hvisits : cfg.Visits (project ++ [mocksName]) m)
    (hproject : Free project) (hyes : ∀ log, env.answer log = some ['y'])
    (hcopy : cfg.disk.tree.stat (Update.projectCopy project m) = some (.file c time))
    (hcommon : cfg.disk.tree.stat (commonCopy m) = some (.file c' time'))
    (hraised : (cfg.step env w).raised = none) :
    (cfg.step env w).SameTime project m time' := by
  have hpair : pairing cfg.root = .paired project [] := by
    rw [hvisits.root]
    exact pairing_mocks hproject []
  obtain ⟨files, hbody⟩ := hvisits.fileStep env w
  generalize cfg.step env w = cfg' at hbody hraised ⊢
  have hbefore : cfg'.disk = cfg.disk → cfg.SameTime project m time' →
      cfg'.SameTime project m time' := by
    intro hdisk hsame
    rw [SameTime, hdisk]
    exact hsame
  cases hbody with
  | unbound => cases hraised
  | missing => cases hraised
  | eof => cases hraised
  | failed => cases hraised
  | declined _ _ hanswer hno =>
      rw [hyes] at hanswer
      cases hanswer
      exact absurd (by decide) hno
  | @sameTime t s hcompared hround =>
      have htarget := hcompared.target_stat
      have hsource := hcompared.source_stat
      rw [stat_targetOf { cfg with files := files } m hpair] at htarget
      rw [stat_sourceOf { cfg with files := files } m hpair] at hsource
      cases htarget.symm.trans hcopy
      cases hsource.symm.trans hcommon
      exact hbefore rfl ⟨c, time, hcopy, hround⟩
  | @copied t s log disk hcompared hagreed hdisk =>
      have hnot : ¬ Free cfg.root := hvisits.root ▸ not_free_mocks project []
      obtain ⟨-, project₂, below₂, hpair₂, hcopied⟩ := copy2_spec hdisk hnot
      cases hpair₂.symm.trans hpair
      obtain ⟨content, mtime, hsource, hwrite⟩ := FileTree.copy2_spec hcopied
      cases hsource.symm.trans hcommon
      have hfile : cfg.disk.tree.isDir (targetPath project [] m) = false :=
        FileTree.isDir_of_stat_file hcopy
      rw [FileTree.landing_of_not_isDir hfile] at hwrite
      exact ⟨c', time', (FileTree.write_spec hwrite).2.1, rfl⟩

/-- What a run in which the user accepts everything makes of a project's copy. -/
theorem accepted_run (hw : w.Enumerates disk.tree)
    (hyes : ∀ log, env.answer log = some ['y']) (hproject : Free project)
    (hcopy : disk.tree.stat (projectCopy project m) = some (.file c time))
    (hcommon : disk.tree.stat (commonCopy m) = some (.file c' time')) {k : Nat}
    (hdone : (run env w disk k).Completed) :
    (run env w disk k).disk.tree.stat (projectCopy project m) =
      some (if roundHalfEven time = roundHalfEven time' then .file c time
        else .file c' time') := by
  have hmatched : ¬ Free (project ++ [mocksName]) := not_free_mocks project []
  have hfile : disk.tree.isFile (project ++ [mocksName] ++ [m]) = true := by
    rw [List.append_assoc]
    exact FileTree.isFile_iff.mpr ⟨c, time, hcopy⟩
  obtain ⟨j, hjk, hvisits⟩ := exists_visit hw hmatched hfile hdone
  -- after its turn the copy has the time of the common one, and keeps it
  have hturn : (run env w disk (j + 1)).SameTime project m time' := by
    have hraised := raised_eq_none_of_le hjk hdone.raised
    rw [run_succ] at hraised ⊢
    obtain ⟨hsource, hcopy⟩ := keptOrTaken_run env w hproject hcopy hcommon j
    rcases hcopy with hstat | ⟨hstat, -⟩
    · exact hvisits.sameTime hproject hyes hstat hsource hraised
    · exact hvisits.sameTime hproject hyes hstat hsource hraised
  have hkeeps : ∀ i, (run env w disk (j + 1 + i)).SameTime project m time' := by
    intro i
    induction i with
    | zero => exact hturn
    | succ i ih =>
        exact (step_run env w disk (j + 1 + i)).sameTime (follows_run env w disk _).matched hproject
          (common_run env w hcommon _) ih
  obtain ⟨i, rfl⟩ := Nat.exists_eq_add_of_le (Nat.succ_le_of_lt hjk)
  obtain ⟨c₂, t₂, hstat, hround⟩ := hkeeps i
  rcases (keptOrTaken_run env w hproject hcopy hcommon (j + 1 + i)).2 with
    hsame | ⟨htaken, hdiffer⟩
  · cases hstat.symm.trans hsame
    rw [hsame, if_pos hround]
  · rw [htaken, if_neg hdiffer]

end copies

end Config

/-! ## Agreement with the common mocks -/

/-- Every file in a project's `mocks` folder has a same-named file in
`unit_test_mocks`. -/
def CounterpartsExist (tree : Tree κ γ) : Prop :=
  ∀ project m, Free project → tree.isFile (projectCopy project m) = true →
    tree.isFile (commonCopy m) = true

/-- It is enough to look at the paths the tree has. -/
theorem counterpartsExist_of_all {tree : Tree κ γ}
    (h : (tree.nodes.keys.all fun p =>
      p.getLast?.all fun m => !tree.isFile p || tree.isFile (commonCopy m)) = true) :
    CounterpartsExist tree := by
  intro project m _ hfile
  obtain ⟨c, time, hstat⟩ := FileTree.isFile_iff.mp hfile
  have hmem : projectCopy project m ∈ tree.nodes.keys :=
    FileTree.mem_keys_of_stat hstat
  have hlast : (projectCopy project m).getLast? = some m := getLast?_targetPath project [] m
  have hm := List.all_eq_true.mp h _ hmem
  rw [hlast, Option.all_some, hfile] at hm
  simpa using hm

section agreement

variable [Ring κ] [LinearOrder κ] [FloorRing κ] {env : Environment κ}
  {w : Walk (Name .backslash)} {disk : Disk κ γ}

/-- A completed run in which the user answers `y` to every prompt. No file directly in
`unit_test_mocks` has changed, gone or appeared; and each project mock ends as its
counterpart, content and time, if their rounded times differed at the start, and as
it was if they did not. -/
theorem accepted_run_agrees_by_time (hw : w.Enumerates disk.tree)
    (hcounterparts : CounterpartsExist disk.tree)
    (hyes : ∀ log, env.answer log = some ['y']) {k : Nat}
    (hdone : (Config.run env w disk k).Completed) :
    (∀ m, disk.tree.isDir (commonCopy m) = false →
      (Config.run env w disk k).disk.tree.stat (commonCopy m) =
        disk.tree.stat (commonCopy m)) ∧
    ∀ project m c time, Free project →
      disk.tree.stat (projectCopy project m) = some (.file c time) →
      ∃ c' time', disk.tree.stat (commonCopy m) = some (.file c' time') ∧
        (Config.run env w disk k).disk.tree.stat (projectCopy project m) =
          some (if roundHalfEven time = roundHalfEven time' then .file c time
            else .file c' time') := by
  constructor
  · intro m hfile
    exact Config.stat_commonCopy_run env w hfile k
  · intro project m c time hproject hcopy
    obtain ⟨c', time', hcommon⟩ := FileTree.isFile_iff.mp
      (hcounterparts project m hproject (FileTree.isFile_iff.mpr ⟨c, time, hcopy⟩))
    exact ⟨c', time', hcommon, Config.accepted_run hw hyes hproject hcopy hcommon hdone⟩

end agreement

/-! ## A tree with one project -/

/-- A user who answers `y` to every prompt. -/
def acceptAll : Environment ℤ := ⟨fun _ => some ['y'], fun _ => 0⟩

/-- The name of a mock. -/
def header : Name .backslash := ⟨"trcEvent.h".toList, by decide⟩

/-- The name of a project. -/
def unitTest : Name .backslash := ⟨"UnitTest_trcEvent".toList, by decide⟩

/-- One mock and one project: content and time of the common copy, and of the
project's. -/
def oneProject (content time content' time' : ℤ) : Disk ℤ ℤ where
  tree :=
    { nodes := List.toAList
        [⟨[], .dir 0⟩, ⟨[unitTestMocks], .dir 0⟩, ⟨commonCopy header, .file content time⟩,
          ⟨[unitTest], .dir 0⟩, ⟨[unitTest, mocksName], .dir 0⟩,
          ⟨projectCopy [unitTest] header, .file content' time'⟩]
      root_isDir := rfl
      parent_isDir := List.all_eq_true.mp rfl }
  elsewhere _ := none

/-- An order in which `os.walk` can go through it. -/
def oneProjectWalk : Walk (Name .backslash) :=
  .inOrder [[], [unitTestMocks], [unitTest], [unitTest, mocksName]]

theorem oneProjectWalk_enumerates (content time content' time' : ℤ) :
    oneProjectWalk.Enumerates (oneProject content time content' time').tree where
  starts_at_root := rfl
  nodup := by decide
  mem_iff := Walk.mem_folders_iff rfl rfl
  preorder := by decide

theorem oneProject_counterpartsExist (content time content' time' : ℤ) :
    CounterpartsExist (oneProject content time content' time').tree :=
  counterpartsExist_of_all rfl

/-- An older copy is brought up to date, and the common one is what it was. -/
theorem accepted_run_agrees_by_time_older :
    (Config.run acceptAll oneProjectWalk (oneProject 1 100 2 50) 5).disk.tree.stat
        (projectCopy [unitTest] header) = some (.file 1 100) ∧
      (Config.run acceptAll oneProjectWalk (oneProject 1 100 2 50) 5).disk.tree.stat
        (commonCopy header) = some (.file 1 100) := by
  have hyes : ∀ log, acceptAll.answer log = some ['y'] := fun _ => rfl
  have hdone : (Config.run acceptAll oneProjectWalk (oneProject 1 100 2 50) 5).Completed :=
    by decide
  have hold : (oneProject 1 100 2 50).tree.stat (projectCopy [unitTest] header) =
      some (.file 2 50) := by decide
  have hstat : (oneProject 1 100 2 50).tree.stat (commonCopy header) =
      some (.file 1 100) := by decide
  obtain ⟨hkept, hagrees⟩ :=
    accepted_run_agrees_by_time (oneProjectWalk_enumerates 1 100 2 50)
      (oneProject_counterpartsExist 1 100 2 50) hyes hdone
  constructor
  · obtain ⟨c', time', hcommon, hcopy⟩ := hagrees [unitTest] header 2 50 (by decide) hold
    cases hstat.symm.trans hcommon
    rw [hcopy]
    decide
  · exact (hkept header (FileTree.isDir_of_stat_file hstat)).trans hstat

/-- Equal times and different contents: nothing is copied, and the contents
still differ when the run is complete. -/
theorem equal_times_keep_contents_apart :
    oneProjectWalk.Enumerates (oneProject 1 100 2 100).tree ∧
      CounterpartsExist (oneProject 1 100 2 100).tree ∧
      (∀ log, acceptAll.answer log = some ['y']) ∧
      (Config.run acceptAll oneProjectWalk (oneProject 1 100 2 100) 5).Completed ∧
      (Config.run acceptAll oneProjectWalk (oneProject 1 100 2 100) 5).disk.tree.stat
        (projectCopy [unitTest] header) = some (.file 2 100) ∧
      (Config.run acceptAll oneProjectWalk (oneProject 1 100 2 100) 5).disk.tree.stat
        (commonCopy header) = some (.file 1 100) :=
  ⟨oneProjectWalk_enumerates 1 100 2 100, oneProject_counterpartsExist 1 100 2 100,
    fun _ => rfl, by decide, by decide, by decide⟩

end TraceRecorderTests.Update
