import TraceRecorderTests.Update.Accepted

/-!
# An edit of a project's mock

The script copies from `unit_test_mocks` to the projects and never back. So the
edit of a project's copy does not spread: the common copy keeps the old content
through any number of runs (`RepeatedRuns.common`), and the first run the user
accepts overwrites the edited copy with it (`edit_is_overwritten`).
-/

namespace TraceRecorderTests.Update

open TraceRecorderTests.Base

variable {κ γ : Type*}

/-- All copies of a mock have the content `old` except this project's, which has
the content `new` and a later rounded time than the common copy. -/
structure EditedLater [Ring κ] [LinearOrder κ] [FloorRing κ] (tree : Tree κ γ)
    (m : Name .backslash) (project : Folder) (old new : γ) : Prop where
  project_free : Free project
  edited : ∃ time time', tree.stat (commonCopy m) = some (.file old time) ∧
    tree.stat (projectCopy project m) = some (.file new time') ∧
    roundHalfEven time < roundHalfEven time'
  others : ∀ q, Free q → q ≠ project → ∀ c time,
    tree.stat (projectCopy q m) = some (.file c time) → c = old

/-- The common copy of a mock and every project's copy have this content. -/
structure HoldsEverywhere (tree : Tree κ γ) (m : Name .backslash) (content : γ) : Prop where
  common : ∃ time, tree.stat (commonCopy m) = some (.file content time)
  projects : ∀ q, Free q → ∀ c time,
    tree.stat (projectCopy q m) = some (.file c time) → c = content

section runs

variable [Ring κ] [LinearOrder κ] [FloorRing κ]

/-- A completed run in which the user answers `y` to every prompt, in some order
of the walk, from one disk to the next, with its log. -/
def AcceptedRun (disk disk' : Disk κ γ) (log : List LogEntry) : Prop :=
  ∃ env w k, w.Enumerates disk.tree ∧ (∀ entries, env.answer entries = some ['y']) ∧
    (Config.run env w disk k).Completed ∧ (Config.run env w disk k).disk = disk' ∧
    (Config.run env w disk k).log = log

/-- Run after run, until one makes no copy. -/
inductive RepeatedRuns : Disk κ γ → Disk κ γ → Prop
  | settled {disk disk' : Disk κ γ} {log : List LogEntry} (hrun : AcceptedRun disk disk' log)
      (hnone : ∀ target, .updating target ∉ log) : RepeatedRuns disk disk'
  | again {disk disk' disk'' : Disk κ γ} {log : List LogEntry}
      (hrun : AcceptedRun disk disk' log) (hcopies : ∃ target, .updating target ∈ log)
      (hrest : RepeatedRuns disk' disk'') : RepeatedRuns disk disk''

/-- What holds of the disk after each run holds after all of them. -/
theorem RepeatedRuns.invariant (Inv : Disk κ γ → Prop)
    (hrun : ∀ env w disk k, Inv disk → Inv (Config.run env w disk k).disk)
    {disk disk' : Disk κ γ} (h : RepeatedRuns disk disk') (hinit : Inv disk) : Inv disk' := by
  induction h with
  | settled hlast =>
      obtain ⟨env, w, k, -, -, -, rfl, -⟩ := hlast
      exact hrun env w _ k hinit
  | again hfirst _ _ ih =>
      obtain ⟨env, w, k, -, -, -, rfl, -⟩ := hfirst
      exact ih (hrun env w _ k hinit)

variable {m : Name .backslash}

/-- The common copy comes through any number of runs. -/
theorem RepeatedRuns.common {disk disk' : Disk κ γ} (h : RepeatedRuns disk disk') {c : γ}
    {time : κ} (hcommon : disk.tree.stat (commonCopy m) = some (.file c time)) :
    disk'.tree.stat (commonCopy m) = some (.file c time) :=
  h.invariant (fun d => d.tree.stat (commonCopy m) = some (.file c time))
    (fun env w _ k hbefore => Config.common_run env w hbefore k) hcommon

/-- A content that all copies have is the only one that can be copied. -/
theorem HoldsEverywhere.step {env : Environment κ} {w : Walk (Name .backslash)}
    {cfg cfg' : Config κ γ} (hstep : Config.Step env w cfg cfg') (hmatched : cfg.Matched)
    {content : γ} (h : HoldsEverywhere cfg.disk.tree m content) :
    HoldsEverywhere cfg'.disk.tree m content := by
  obtain ⟨time, hcommon⟩ := h.common
  refine ⟨⟨time, hstep.common hmatched hcommon⟩, fun q hq c t hstat => ?_⟩
  rcases hstep.tree hmatched with hsame | ⟨-, other, below, n, s, content', mtime, hcopied⟩
  · rw [hsame] at hstat
    exact h.projects q hq c t hstat
  · obtain ⟨R, hR, -, hwritten, hdirs, hframe⟩ := hcopied.written
    by_cases hhere : projectCopy q m = targetPath other R n
    · obtain ⟨rfl, hnil, rfl⟩ := targetPath_inj hq (free_project hcopied.paired) hhere
      rcases hR with ⟨rfl, -⟩ | ⟨rfl, -⟩
      · subst hnil
        cases hcopied.source_stat.symm.trans hcommon
        cases hstat.symm.trans hwritten
        rfl
      · -- what lands inside a folder is deeper than a project's copy
        exact absurd hnil.symm (List.concat_ne_nil _ _)
    · rw [hframe _ hhere (hdirs _ ▸ FileTree.isDir_of_stat_file hstat)] at hstat
      exact h.projects q hq c t hstat

theorem HoldsEverywhere.run (env : Environment κ) (w : Walk (Name .backslash))
    (disk : Disk κ γ) (k : Nat) {content : γ} (h : HoldsEverywhere disk.tree m content) :
    HoldsEverywhere (Config.run env w disk k).disk.tree m content := by
  have hstep : ∀ cfg cfg', Config.Step env w cfg cfg' → Config.Follows disk cfg →
      HoldsEverywhere cfg.disk.tree m content → HoldsEverywhere cfg'.disk.tree m content :=
    fun _ _ hstep hfollows hbefore => hbefore.step hstep hfollows.matched
  exact Config.run_invariant hstep h k

variable {disk disk' : Disk κ γ} {project : Folder} {old new : γ}

/-- A run the user accepts overwrites the edited copy with the common one. -/
theorem edit_is_overwritten {env : Environment κ} {w : Walk (Name .backslash)} {k : Nat}
    (hw : w.Enumerates disk.tree) (hyes : ∀ entries, env.answer entries = some ['y'])
    (hdone : (Config.run env w disk k).Completed)
    (hedit : EditedLater disk.tree m project old new) :
    ∃ time, (Config.run env w disk k).disk.tree.stat (projectCopy project m) =
      some (.file old time) := by
  obtain ⟨time, time', hcommon, hcopy, hlater⟩ := hedit.edited
  refine ⟨time, ?_⟩
  rw [Config.accepted_run hw hyes hedit.project_free hcopy hcommon hdone, if_neg hlater.ne']

/-- After running the script until a run makes no copy, the common copy and all
projects hold the edited content exactly when the edit did not change the
content. -/
theorem edit_holds_everywhere_iff (hedit : EditedLater disk.tree m project old new)
    (hruns : RepeatedRuns disk disk') : HoldsEverywhere disk'.tree m new ↔ new = old := by
  obtain ⟨time, time', hcommon, hcopy, -⟩ := hedit.edited
  constructor
  · intro hnew
    obtain ⟨t, hstat⟩ := hnew.common
    cases (hruns.common hcommon).symm.trans hstat
    rfl
  · rintro rfl
    have hinit : HoldsEverywhere disk.tree m new := by
      refine ⟨⟨time, hcommon⟩, fun q hq c t hstat => ?_⟩
      by_cases hproject : q = project
      · subst hproject
        cases hstat.symm.trans hcopy
        rfl
      · exact hedit.others q hq hproject c t hstat
    exact hruns.invariant (fun d => HoldsEverywhere d.tree m new)
      (fun env w d k h => h.run env w d k) hinit

end runs

/-! ## The edit of one project -/

/-- The common copy, and a later edit in the only project. -/
theorem oneProject_editedLater (content content' : ℤ) :
    EditedLater (oneProject content 100 content' 200).tree header [unitTest] content
      content' where
  project_free := by decide
  edited := ⟨100, 200, rfl, rfl, by decide⟩
  others := by
    intro q hq hne c time hstat
    have hmem : projectCopy q header ∈ (oneProject content 100 content' 200).tree.nodes.keys :=
      FileTree.mem_keys_of_stat hstat
    have hkeys : ((oneProject content 100 content' 200).tree.nodes.keys.all fun p =>
        decide (p.dropLast.getLast? ≠ some mocksName) || p.getLast? ≠ some header ||
          decide (p = projectCopy [unitTest] header)) = true := rfl
    have hhere := List.all_eq_true.mp hkeys _ hmem
    have hparent : (projectCopy q header).dropLast.getLast? = some mocksName := by
      rw [projectCopy, dropLast_targetPath, List.getLast?_concat]
    have hlast : (projectCopy q header).getLast? = some header :=
      getLast?_targetPath q [] header
    rw [hparent, hlast] at hhere
    have heq : projectCopy q header = projectCopy [unitTest] header := by simpa using hhere
    exact absurd (targetPath_inj hq (by decide) heq).1 hne

/-- The disk after the first run. -/
def firstRun : Disk ℤ ℤ := (Config.run acceptAll oneProjectWalk (oneProject 1 100 2 200) 5).disk

/-- The disk after the second run. -/
def secondRun : Disk ℤ ℤ := (Config.run acceptAll oneProjectWalk firstRun 5).disk

/-- The first run copies, the second does not. -/
theorem repeatedRuns_secondRun : RepeatedRuns (oneProject 1 100 2 200) secondRun := by
  have hfirst : AcceptedRun (oneProject 1 100 2 200) firstRun
      (Config.run acceptAll oneProjectWalk (oneProject 1 100 2 200) 5).log :=
    ⟨acceptAll, oneProjectWalk, 5, oneProjectWalk_enumerates 1 100 2 200, fun _ => rfl,
      by decide, rfl, rfl⟩
  have hwalk : oneProjectWalk.Enumerates firstRun.tree :=
    (oneProjectWalk_enumerates 1 100 2 200).congr (Config.follows_run _ _ _ 5).isDir
  have hsecond : AcceptedRun firstRun secondRun
      (Config.run acceptAll oneProjectWalk firstRun 5).log :=
    ⟨acceptAll, oneProjectWalk, 5, hwalk, fun _ => rfl,
      by decide, rfl, rfl⟩
  have hcopies : .updating (walkRoot (projectCopy [unitTest] header)) ∈
      (Config.run acceptAll oneProjectWalk (oneProject 1 100 2 200) 5).log := by decide
  have hsettled : (Config.run acceptAll oneProjectWalk firstRun 5).log = [] := by decide
  refine .again hfirst ⟨_, hcopies⟩ (.settled hsecond fun target hmem => ?_)
  rw [hsettled] at hmem
  exact absurd hmem List.not_mem_nil

/-- The edit of the only project is gone when the runs have settled. -/
theorem edit_holds_everywhere_iff_lost : ¬ HoldsEverywhere secondRun.tree header 2 :=
  fun h => absurd ((edit_holds_everywhere_iff (oneProject_editedLater 1 2)
    repeatedRuns_secondRun).mp h) (by decide)

/-- A later edit in the only project, every prompt answered `y`: after the runs
have settled both copies have the old content. -/
theorem edit_is_lost :
    EditedLater (oneProject 1 100 2 200).tree header [unitTest] 1 2 ∧
      RepeatedRuns (oneProject 1 100 2 200) secondRun ∧
      secondRun.tree.stat (commonCopy header) = some (.file 1 100) ∧
      secondRun.tree.stat (projectCopy [unitTest] header) = some (.file 1 100) ∧
      ¬ HoldsEverywhere secondRun.tree header 2 := by
  have hcommon : secondRun.tree.stat (commonCopy header) = some (.file 1 100) := by decide
  refine ⟨oneProject_editedLater 1 2, repeatedRuns_secondRun, hcommon, by decide, ?_⟩
  rintro ⟨⟨time, hnew⟩, -⟩
  cases hcommon.symm.trans hnew

end TraceRecorderTests.Update
