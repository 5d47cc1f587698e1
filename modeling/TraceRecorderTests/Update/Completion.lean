import TraceRecorderTests.Update.Consent

/-!
# Completing a run

A file the common folder does not have stops the script, and so does a file in
a subfolder when no other file came before it: the loop body then reads `target`
before any round has bound it. `Served` is the condition on a step that neither
happens. A run all of whose steps meet it completes (`served_run_completes`),
and then the tree has no mocks without a counterpart to leave out
(`withCounterparts_eq_self`).
-/

namespace TraceRecorderTests.Update

open TraceRecorderTests.Base

variable {κ γ : Type*}

/-! ## Mocks without a counterpart -/

/-- The path in `unit_test_mocks` of a file in a project's `mocks` folder, or
below it. -/
def counterpart (p : Folder) : Option Folder :=
  match splitMocks p with
  | some (_, [], n :: rest) => some (unitTestMocks :: n :: rest)
  | _ => none

theorem counterpart_eq_some {p s : Folder} (h : counterpart p = some s) :
    ∃ project below n, Free project ∧ p = targetPath project below n ∧
      s = sourcePath below n := by
  rw [counterpart] at h
  split at h
  · next project m rest hsplit =>
      cases h
      obtain ⟨hfree, k, hk, rfl⟩ := splitMocks_eq_some hsplit
      have hname : k = mocksName := Name.ext (hk.trans (List.append_nil _))
      have hlast : (m :: rest).dropLast ++ [(m :: rest).getLast (List.cons_ne_nil m rest)] =
          m :: rest := List.dropLast_append_getLast _
      refine ⟨project, (m :: rest).dropLast, (m :: rest).getLast (List.cons_ne_nil m rest),
        hfree, ?_, ?_⟩
      · rw [targetPath, hlast, hname]
      · rw [sourcePath, hlast]
  · cases h

/-- The tree from which the files of the projects' mocks folders that have no
counterpart are removed. -/
def withCounterparts (tree : Tree κ γ) : Tree κ γ :=
  tree.restrict
    (fun p => tree.isDir p || (counterpart p).all fun s => (tree.stat s).isSome)
    (fun p hp => by rw [hp, Bool.true_or])

/-- Nothing is removed where every such file has its counterpart. -/
theorem withCounterparts_eq_self {tree : Tree κ γ}
    (h : ∀ p s, tree.isFile p = true → counterpart p = some s → (tree.stat s).isSome = true) :
    withCounterparts tree = tree := by
  refine FileTree.restrict_eq_self fun p hp => ?_
  obtain ⟨x, hx⟩ := Option.isSome_iff_exists.mp hp
  cases x with
  | dir m => rw [FileTree.isDir_iff.mpr ⟨m, hx⟩, Bool.true_or]
  | file c m =>
      cases hs : counterpart p with
      | none => rw [Option.all_none, Bool.or_true]
      | some s =>
          rw [Option.all_some, h p s (FileTree.isFile_iff.mpr ⟨c, m, hx⟩) hs, Bool.or_true]

/-- The disk with that tree. -/
def Disk.withCounterparts (disk : Disk κ γ) : Disk κ γ :=
  { disk with tree := Update.withCounterparts disk.tree }

/-! ## The condition -/

namespace Config

/-- If the next step is the loop body on a file, then its target exists, its
source existed at the start, and `target` is bound where the body reads it. -/
def Served (disk : Disk κ γ) (cfg : Config κ γ) : Prop :=
  cfg.raised = none → ∀ n ∈ cfg.files.head?,
    cfg.Bound ∧ (cfg.disk.stat (cfg.targetOf n)).isSome = true ∧
      (disk.stat (cfg.sourceOf n)).isSome = true

/-- What exists at the start exists at any point of a run. -/
theorem Follows.stat_isSome {disk : Disk κ γ} {cfg : Config κ γ} (h : Follows disk cfg)
    {path : PyStr} (hpath : (disk.stat path).isSome = true) :
    (cfg.disk.stat path).isSome = true := by
  rw [Disk.stat] at hpath ⊢
  cases hloc : resolve .backslash path with
  | elsewhere s =>
      rw [hloc] at hpath
      simp only [h.elsewhere]
      exact hpath
  | inTree p =>
      rw [hloc] at hpath
      obtain ⟨x, hx⟩ := Option.isSome_iff_exists.mp hpath
      cases x with
      | dir m =>
          have hdir : cfg.disk.tree.isDir p = true := by
            rw [h.isDir]
            exact FileTree.isDir_iff.mpr ⟨m, hx⟩
          exact FileTree.isSome_of_isDir hdir
      | file c m =>
          obtain ⟨c', m', hx'⟩ := FileTree.isFile_iff.mp
            (h.isFile p (FileTree.isFile_iff.mpr ⟨c, m, hx⟩))
          simp only [hx', Option.isSome_some]

variable [Ring κ] [LinearOrder κ] [FloorRing κ] {env : Environment κ}
  {w : Walk (Name .backslash)} {disk : Disk κ γ} {cfg cfg' : Config κ γ}

/-- A step that is served raises nothing but an I/O error. -/
theorem Served.raised {answers : PyStr → PyStr}
    (hanswers : ∀ log target, env.answer (log ++ [.warned target]) = some (answers target))
    (hstep : Step env w cfg cfg') (hfollows : Follows disk cfg) (hraised : cfg.raised = none)
    (hio : cfg'.raised ≠ some .ioError) (h : Served disk cfg) : cfg'.raised = none := by
  cases hstep with
  | ended => exact hraised
  | entered => exact hraised
  | @processed n files _ _ hfiles hbody =>
      obtain ⟨hbound, htarget, hsource⟩ := h hraised n (by rw [hfiles]; rfl)
      cases hbody with
      | unbound hnot => exact absurd hbound hnot
      | missing _ hpath hstat =>
          -- either path exists: the target now, the source since the start
          rcases hpath with rfl | rfl
          · rw [targetOf] at htarget hstat
            rw [hstat] at htarget
            cases htarget
          · have hnow := hfollows.stat_isSome hsource
            rw [sourceOf] at hnow hstat
            rw [hstat] at hnow
            cases hnow
      | sameTime => exact hraised
      | eof _ _ hanswer =>
          rw [hanswers] at hanswer
          cases hanswer
      | declined => exact hraised
      | failed => exact absurd rfl hio
      | copied => exact hraised

/-- A run all of whose steps are served completes. -/
theorem served_run_completes {answers : PyStr → PyStr}
    (hanswers : ∀ log target, env.answer (log ++ [.warned target]) = some (answers target))
    (hio : ∀ k, (run env w disk k).raised ≠ some .ioError)
    (hserved : ∀ k, Served disk (run env w disk k)) : ∃ k, (run env w disk k).Completed := by
  have hraised : ∀ k, (run env w disk k).raised = none := by
    intro k
    induction k with
    | zero => rfl
    | succ k ih =>
        exact (hserved k).raised hanswers (step_run env w disk k) (follows_run env w disk k) ih
          (hio (k + 1))
  obtain ⟨k, hk⟩ := exists_halted_run env w disk
  rcases hk with hsome | hdone
  · rw [hraised k] at hsome
    cases hsome
  · exact ⟨k, hdone⟩

/-- In such a run every mock has its counterpart. -/
theorem counterpart_of_served (hw : w.Enumerates disk.tree) {k : Nat}
    (hdone : (run env w disk k).Completed) (hserved : ∀ k, Served disk (run env w disk k))
    {p s : Folder} (hfile : disk.tree.isFile p = true) (hs : counterpart p = some s) :
    (disk.tree.stat s).isSome = true := by
  obtain ⟨project, below, n, hfree, rfl, rfl⟩ := counterpart_eq_some hs
  have hpair := pairing_mocks hfree below
  rw [targetPath_eq_append] at hfile
  obtain ⟨j, -, hvisits⟩ := exists_visit hw (not_free_mocks project below) hfile hdone
  obtain ⟨-, -, hsource⟩ := hserved j hvisits.raised n hvisits.files
  rwa [stat_sourceOf (run env w disk j) n (hvisits.root ▸ hpair)] at hsource

/-- A loop body that does not raise got as far as the two times. -/
theorem Visits.compared {d : Folder} {n : Name .backslash} (h : cfg.Visits d n)
    (hraised : (cfg.step env w).raised = none) : ∃ t s, cfg.Compared n t s := by
  obtain ⟨files, hbody⟩ := h.fileStep env w
  generalize cfg.step env w = cfg' at hbody hraised
  cases hbody with
  | unbound => cases hraised
  | missing => cases hraised
  | @sameTime t s hcompared =>
      exact ⟨t, s, hcompared.bound, hcompared.target_stat, hcompared.source_stat⟩
  | eof => cases hraised
  | @declined t s _ hcompared =>
      exact ⟨t, s, hcompared.bound, hcompared.target_stat, hcompared.source_stat⟩
  | failed => cases hraised
  | @copied t s _ _ hcompared =>
      exact ⟨t, s, hcompared.bound, hcompared.target_stat, hcompared.source_stat⟩

omit [Ring κ] [LinearOrder κ] [FloorRing κ] in
/-- Where `unit_test_mocks` is as it was, a source that exists existed at the
start. -/
theorem stat_sourceOf_start (hkeeps : KeepsCommon disk.tree cfg)
    (hfollows : Follows disk cfg) {n : Name .backslash}
    (hfree : ¬ Free cfg.root) (h : (cfg.disk.stat (cfg.sourceOf n)).isSome = true) :
    (disk.stat (cfg.sourceOf n)).isSome = true := by
  rcases pairing_of_not_free hfree with ⟨project, below, hpair⟩ | ⟨below, hpair⟩
  · rw [stat_sourceOf cfg n hpair] at h ⊢
    cases hdir : disk.tree.isDir (sourcePath below n) with
    | true => exact FileTree.isSome_of_isDir hdir
    | false =>
        have hsame : cfg.disk.tree.stat (sourcePath below n) =
            disk.tree.stat (sourcePath below n) := hkeeps (below ++ [n]) hdir
        rwa [← hsame]
  · have hne : below ++ [n] ≠ [] := List.concat_ne_nil _ _
    rw [sourceOf, (pairing_rooted hpair n).2, Disk.stat, resolve_tail hne] at h ⊢
    rwa [hfollows.elsewhere] at h

/-- A run that completes was served at every step. -/
theorem served_of_completed (hcommon : CommonIsNoProject disk.tree) {k : Nat}
    (hdone : (run env w disk k).Completed) (j : Nat) : Served disk (run env w disk j) := by
  intro hraised n hn
  -- a file is left at step `j`, so the run has not completed by then
  have hjk : j < k := by
    by_contra hnot
    rw [run_of_halted (.inr hdone) (not_lt.mp hnot), hdone.files] at hn
    cases hn
  have hfollows := follows_run env w disk j
  have hvisits : (run env w disk j).Visits (run env w disk j).root n := ⟨hraised, rfl, hn⟩
  have hafter := raised_eq_none_of_le hjk hdone.raised
  rw [run_succ] at hafter
  obtain ⟨t, s, hcompared⟩ := hvisits.compared hafter
  obtain ⟨files, hfiles⟩ := hvisits.files_eq
  have hfree := hfollows.matched.not_free hfiles
  refine ⟨hcompared.bound, by rw [hcompared.target_stat]; rfl, ?_⟩
  exact stat_sourceOf_start (keepsCommon_run env w hcommon j) hfollows hfree
    (by rw [hcompared.source_stat]; rfl)

/-- The script completes, and each project mock with a counterpart ends as in a
run on the tree from which the mocks without one have been removed. -/
def UpdatesAll (env : Environment κ) (w : Walk (Name .backslash)) (disk : Disk κ γ) : Prop :=
  ∃ k k', (run env w disk k).Completed ∧ (run env w disk.withCounterparts k').Halted ∧
    ∀ p s, disk.tree.isFile p = true → counterpart p = some s →
      (disk.tree.stat s).isSome = true →
        (run env w disk k).disk.tree.stat p =
          (run env w disk.withCounterparts k').disk.tree.stat p

/-- A user who has an answer for each target, and no I/O error other than from a
path that does not exist: if every step is served the script updates all mocks,
and it does so only then, unless a folder in `unit_test_mocks` is itself taken
for a project's. -/
theorem updatesAll_of_served_and_converse {answers : PyStr → PyStr} (hw : w.Enumerates disk.tree)
    (hanswers : ∀ log target, env.answer (log ++ [.warned target]) = some (answers target))
    (hio : ∀ k, (run env w disk k).raised ≠ some .ioError) :
    ((∀ k, Served disk (run env w disk k)) → UpdatesAll env w disk) ∧
      (CommonIsNoProject disk.tree → UpdatesAll env w disk →
        ∀ k, Served disk (run env w disk k)) := by
  constructor
  · intro hserved
    obtain ⟨k, hdone⟩ := served_run_completes hanswers hio hserved
    -- the pruned tree is the tree itself, and the two runs are one
    have hsame : disk.withCounterparts = disk := by
      rw [Disk.withCounterparts, withCounterparts_eq_self fun p s hfile hs =>
        counterpart_of_served hw hdone hserved hfile hs]
    rw [UpdatesAll, hsame]
    exact ⟨k, k, hdone, .inr hdone, fun _ _ _ _ _ => rfl⟩
  · rintro hcommon ⟨k, -, hdone, -⟩ j
    exact served_of_completed hcommon hdone j

/-- A run that has raised does not complete. -/
theorem not_completed_of_raised {j : Nat} (h : (run env w disk j).raised.isSome = true)
    (k : Nat) : ¬ (run env w disk k).Completed := by
  intro hdone
  have hsame : run env w disk j = run env w disk k :=
    halted_unique (step_of_halted (.inl h)) (step_of_halted (.inr hdone))
  rw [hsame, hdone.raised] at h
  cases h

end Config

/-! ## Runs that stop -/

/-- The run on the tree with one project: its only file is served. -/
theorem updatesAll_of_served_and_converse_oneProject :
    Config.UpdatesAll acceptAll oneProjectWalk (oneProject 1 100 2 50) := by
  have hdone : (Config.run acceptAll oneProjectWalk (oneProject 1 100 2 50) 5).Completed :=
    by decide
  have hlast : ∀ k, 5 ≤ k → Config.run acceptAll oneProjectWalk (oneProject 1 100 2 50) k =
      Config.run acceptAll oneProjectWalk (oneProject 1 100 2 50) 5 :=
    fun k hk => Config.run_of_halted (.inr hdone) hk
  have hio : ∀ k, (Config.run acceptAll oneProjectWalk (oneProject 1 100 2 50) k).raised ≠
      some .ioError := by
    have hfirst : ∀ k < 5,
        (Config.run acceptAll oneProjectWalk (oneProject 1 100 2 50) k).raised ≠
          some .ioError := by decide
    intro k
    rcases lt_or_ge k 5 with hk | hk
    · exact hfirst k hk
    · rw [hlast k hk, hdone.raised]
      exact nofun
  have hyes : ∀ log target, acceptAll.answer (log ++ [.warned target]) =
      some ((fun _ => ['y'] : PyStr → PyStr) target) := fun _ _ => rfl
  have hserved : ∀ k, Config.Served (oneProject 1 100 2 50)
      (Config.run acceptAll oneProjectWalk (oneProject 1 100 2 50) k) := by
    intro k _ n hn
    have hfirst : ∀ k < 4,
        (Config.run acceptAll oneProjectWalk (oneProject 1 100 2 50) k).files = [] := by decide
    have hhead : (Config.run acceptAll oneProjectWalk (oneProject 1 100 2 50) 4).files.head? =
        some header := by decide
    rcases lt_trichotomy k 4 with hk | rfl | hk
    · rw [hfirst k hk] at hn
      cases hn
    · cases hhead.symm.trans hn
      exact ⟨by decide, by decide, by decide⟩
    · rw [hlast k hk, hdone.files] at hn
      cases hn
  exact (Config.updatesAll_of_served_and_converse (oneProjectWalk_enumerates 1 100 2 50) hyes
    hio).1 hserved

/-- The name of a file only the project has. -/
def ownHeader : Name .backslash := ⟨"own.h".toList, by decide⟩

/-- The name of a subfolder. -/
def subfolder : Name .backslash := ⟨"port".toList, by decide⟩

/-- A project with a mock of its own beside an old copy of a common one. -/
def projectSpecific : Disk ℤ ℤ where
  tree :=
    { nodes := List.toAList
        [⟨[], .dir 0⟩, ⟨[unitTestMocks], .dir 0⟩, ⟨commonCopy header, .file 1 100⟩,
          ⟨[unitTest], .dir 0⟩, ⟨[unitTest, mocksName], .dir 0⟩,
          ⟨projectCopy [unitTest] ownHeader, .file 3 50⟩,
          ⟨projectCopy [unitTest] header, .file 2 50⟩]
      root_isDir := rfl
      parent_isDir := List.all_eq_true.mp rfl }
  elsewhere _ := none

/-- A project whose only mock is in a subfolder. -/
def inSubfolder : Disk ℤ ℤ where
  tree :=
    { nodes := List.toAList
        [⟨[], .dir 0⟩, ⟨[unitTestMocks], .dir 0⟩, ⟨[unitTestMocks, subfolder], .dir 0⟩,
          ⟨sourcePath [subfolder] header, .file 1 100⟩, ⟨[unitTest], .dir 0⟩,
          ⟨[unitTest, mocksName], .dir 0⟩, ⟨[unitTest, mocksName, subfolder], .dir 0⟩,
          ⟨targetPath [unitTest] [subfolder] header, .file 2 50⟩]
      root_isDir := rfl
      parent_isDir := List.all_eq_true.mp rfl }
  elsewhere _ := none

/-- An order in which `os.walk` can go through it. -/
def inSubfolderWalk : Walk (Name .backslash) :=
  .inOrder [[], [unitTestMocks], [unitTestMocks, subfolder], [unitTest],
    [unitTest, mocksName], [unitTest, mocksName, subfolder]]

/-- The project's own mock stops the script before it gets to the other one; the
mock in a subfolder, with no file before it, stops it at the name `target`. -/
theorem script_stops_early :
    (oneProjectWalk.Enumerates projectSpecific.tree ∧
      (Config.run acceptAll oneProjectWalk projectSpecific 5).raised =
        some (.fileNotFound "unit_test_mocks\\own.h".toList) ∧
      ¬ Config.UpdatesAll acceptAll oneProjectWalk projectSpecific) ∧
    (inSubfolderWalk.Enumerates inSubfolder.tree ∧
      (Config.run acceptAll inSubfolderWalk inSubfolder 7).raised = some .nameError ∧
      ¬ Config.UpdatesAll acceptAll inSubfolderWalk inSubfolder) := by
  have hmissing : (Config.run acceptAll oneProjectWalk projectSpecific 5).raised =
      some (.fileNotFound "unit_test_mocks\\own.h".toList) := by decide
  have hunbound : (Config.run acceptAll inSubfolderWalk inSubfolder 7).raised =
      some .nameError := by decide
  refine ⟨⟨⟨rfl, by decide, Walk.mem_folders_iff rfl rfl, by decide⟩, hmissing, ?_⟩,
    ⟨rfl, by decide, Walk.mem_folders_iff rfl rfl, by decide⟩, hunbound, ?_⟩
  · rintro ⟨k, -, hdone, -⟩
    exact Config.not_completed_of_raised (by rw [hmissing]; rfl) k hdone
  · rintro ⟨k, -, hdone, -⟩
    exact Config.not_completed_of_raised (by rw [hunbound]; rfl) k hdone

end TraceRecorderTests.Update
