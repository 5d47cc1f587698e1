import TraceRecorderTests.Base.Pass
import TraceRecorderTests.Update.Accepted

/-!
# A run as a pass over the project mocks

`Sync` says what the script may do with one project mock: it compares two times,
asks where the project's copy is the newer one, and takes the common copy or
leaves the project's. On a tree in which the folders the script goes through are
the projects' `mocks` folders, without subfolders and with a common copy of each
of their files (`Plain`), a completed run is a pass of `Sync` over all project
mocks in some order, and nothing else (`completed_pass`).
-/

namespace TraceRecorderTests.Update

open TraceRecorderTests.Base

variable {κ γ : Type*}

/-! ## The trees -/

/-- Each folder the script goes through is a project's folder named exactly
`mocks`, which rules out subfolders, and each file in one has a same-named file
in `unit_test_mocks`. -/
structure Plain (tree : Tree κ γ) : Prop where
  folder : ∀ d, tree.isDir d = true → found (walkRoot d) > 0 →
    ∃ project, Free project ∧ d = project ++ [mocksName]
  counterparts : CounterpartsExist tree

/-- A file in a project's `mocks` folder. -/
def ProjectMock (tree : Tree κ γ) (p : Folder) : Prop :=
  ∃ project m, Free project ∧ p = projectCopy project m ∧ tree.isFile p = true

theorem projectCopy_eq_append (project : Folder) (m : Name .backslash) :
    projectCopy project m = project ++ [mocksName] ++ [m] :=
  targetPath_eq_append project [] m

/-- The folder of a project mock is one the script goes through. -/
theorem ProjectMock.found_pos {tree : Tree κ γ} {p : Folder} (h : ProjectMock tree p) :
    found (walkRoot p.dropLast) > 0 := by
  obtain ⟨project, m, -, rfl, -⟩ := h
  rw [projectCopy_eq_append, List.dropLast_concat, found_pos_iff]
  exact not_free_mocks project []

/-- The common copy of the mock at a path. -/
def commonOf (tree : Tree κ γ) (p : Folder) : Option (Node κ γ) :=
  p.getLast?.bind fun m => tree.stat (commonCopy m)

theorem commonOf_projectCopy (tree : Tree κ γ) (project : Folder) (m : Name .backslash) :
    commonOf tree (projectCopy project m) = tree.stat (commonCopy m) := by
  rw [commonOf, projectCopy, getLast?_targetPath, Option.bind_some]

/-- Which folders and files there are decides both. -/
theorem Plain.congr {tree tree' : Tree κ γ} (h : Plain tree)
    (hdirs : ∀ q, tree'.isDir q = tree.isDir q) (hfiles : ∀ q, tree'.isFile q = tree.isFile q) :
    Plain tree' where
  folder d hd := h.folder d ((hdirs d).symm.trans hd)
  counterparts project m hproject hfile := by
    rw [hfiles] at hfile ⊢
    exact h.counterparts project m hproject hfile

/-- It is enough to look at the paths the tree has. -/
theorem plain_of_all {tree : Tree κ γ}
    (hfolders : (tree.nodes.keys.all fun d => !tree.isDir d || decide (Free d) ||
      decide (d.getLast? = some mocksName ∧ Free d.dropLast)) = true)
    (hcounterparts : CounterpartsExist tree) : Plain tree where
  folder d hd hpos := by
    have hmem : d ∈ tree.nodes.keys := AList.lookup_isSome.mp (FileTree.isSome_of_isDir hd)
    have hfolder := List.all_eq_true.mp hfolders d hmem
    have hnot : ¬ Free d := (found_pos_iff d).mp hpos
    simp only [hd, hnot, Bool.not_true, decide_false, Bool.false_or, decide_eq_true_eq]
      at hfolder
    obtain ⟨hlast, hfree⟩ := hfolder
    exact ⟨d.dropLast, hfree, (List.dropLast_append_getLast? mocksName hlast).symm⟩
  counterparts := hcounterparts

theorem projectMock_congr {tree tree' : Tree κ γ}
    (hfiles : ∀ q, tree'.isFile q = tree.isFile q) (p : Folder) :
    ProjectMock tree' p ↔ ProjectMock tree p := by
  rw [ProjectMock, ProjectMock, hfiles]

/-! ## One project mock -/

variable [Ring κ] [LinearOrder κ] [FloorRing κ]

/-- What the script may make of the project mock at `p`, and what it prints and
reads meanwhile: nothing, where the times are the same; else the common copy,
where that is newer, or where the user lets it overwrite the project's. A target
gets one of the answers that are allowed for it. -/
inductive Sync (allowed : PyStr → PyStr → Prop) (common : Folder → Option (Node κ γ))
    (p : Folder) : Option (Node κ γ) → Option (Node κ γ) → List LogEntry → Prop
  | sameTime {c c' : γ} {t t' : κ} (hcommon : common p = some (.file c' t'))
      (h : roundHalfEven t = roundHalfEven t') :
      Sync allowed common p (some (.file c t)) (some (.file c t)) []
  | older {c c' : γ} {t t' : κ} (hcommon : common p = some (.file c' t'))
      (h : roundHalfEven t < roundHalfEven t') :
      Sync allowed common p (some (.file c t)) (some (.file c' t')) [.updating (walkRoot p)]
  | accepted {c c' : γ} {t t' : κ} {yn : PyStr} (hcommon : common p = some (.file c' t'))
      (h : roundHalfEven t' < roundHalfEven t) (hallowed : allowed (walkRoot p) yn)
      (hyes : Accepts yn) :
      Sync allowed common p (some (.file c t)) (some (.file c' t'))
        [.warned (walkRoot p), .answered yn, .updating (walkRoot p)]
  | declined {c c' : γ} {t t' : κ} {yn : PyStr} (hcommon : common p = some (.file c' t'))
      (h : roundHalfEven t' < roundHalfEven t) (hallowed : allowed (walkRoot p) yn)
      (hno : ¬ Accepts yn) :
      Sync allowed common p (some (.file c t)) (some (.file c t))
        [.warned (walkRoot p), .answered yn, .skipped]

/-- Every question gets an answer. -/
def Environment.Answers (env : Environment κ) : Prop :=
  ∀ log target, (env.answer (log ++ [.warned target])).isSome = true

namespace Config

/-! ## The loop body -/

/-- The script has ended for want of an answer to a question. -/
structure Unanswered (env : Environment κ) (cfg : Config κ γ) : Prop where
  raised : cfg.raised = some .eof
  answer : ∃ log target, env.answer (log ++ [.warned target]) = none

omit [Ring κ] [LinearOrder κ] [FloorRing κ] in
theorem Unanswered.raised_ne_none {env : Environment κ} {cfg : Config κ γ}
    (h : cfg.Unanswered env) : cfg.raised ≠ none := by
  rw [h.raised]
  exact nofun

theorem not_nested_of_mocks {project : Folder} (h : Free project) :
    ¬ Nested (walkRoot (project ++ [mocksName])) := by
  rw [nested_of_splitMocks (splitMocks_append_cons h startsMocks_mocksName [])]
  exact Nat.not_lt_zero 1 ∘ Nat.lt_of_succ_le

variable {env : Environment κ} {w : Walk (Name .backslash)} {cfg cfg' : Config κ γ}
  {disk : Disk κ γ} {allowed : PyStr → PyStr → Prop} {common : Folder → Option (Node κ γ)}

omit [Ring κ] [LinearOrder κ] [FloorRing κ] in
/-- A copy of a common mock onto a project's succeeds and changes nothing else. -/
theorem copy2_of_mocks {project : Folder} {n : Name .backslash} {c c' : γ} {t t' : κ}
    (hpair : pairing cfg.root = .paired project [])
    (htarget : cfg.disk.tree.stat (projectCopy project n) = some (.file c t))
    (hsource : cfg.disk.tree.stat (commonCopy n) = some (.file c' t')) (now : κ) :
    ∃ disk', cfg.disk.copy2 (cfg.sourceOf n) (cfg.targetOf n) now = some disk' ∧
      disk'.tree.stat (projectCopy project n) = some (.file c' t') ∧
      ∀ q, q ≠ projectCopy project n → disk'.tree.stat q = cfg.disk.tree.stat q := by
  obtain ⟨tree, hcopy, hwritten, hframe⟩ := FileTree.copy2_of_files
    (targetPath_ne_commonCopy project [] n n).symm hsource htarget now
  refine ⟨{ cfg.disk with tree := tree }, ?_, hwritten, hframe⟩
  rw [Disk.copy2, sourceOf, targetOf, source_of_paired hpair, target_of_paired hpair,
    resolve_walkRoot, resolve_relative sourcePath_ne_nil]
  exact congrArg (Option.map _) hcopy

/-- The loop body on a project mock with a common copy synchronises the two and
leaves all else alone, unless there is no answer to its question. -/
theorem FileStep.sync {project : Folder} {n : Name .backslash} {c c' : γ} {t t' : κ}
    (hbody : FileStep env cfg n cfg') (hproject : Free project)
    (hroot : cfg.root = project ++ [mocksName])
    (htarget : cfg.disk.tree.stat (projectCopy project n) = some (.file c t))
    (hsource : cfg.disk.tree.stat (commonCopy n) = some (.file c' t'))
    (hcommon : common (projectCopy project n) = some (.file c' t'))
    (hallowed : ∀ log target yn, env.answer (log ++ [.warned target]) = some yn →
      allowed target yn) :
    cfg'.Unanswered env ∨
      cfg'.raised = cfg.raised ∧ ∃ y report, cfg'.log = cfg.log ++ report ∧
        cfg'.disk.tree.stat (projectCopy project n) = y ∧
        Sync allowed common (projectCopy project n) (some (.file c t)) y report ∧
        ∀ q, q ≠ projectCopy project n → cfg'.disk.tree.stat q = cfg.disk.tree.stat q := by
  have hpair : pairing cfg.root = .paired project [] := by
    rw [hroot]
    exact pairing_mocks hproject []
  have hname : cfg.targetOf n = walkRoot (projectCopy project n) := target_of_paired hpair n
  have htargetOf : cfg.disk.stat (cfg.targetOf n) = some (.file c t) :=
    (stat_targetOf cfg n hpair cfg.disk).trans htarget
  have hsourceOf : cfg.disk.stat (cfg.sourceOf n) = some (.file c' t') :=
    (stat_sourceOf cfg n hpair cfg.disk).trans hsource
  have hkinds : ∀ {x s : Node κ γ}, cfg.Compared n x s → x = .file c t ∧ s = .file c' t' :=
    fun hcompared =>
      ⟨Option.some.inj (hcompared.target_stat.symm.trans htargetOf),
        Option.some.inj (hcompared.source_stat.symm.trans hsourceOf)⟩
  cases hbody with
  | unbound hunbound =>
      refine absurd (fun hnested => ?_) hunbound
      rw [hroot] at hnested
      exact not_nested_of_mocks hproject hnested.1
  | missing _ hpath hstat =>
      rcases hpath with rfl | rfl
      · rw [htargetOf] at hstat
        cases hstat
      · rw [hsourceOf] at hstat
        cases hstat
  | sameTime hcompared h =>
      obtain ⟨rfl, rfl⟩ := hkinds hcompared
      exact .inr ⟨rfl, _, [], (List.append_nil _).symm, htarget, .sameTime hcommon h,
        fun _ _ => rfl⟩
  | eof _ _ hanswer => exact .inl ⟨rfl, _, _, hanswer⟩
  | @declined x s yn hcompared h hanswer hno =>
      obtain ⟨rfl, rfl⟩ := hkinds hcompared
      rw [hname] at hanswer ⊢
      refine .inr ⟨rfl, _, _, ?_, htarget, .declined hcommon h (hallowed _ _ _ hanswer) hno,
        fun _ _ => rfl⟩
      simp only [print, bindTarget, List.append_assoc, List.cons_append, List.nil_append]
  | @failed x s log _ _ hcopy =>
      obtain ⟨disk', hsome, -⟩ := copy2_of_mocks hpair htarget hsource
        (env.clock (log ++ [.updating (cfg.targetOf n)]))
      rw [hsome] at hcopy
      cases hcopy
  | @copied x s log disk' hcompared hagreed hcopy =>
      obtain ⟨rfl, rfl⟩ := hkinds hcompared
      obtain ⟨disk'', hsome, hwritten, hframe⟩ := copy2_of_mocks hpair htarget hsource
        (env.clock (log ++ [.updating (cfg.targetOf n)]))
      cases hsome.symm.trans hcopy
      rw [hname]
      cases hagreed with
      | older h => exact .inr ⟨rfl, _, _, rfl, hwritten, .older hcommon h, hframe⟩
      | @accepted yn h hanswer hyes =>
          rw [hname] at hanswer ⊢
          refine .inr ⟨rfl, _, _, ?_, hwritten,
            .accepted hcommon h (hallowed _ _ _ hanswer) hyes, hframe⟩
          simp only [print, List.append_assoc, List.cons_append, List.nil_append]

/-! ## The run so far -/

/-- The files left in the folder at hand. -/
def queue (cfg : Config κ γ) : List Folder := cfg.files.map fun n => cfg.root ++ [n]

omit [Ring κ] [LinearOrder κ] [FloorRing κ] in
theorem nodup_queue (h : cfg.files.Nodup) : cfg.queue.Nodup :=
  h.map fun _ _ heq => List.singleton_inj.mp (List.append_cancel_left heq)

/-- The run so far is a pass over the project mocks in `order`; the others are in
the queue, or in a folder to come. -/
structure Progress (allowed : PyStr → PyStr → Prop) (disk : Disk κ γ) (cfg : Config κ γ)
    (order : List Folder) : Prop where
  pass : Pass (Sync allowed (commonOf disk.tree)) disk.tree.stat order cfg.disk.tree.stat cfg.log
  folders : cfg.folders.Nodup
  dirs : ∀ d ∈ cfg.folders, disk.tree.isDir d = true
  nodup : (order ++ cfg.queue).Nodup
  mocks : ∀ p ∈ order ++ cfg.queue, ProjectMock disk.tree p ∧ p.dropLast ∉ cfg.folders
  rest : ∀ p, ProjectMock disk.tree p → p ∈ order ++ cfg.queue ∨ p.dropLast ∈ cfg.folders

variable {order : List Folder}

/-- The common copies are as they were. -/
theorem Progress.commonCopy_eq (h : Progress allowed disk cfg order) (m : Name .backslash) :
    cfg.disk.tree.stat (commonCopy m) = disk.tree.stat (commonCopy m) := by
  refine h.pass.frame fun hmem => ?_
  obtain ⟨⟨project, n, -, heq, -⟩, -⟩ := h.mocks _ (List.mem_append_left _ hmem)
  exact targetPath_ne_commonCopy project [] n m heq.symm

omit [Ring κ] [LinearOrder κ] [FloorRing κ] in
/-- What entering a folder puts into the queue: the project mocks it had at the
start. -/
theorem mem_queue_enter_iff (hplain : Plain disk.tree) (hfollows : Follows disk cfg)
    {d : Folder} (hdir : disk.tree.isDir d = true)
    (hnew : ∀ p, p.dropLast = d → cfg.disk.tree.stat p = disk.tree.stat p) (p : Folder) :
    p ∈ (cfg.enter w d).queue ↔ ProjectMock disk.tree p ∧ p.dropLast = d := by
  by_cases hpos : found (walkRoot d) > 0
  · obtain ⟨project, hproject, rfl⟩ := hplain.folder d hdir hpos
    simp only [queue, Config.enter, if_pos hpos, List.mem_map, Walk.mem_arrange,
      FileTree.mem_fileNames]
    constructor
    · rintro ⟨n, hfile, rfl⟩
      have hlast : (project ++ [mocksName] ++ [n]).dropLast = project ++ [mocksName] :=
        List.dropLast_concat
      rw [FileTree.isFile, hnew _ hlast] at hfile
      exact ⟨⟨project, n, hproject, (projectCopy_eq_append project n).symm, hfile⟩, hlast⟩
    · rintro ⟨⟨project', n, -, rfl, hfile⟩, hlast⟩
      rw [projectCopy_eq_append, List.dropLast_concat] at hlast
      refine ⟨n, ?_, ?_⟩
      · rw [← hlast, ← projectCopy_eq_append]
        exact hfollows.isFile _ hfile
      · rw [← hlast, ← projectCopy_eq_append]
  · simp only [queue, Config.enter, if_neg hpos, List.map_nil]
    refine iff_of_false List.not_mem_nil ?_
    rintro ⟨hmock, rfl⟩
    exact hpos hmock.found_pos

omit [Ring κ] [LinearOrder κ] [FloorRing κ] in
theorem nodup_queue_enter (cfg : Config κ γ) (w : Walk (Name .backslash)) (d : Folder) :
    (cfg.enter w d).queue.Nodup := by
  refine nodup_queue ?_
  unfold Config.enter
  split
  · exact (w.arrange_perm d _).nodup_iff.mpr (FileTree.nodup_fileNames _ d)
  · exact List.nodup_nil

/-- Entering a folder puts its project mocks into the queue. -/
theorem Progress.enter (hplain : Plain disk.tree) (hfollows : Follows disk cfg)
    (h : Progress allowed disk cfg order) (hfiles : cfg.files = []) {d : Folder}
    {folders : List Folder} (hfolders : cfg.folders = d :: folders) :
    Progress allowed disk ({ cfg with folders := folders }.enter w d) order := by
  have hempty : cfg.queue = [] := by
    rw [queue, hfiles]
    rfl
  obtain ⟨hpass, hnodup, hdirs, hdistinct, hmocks, hrest⟩ := h
  rw [hempty, List.append_nil] at hdistinct hmocks
  simp only [hempty, List.append_nil] at hrest
  rw [hfolders] at hnodup hdirs hmocks
  simp only [hfolders] at hrest
  obtain ⟨hd, hnodup⟩ := List.nodup_cons.mp hnodup
  -- the pass has not been here yet
  have hout : ∀ p ∈ order, p.dropLast ≠ d := by
    intro p hp heq
    refine (hmocks p hp).2 ?_
    rw [heq]
    exact List.mem_cons_self
  have hqueue : ∀ p, p ∈ ({ cfg with folders := folders }.enter w d).queue ↔
      ProjectMock disk.tree p ∧ p.dropLast = d :=
    mem_queue_enter_iff hplain ⟨hfollows.matched, hfollows.elsewhere, hfollows.isDir,
      hfollows.isFile⟩ (hdirs d List.mem_cons_self)
      fun p hp => hpass.frame fun hmem => hout p hmem hp
  refine ⟨hpass, hnodup, fun e he => hdirs e (List.mem_cons_of_mem d he), ?_, ?_, ?_⟩
  · refine List.nodup_append.mpr ⟨hdistinct, nodup_queue_enter _ w d, fun p hp q hq heq => ?_⟩
    rw [← heq] at hq
    exact hout p hp ((hqueue p).mp hq).2
  · intro p hp
    rcases List.mem_append.mp hp with hp | hp
    · obtain ⟨hmock, hnot⟩ := hmocks p hp
      exact ⟨hmock, fun hmem => hnot (List.mem_cons_of_mem d hmem)⟩
    · obtain ⟨hmock, rfl⟩ := (hqueue p).mp hp
      exact ⟨hmock, hd⟩
  · intro p hmock
    rcases hrest p hmock with hp | hp
    · exact .inl (List.mem_append_left _ hp)
    · rcases List.mem_cons.mp hp with hp | hp
      · exact .inl (List.mem_append_right _ ((hqueue p).mpr ⟨hmock, hp⟩))
      · exact .inr hp

/-- The loop body moves the first project mock of the queue to the pass, unless
there is no answer to its question. -/
theorem Progress.process (hplain : Plain disk.tree) (hfollows : Follows disk cfg)
    (hallowed : ∀ log target yn, env.answer (log ++ [.warned target]) = some yn →
      allowed target yn)
    (h : Progress allowed disk cfg order) {n : Name .backslash} {files : List (Name .backslash)}
    (hfiles : cfg.files = n :: files)
    (hbody : FileStep env { cfg with files := files } n cfg') :
    cfg'.Unanswered env ∨
      cfg'.raised = cfg.raised ∧ ∃ order', Progress allowed disk cfg' order' := by
  have hqueue : cfg.queue = (cfg.root ++ [n]) :: files.map fun m => cfg.root ++ [m] := by
    rw [queue, hfiles, List.map_cons]
  have hhead : cfg.root ++ [n] ∈ order ++ cfg.queue := by
    rw [hqueue]
    exact List.mem_append_right _ List.mem_cons_self
  obtain ⟨project, m, hproject, hpath, hfile⟩ := (h.mocks _ hhead).1
  obtain ⟨hroot, hname⟩ := List.append_inj' (hpath.trans (projectCopy_eq_append project m)) rfl
  cases List.singleton_inj.mp hname
  have hfile' := hfile
  rw [hpath] at hfile'
  obtain ⟨c, t, htarget⟩ := FileTree.isFile_iff.mp (hfollows.isFile _ hfile')
  obtain ⟨c', t', hcommon⟩ :=
    FileTree.isFile_iff.mp (hplain.counterparts project n hproject hfile')
  have hsource := (h.commonCopy_eq n).trans hcommon
  have hcommonOf := (commonOf_projectCopy disk.tree project n).trans hcommon
  rcases hbody.sync hproject hroot htarget hsource hcommonOf hallowed with
    heof | ⟨hraised, y, report, hlog, hwritten, hsync, hframe⟩
  · exact .inl heof
  · -- the mock at the head of the queue is the next of the pass
    have hsame : order ++ [projectCopy project n] ++ cfg'.queue = order ++ cfg.queue := by
      rw [queue, hbody.files_eq, hbody.root_eq, hqueue, hpath, List.append_assoc,
        List.singleton_append]
    refine .inr ⟨hraised, order ++ [projectCopy project n], ?_, ?_, ?_, ?_, ?_, ?_⟩
    · rw [← htarget, ← hwritten] at hsync
      rw [hlog]
      exact .handled h.pass hsync hframe
    · rw [hbody.folders_eq]
      exact h.folders
    · rw [hbody.folders_eq]
      exact h.dirs
    · rw [hsame]
      exact h.nodup
    · rw [hsame, hbody.folders_eq]
      exact h.mocks
    · rw [hsame, hbody.folders_eq]
      exact h.rest

/-- At the start all project mocks are to come. -/
theorem progress_start (hw : w.Enumerates disk.tree) :
    Progress allowed disk (start w disk) [] where
  pass := .start
  folders := hw.nodup
  dirs d hd := (hw.mem_iff d).mp hd
  nodup := List.nodup_nil
  mocks p hp := absurd hp List.not_mem_nil
  rest p hmock := by
    obtain ⟨-, -, -, -, hfile⟩ := hmock
    obtain ⟨c, t, hstat⟩ := FileTree.isFile_iff.mp hfile
    have hsome : (disk.tree.stat p).isSome = true := Option.isSome_iff_exists.mpr ⟨_, hstat⟩
    exact .inr ((hw.mem_iff p.dropLast).mpr (FileTree.isDir_dropLast hsome))

/-- A run on a plain tree is a pass as far as it has come, or has ended for want
of an answer. -/
theorem progress_run (hplain : Plain disk.tree) (hw : w.Enumerates disk.tree)
    (hallowed : ∀ log target yn, env.answer (log ++ [.warned target]) = some yn →
      allowed target yn) (k : Nat) :
    (run env w disk k).Unanswered env ∨
      (run env w disk k).raised = none ∧
        ∃ order, Progress allowed disk (run env w disk k) order := by
  have hstep : ∀ cfg cfg' : Config κ γ, Step env w cfg cfg' → Follows disk cfg →
      (cfg.Unanswered env ∨
        cfg.raised = none ∧ ∃ order, Progress allowed disk cfg order) →
      cfg'.Unanswered env ∨
        cfg'.raised = none ∧ ∃ order, Progress allowed disk cfg' order := by
    intro cfg cfg' hstep hfollows hinv
    cases hstep with
    | ended => exact hinv
    | entered hraised hfiles hfolders =>
        rcases hinv with heof | ⟨-, order, hprogress⟩
        · exact absurd hraised heof.raised_ne_none
        · exact .inr ⟨hraised, order, hprogress.enter hplain hfollows hfiles hfolders⟩
    | processed hraised hfiles hbody =>
        rcases hinv with heof | ⟨-, order, hprogress⟩
        · exact absurd hraised heof.raised_ne_none
        · rcases hprogress.process hplain hfollows hallowed hfiles hbody with
            heof | ⟨hsame, hnext⟩
          · exact .inl heof
          · exact .inr ⟨hsame.trans hraised, hnext⟩
  exact run_invariant hstep (.inr ⟨rfl, [], progress_start hw⟩) k

/-- The run completes when every question has an answer. -/
theorem exists_completed_run (hplain : Plain disk.tree) (hw : w.Enumerates disk.tree)
    (hanswers : env.Answers) : ∃ k, (run env w disk k).Completed := by
  obtain ⟨k, hk⟩ := exists_halted_run env w disk
  refine ⟨k, hk.resolve_left fun hsome => ?_⟩
  have hany : ∀ log target yn, env.answer (log ++ [.warned target]) = some yn →
      (fun _ _ => True : PyStr → PyStr → Prop) target yn := fun _ _ _ _ => trivial
  rcases progress_run hplain hw hany k with ⟨-, log, target, hnone⟩ | ⟨hraised, -⟩
  · have hanswer := hanswers log target
    rw [hnone] at hanswer
    cases hanswer
  · rw [hraised] at hsome
    cases hsome

/-- A completed run is a pass over all project mocks, each one once. -/
theorem completed_pass (hplain : Plain disk.tree) (hw : w.Enumerates disk.tree)
    (hallowed : ∀ log target yn, env.answer (log ++ [.warned target]) = some yn →
      allowed target yn) {k : Nat} (hdone : (run env w disk k).Completed) :
    ∃ order, order.Nodup ∧ (∀ p, p ∈ order ↔ ProjectMock disk.tree p) ∧
      Pass (Sync allowed (commonOf disk.tree)) disk.tree.stat order
        (run env w disk k).disk.tree.stat (run env w disk k).log := by
  rcases progress_run hplain hw hallowed k with heof | ⟨-, order, h⟩
  · exact absurd hdone.raised heof.raised_ne_none
  · have hempty : (run env w disk k).queue = [] := by
      rw [queue, hdone.files]
      rfl
    obtain ⟨hpass, -, -, hnodup, hmocks, hrest⟩ := h
    rw [hempty, List.append_nil] at hnodup hmocks
    refine ⟨order, hnodup, fun p => ⟨fun hp => (hmocks p hp).1, fun hmock => ?_⟩, hpass⟩
    have hplace := hrest p hmock
    rw [hempty, List.append_nil, hdone.folders] at hplace
    exact hplace.resolve_right List.not_mem_nil

end Config

end TraceRecorderTests.Update
