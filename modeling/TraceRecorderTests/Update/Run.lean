import TraceRecorderTests.Update.StepSpec

/-!
# Whole runs of the script

What holds along every run, whatever the order of the walk and the answers:
folders stay folders and files stay files, the log only grows, the script ends
(`exists_halted_run`), and every file that lay in a visited folder at the start
has been through the loop body when it does (`exists_visit`).
-/

namespace TraceRecorderTests.Update

open TraceRecorderTests.Base

variable {κ γ : Type*}

/-- The user was asked about this target and answered `y` or `Y`. -/
def Consented (log : List LogEntry) (p : Folder) : Prop :=
  ∃ yn, (yn = ['y'] ∨ yn = ['Y']) ∧ [.warned (walkRoot p), .answered yn] <:+: log

theorem Consented.mono {log log' : List LogEntry} {p : Folder} (h : Consented log p)
    (hlog : log <+: log') : Consented log' p := by
  obtain ⟨yn, hyes, hinfix⟩ := h
  exact ⟨yn, hyes, hinfix.trans hlog.isInfix⟩

/-- Where a copy lands: a target that is a folder takes the file in under its
own name, one level further down. -/
theorem landing_targetPath (tree : Tree κ γ) (project below : Folder) (n : Name .backslash) :
    tree.landing (sourcePath below n) (targetPath project below n) =
      if tree.isDir (targetPath project below n) then targetPath project (below ++ [n]) n
      else targetPath project below n := by
  have hlast : (sourcePath below n).getLast? = some n := by
    rw [sourcePath, ← List.cons_append]
    exact List.getLast?_concat
  rw [FileTree.landing, hlast]
  split
  · simp [targetPath]
  · rfl

namespace Config

/-! ## What the loop body leaves alone -/

section frame

variable [Ring κ] [LinearOrder κ] [FloorRing κ]
  {env : Environment κ} {cfg cfg' : Config κ γ} {n : Name .backslash}

theorem Agreed.log_prefix {t s : Node κ γ} {log : List LogEntry}
    (h : Agreed env cfg n t s log) : cfg.log <+: log := by
  cases h with
  | older h => exact List.prefix_rfl
  | accepted h hanswer hyes => exact (List.prefix_append _ _).trans (List.prefix_append _ _)

theorem FileStep.log_prefix (h : FileStep env cfg n cfg') : cfg.log <+: cfg'.log := by
  cases h with
  | unbound => exact List.prefix_rfl
  | missing => exact List.prefix_rfl
  | sameTime => exact List.prefix_rfl
  | eof => exact List.prefix_append _ _
  | declined =>
      exact ((List.prefix_append _ _).trans (List.prefix_append _ _)).trans
        (List.prefix_append _ _)
  | failed _ hagreed => exact hagreed.log_prefix.trans (List.prefix_append _ _)
  | copied _ hagreed => exact hagreed.log_prefix.trans (List.prefix_append _ _)

theorem FileStep.root_eq (h : FileStep env cfg n cfg') : cfg'.root = cfg.root := by
  cases h <;> rfl

theorem FileStep.files_eq (h : FileStep env cfg n cfg') : cfg'.files = cfg.files := by
  cases h <;> rfl

theorem FileStep.folders_eq (h : FileStep env cfg n cfg') : cfg'.folders = cfg.folders := by
  cases h <;> rfl

end frame

/-! ## The tree -/

section tree

theorem stat_targetOf (cfg : Config κ γ) {project below : Folder} (n : Name .backslash)
    (h : pairing cfg.root = .paired project below) (disk : Disk κ γ) :
    disk.stat (cfg.targetOf n) = disk.tree.stat (targetPath project below n) := by
  rw [targetOf, target_of_paired h, Disk.stat, resolve_walkRoot]

theorem stat_sourceOf (cfg : Config κ γ) {project below : Folder} (n : Name .backslash)
    (h : pairing cfg.root = .paired project below) (disk : Disk κ γ) :
    disk.stat (cfg.sourceOf n) = disk.tree.stat (sourcePath below n) := by
  rw [sourceOf, source_of_paired h, Disk.stat, resolve_relative sourcePath_ne_nil]

/-- A copy is one of a paired folder, within the tree. -/
theorem copy2_spec {cfg : Config κ γ} {n : Name .backslash} {disk : Disk κ γ}
    {now : κ}
    (h : cfg.disk.copy2 (cfg.sourceOf n) (cfg.targetOf n) now = some disk)
    (hmatched : ¬ Free cfg.root) :
    disk.elsewhere = cfg.disk.elsewhere ∧
      ∃ project below, pairing cfg.root = .paired project below ∧
        cfg.disk.tree.copy2 (sourcePath below n) (targetPath project below n) now =
          some disk.tree := by
  rcases pairing_of_not_free hmatched with ⟨project, below, hpair⟩ | ⟨below, hpair⟩
  · rw [Disk.copy2, sourceOf, targetOf, source_of_paired hpair, target_of_paired hpair,
      resolve_walkRoot, resolve_relative sourcePath_ne_nil] at h
    obtain ⟨tree, htree, rfl⟩ := Option.map_eq_some_iff.mp h
    exact ⟨rfl, project, below, hpair, htree⟩
  · obtain ⟨htarget, hsource⟩ := pairing_rooted hpair n
    have hne : below ++ [n] ≠ [] := List.concat_ne_nil _ _
    rw [Disk.copy2, sourceOf, hsource, resolve_tail hne] at h
    cases h

/-- The script is in the middle of a folder's files only if it goes through
them. -/
def Matched (cfg : Config κ γ) : Prop := cfg.files ≠ [] → ¬ Free cfg.root

theorem Matched.not_free {cfg : Config κ γ} (h : cfg.Matched) {n : Name .backslash}
    {files : List (Name .backslash)} (hfiles : cfg.files = n :: files) : ¬ Free cfg.root := by
  apply h
  rw [hfiles]
  exact List.cons_ne_nil _ _

theorem matched_start (w : Walk (Name .backslash)) (disk : Disk κ γ) :
    (start w disk).Matched :=
  fun h => absurd rfl h

variable [Ring κ] [LinearOrder κ] [FloorRing κ]

/-- A step that copies: the folder is paired, the source is a file with this
content and time, the body agreed to replace the target, and the file is
written where the copy lands. -/
structure Copied (env : Environment κ) (cfg cfg' : Config κ γ) (project below : Folder)
    (n : Name .backslash) (t : Node κ γ) (content : γ) (mtime : κ) : Prop where
  raised : cfg.raised = none
  files : cfg.files.head? = some n
  bound : cfg.Bound
  paired : pairing cfg.root = .paired project below
  target_stat : cfg.disk.tree.stat (targetPath project below n) = some t
  source_stat : cfg.disk.tree.stat (sourcePath below n) = some (.file content mtime)
  agreed : ∃ log, Agreed env cfg n t (.file content mtime) log ∧ log <+: cfg'.log
  write : ∃ now, cfg.disk.tree.write
    (cfg.disk.tree.landing (sourcePath below n) (targetPath project below n))
    content mtime now = some cfg'.disk.tree

variable {env : Environment κ} {w : Walk (Name .backslash)} {cfg cfg' : Config κ γ}

theorem Step.matched (hstep : Step env w cfg cfg') (h : cfg.Matched) : cfg'.Matched := by
  cases hstep with
  | ended => exact h
  | @entered d folders =>
      intro hfiles
      rw [← found_pos_iff]
      by_contra hnot
      exact hfiles (if_neg hnot)
  | processed _ hfiles hstep =>
      intro _
      rw [hstep.root_eq]
      exact h.not_free hfiles

/-- A step leaves the disk alone, or copies within the tree. -/
theorem Step.tree (hstep : Step env w cfg cfg') (hmatched : cfg.Matched) :
    cfg'.disk = cfg.disk ∨
      cfg'.disk.elsewhere = cfg.disk.elsewhere ∧
        ∃ project below n t content mtime,
          Copied env cfg cfg' project below n t content mtime := by
  cases hstep with
  | ended => exact .inl rfl
  | entered => exact .inl rfl
  | @processed n files cfg' hraised hfiles hstep =>
      cases hstep with
      | unbound => exact .inl rfl
      | missing => exact .inl rfl
      | sameTime => exact .inl rfl
      | eof => exact .inl rfl
      | declined => exact .inl rfl
      | failed => exact .inl rfl
      | @copied t s log disk hcompared hagreed hcopy =>
          -- the loop body runs only in a matched folder, so the two paths are in the tree
          have hnot : ¬ Free cfg.root := hmatched.not_free hfiles
          obtain ⟨helse, project, below, hpair, hcopied⟩ := copy2_spec hcopy hnot
          obtain ⟨content, mtime, hsource, hwrite⟩ := FileTree.copy2_spec hcopied
          have hts := hcompared.target_stat
          have hss := hcompared.source_stat
          rw [stat_targetOf { cfg with files := files } n hpair] at hts
          rw [stat_sourceOf { cfg with files := files } n hpair, hsource] at hss
          cases hss
          exact .inr ⟨helse, project, below, n, t, content, mtime,
            { raised := hraised
              files := by rw [hfiles]; rfl
              bound := hcompared.bound
              paired := hpair
              target_stat := hts
              source_stat := hsource
              agreed := by
                refine ⟨log, ?_, List.prefix_append _ _⟩
                cases hagreed with
                | older h => exact .older h
                | accepted h hanswer hyes => exact .accepted h hanswer hyes
              write := ⟨_, hwrite⟩ }⟩

/-- What is on the disk after a copy: the file, where the copy landed, and
otherwise what was there. -/
theorem Copied.written {project below : Folder} {n : Name .backslash} {t : Node κ γ}
    {content : γ} {mtime : κ} (h : Copied env cfg cfg' project below n t content mtime) :
    ∃ R, (R = below ∧ t.isDir = false ∨ R = below ++ [n] ∧ t.isDir = true) ∧
      cfg.disk.tree.isDir (targetPath project R n) = false ∧
      cfg'.disk.tree.stat (targetPath project R n) = some (.file content mtime) ∧
      (∀ q, cfg'.disk.tree.isDir q = cfg.disk.tree.isDir q) ∧
      ∀ q, q ≠ targetPath project R n → cfg.disk.tree.isDir q = false →
        cfg'.disk.tree.stat q = cfg.disk.tree.stat q := by
  obtain ⟨now, hwrite⟩ := h.write
  have hkind : cfg.disk.tree.isDir (targetPath project below n) = t.isDir := by
    rw [FileTree.isDir, h.target_stat, Option.any_some]
  rw [landing_targetPath, hkind] at hwrite
  -- a target that is a folder takes the file in under its own name
  cases ht : t.isDir with
  | false =>
      rw [ht, if_neg Bool.false_ne_true] at hwrite
      exact ⟨below, .inl ⟨rfl, rfl⟩, FileTree.write_spec hwrite⟩
  | true =>
      rw [ht, if_pos rfl] at hwrite
      exact ⟨below ++ [n], .inr ⟨rfl, rfl⟩, FileTree.write_spec hwrite⟩

end tree

/-! ## Runs -/

section run

variable [Ring κ] [LinearOrder κ] [FloorRing κ] (env : Environment κ)
  (w : Walk (Name .backslash)) (disk : Disk κ γ)

/-- The state after `k` steps. -/
def run (k : Nat) : Config κ γ := (step env w)^[k] (start w disk)

theorem run_succ (k : Nat) : run env w disk (k + 1) = (run env w disk k).step env w :=
  Function.iterate_succ_apply' _ _ _

theorem step_run (k : Nat) : Step env w (run env w disk k) (run env w disk (k + 1)) := by
  rw [run_succ]
  exact step_spec env w _

/-- What a run keeps of the disk it starts on. -/
structure Follows (disk : Disk κ γ) (cfg : Config κ γ) : Prop where
  matched : cfg.Matched
  elsewhere : cfg.disk.elsewhere = disk.elsewhere
  isDir : ∀ q, cfg.disk.tree.isDir q = disk.tree.isDir q
  isFile : ∀ q, disk.tree.isFile q = true → cfg.disk.tree.isFile q = true

variable {env w disk}

theorem Follows.step {cfg cfg' : Config κ γ} (hstep : Step env w cfg cfg')
    (h : Follows disk cfg) : Follows disk cfg' := by
  rcases hstep.tree h.matched with hsame | ⟨helse, project, below, n, t, content, mtime, hcopied⟩
  · exact ⟨hstep.matched h.matched, by rw [hsame]; exact h.elsewhere,
      by rw [hsame]; exact h.isDir, by rw [hsame]; exact h.isFile⟩
  · obtain ⟨R, -, -, hwritten, hdirs, hframe⟩ := hcopied.written
    refine ⟨hstep.matched h.matched, helse.trans h.elsewhere,
      fun q => (hdirs q).trans (h.isDir q), fun q hq => ?_⟩
    have hfile := h.isFile q hq
    by_cases hqw : q = targetPath project R n
    · subst hqw
      exact FileTree.isFile_iff.mpr ⟨content, mtime, hwritten⟩
    · obtain ⟨c, m, hstat⟩ := FileTree.isFile_iff.mp hfile
      rw [FileTree.isFile, hframe q hqw (FileTree.isDir_of_stat_file hstat)]
      exact hfile

/-- A file stays a file. -/
theorem Step.isFile {cfg cfg' : Config κ γ} (hstep : Step env w cfg cfg')
    (hmatched : cfg.Matched) {q : Folder} (h : cfg.disk.tree.isFile q = true) :
    cfg'.disk.tree.isFile q = true := by
  have hself : Follows cfg.disk cfg := ⟨hmatched, rfl, fun _ => rfl, fun _ h => h⟩
  exact (hself.step hstep).isFile q h

omit [Ring κ] [LinearOrder κ] [FloorRing κ] in
theorem follows_start (w : Walk (Name .backslash)) (disk : Disk κ γ) :
    Follows disk (start w disk) :=
  ⟨matched_start w disk, rfl, fun _ => rfl, fun _ h => h⟩

/-- The rule for what holds along a run whose steps meet a guard: one step keeps
it, from a state the run can be in. -/
theorem run_invariant_of_guard {guard Inv : Config κ γ → Prop}
    (hstep : ∀ cfg cfg', Step env w cfg cfg' → Follows disk cfg → guard cfg → Inv cfg → Inv cfg')
    (hinit : Inv (start w disk)) (k : Nat) (hguard : ∀ j < k, guard (run env w disk j)) :
    Inv (run env w disk k) := by
  have hkeeps : ∀ cfg, guard cfg → Follows disk cfg ∧ Inv cfg →
      Follows disk (cfg.step env w) ∧ Inv (cfg.step env w) :=
    fun cfg hcfg ⟨hfollows, hinv⟩ =>
      ⟨hfollows.step (step_spec env w cfg),
        hstep cfg _ (step_spec env w cfg) hfollows hcfg hinv⟩
  exact (iterate_invariant hkeeps ⟨follows_start w disk, hinit⟩ k hguard).2

/-- The rule for what holds along every run. -/
theorem run_invariant {Inv : Config κ γ → Prop}
    (hstep : ∀ cfg cfg', Step env w cfg cfg' → Follows disk cfg → Inv cfg → Inv cfg')
    (hinit : Inv (start w disk)) (k : Nat) : Inv (run env w disk k) :=
  run_invariant_of_guard (fun cfg cfg' h hfollows (_ : True) hinv => hstep cfg cfg' h hfollows hinv)
    hinit k fun _ _ => trivial

theorem follows_run (env : Environment κ) (w : Walk (Name .backslash)) (disk : Disk κ γ)
    (k : Nat) : Follows disk (run env w disk k) :=
  run_invariant (fun _ _ hstep _ h => h.step hstep) (follows_start w disk) k

/-- The log only grows. -/
theorem Step.log_prefix {cfg cfg' : Config κ γ} (hstep : Step env w cfg cfg') :
    cfg.log <+: cfg'.log := by
  cases hstep with
  | ended => exact List.prefix_rfl
  | entered => exact List.prefix_rfl
  | processed _ _ hstep => exact hstep.log_prefix

/-! ## The end of a run -/

theorem step_of_halted {cfg : Config κ γ} (h : cfg.Halted) : cfg.step env w = cfg := by
  rw [step]
  rcases h with hraised | hdone
  · rw [if_pos hraised]
  · rw [hdone.raised, hdone.files, hdone.folders]
    rfl

/-- The folders left, and the files left in the folder at hand. -/
def remaining (cfg : Config κ γ) : ℕ × ℕ := (cfg.folders.length, cfg.files.length)

/-- A step that is not the last one leaves fewer folders, or fewer files. -/
theorem Step.remaining_lt {cfg cfg' : Config κ γ} (hstep : Step env w cfg cfg')
    (h : ¬ cfg.Halted) :
    Prod.Lex (· < ·) (· < ·) cfg'.remaining cfg.remaining := by
  cases hstep with
  | ended hhalted => exact absurd hhalted h
  | entered _ _ hfolders =>
      refine Prod.Lex.left _ _ ?_
      rw [hfolders]
      exact Nat.lt_succ_self _
  | processed _ hfiles hstep =>
      rw [remaining, remaining, hstep.folders_eq, hstep.files_eq, hfiles]
      exact Prod.Lex.right _ (Nat.lt_succ_self _)

theorem halted_of_step_eq {cfg : Config κ γ} (h : cfg.step env w = cfg) : cfg.Halted := by
  by_contra hnot
  have hdown := (step_spec env w cfg).remaining_lt hnot
  rw [h] at hdown
  exact (Prod.lex Nat.lt_wfRel Nat.lt_wfRel).wf.irrefl.irrefl _ hdown

/-- The script ends, on every disk, in every order and with all answers. -/
theorem exists_halted_run (env : Environment κ) (w : Walk (Name .backslash))
    (disk : Disk κ γ) : ∃ k, (run env w disk k).Halted := by
  obtain ⟨k, hk⟩ := exists_halted (Prod.lex Nat.lt_wfRel Nat.lt_wfRel).wf remaining
    (fun cfg hmoves => (step_spec env w cfg).remaining_lt
      fun hhalted => hmoves (step_of_halted hhalted)) (start w disk)
  exact ⟨k, halted_of_step_eq hk⟩

/-- Nothing happens after the end. -/
theorem run_of_halted {k m : Nat} (h : (run env w disk k).Halted) (hkm : k ≤ m) :
    run env w disk m = run env w disk k := by
  obtain ⟨j, rfl⟩ := Nat.exists_eq_add_of_le' hkm
  exact iterate_add_of_halted (step_of_halted h) j

theorem raised_eq_none_of_le {j k : Nat} (hjk : j ≤ k)
    (h : (run env w disk k).raised = none) : (run env w disk j).raised = none := by
  by_contra hne
  have hsome : (run env w disk j).raised.isSome := Option.isSome_iff_ne_none.mpr hne
  rw [run_of_halted (.inl hsome) hjk] at h
  exact hne h

/-! ## Every file has its turn -/

/-- The next step is the loop body on this file. -/
structure Visits (cfg : Config κ γ) (d : Folder) (n : Name .backslash) : Prop where
  raised : cfg.raised = none
  root : cfg.root = d
  files : cfg.files.head? = some n

omit [Ring κ] [LinearOrder κ] [FloorRing κ] in
theorem Visits.files_eq {cfg : Config κ γ} {d : Folder} {n : Name .backslash}
    (h : cfg.Visits d n) : ∃ files, cfg.files = n :: files :=
  List.head?_eq_some_iff.mp h.files

theorem Visits.fileStep (env : Environment κ) (w : Walk (Name .backslash))
    {cfg : Config κ γ} {d : Folder} {n : Name .backslash} (h : cfg.Visits d n) :
    ∃ files, FileStep env { cfg with files := files } n (cfg.step env w) := by
  obtain ⟨files, hfiles⟩ := h.files_eq
  have hraised : ¬ cfg.raised.isSome = true := by
    rw [h.raised]
    exact Bool.false_ne_true
  have hnext : cfg.step env w = { cfg with files := files }.processFile env n.text := by
    rw [step, if_neg hraised, hfiles]
  rw [hnext]
  exact ⟨files, fileStep_processFile env _ n⟩

/-- A file that lay in a visited folder at the start is still to come, or has
been through the loop body. -/
theorem to_come_or_visited (hw : w.Enumerates disk.tree) {d : Folder} {n : Name .backslash}
    (hd : ¬ Free d) (hfile : disk.tree.isFile (d ++ [n]) = true) (k : Nat)
    (hraised : (run env w disk k).raised = none) :
    d ∈ (run env w disk k).folders ∨
      ((run env w disk k).root = d ∧ n ∈ (run env w disk k).files) ∨
      ∃ j < k, (run env w disk j).Visits d n := by
  -- along the run the file passes from the folders to come, to the files to come, to the past
  induction k with
  | zero =>
      obtain ⟨c, m, hstat⟩ := FileTree.isFile_iff.mp hfile
      have hdir := FileTree.isDir_dropLast (p := d ++ [n]) (by rw [hstat]; rfl)
      rw [List.dropLast_concat] at hdir
      exact .inl ((hw.mem_iff d).mpr hdir)
  | succ k ih =>
      have hbefore := raised_eq_none_of_le k.le_succ hraised
      have hfollows := follows_run env w disk k
      have hstep := step_run env w disk k
      have ih := ih hbefore
      generalize hnext : run env w disk (k + 1) = cfg' at hstep hraised ⊢
      have hlater : (∃ j < k, (run env w disk j).Visits d n) →
          ∃ j < k + 1, (run env w disk j).Visits d n := by
        rintro ⟨j, hj, hvisits⟩
        exact ⟨j, hj.trans k.lt_succ_self, hvisits⟩
      cases hstep with
      | ended =>
          rcases ih with hin | hat | hdone
          · exact .inl hin
          · exact .inr (.inl hat)
          · exact .inr (.inr (hlater hdone))
      | @entered e folders _ hnil hfolders =>
          rcases ih with hin | ⟨-, hmem⟩ | hdone
          · rw [hfolders] at hin
            rcases List.mem_cons.mp hin with rfl | hin
            · -- its folder is entered: no step removes a file, so the listing still has it
              refine .inr (.inl ⟨rfl, ?_⟩)
              have hpos : found (walkRoot d) > 0 := (found_pos_iff d).mpr hd
              simp only [enter, if_pos hpos]
              exact Walk.mem_arrange.mpr (FileTree.mem_fileNames.mpr (hfollows.isFile _ hfile))
            · exact .inl hin
          · rw [hnil] at hmem
            exact absurd hmem List.not_mem_nil
          · exact .inr (.inr (hlater hdone))
      | @processed m files _ _ hfiles hbody =>
          rw [hbody.folders_eq, hbody.root_eq, hbody.files_eq]
          rcases ih with hin | ⟨hroot, hmem⟩ | hdone
          · exact .inl hin
          · rw [hfiles] at hmem
            rcases List.mem_cons.mp hmem with rfl | hmem
            · exact .inr (.inr ⟨k, k.lt_succ_self, hbefore, hroot, by rw [hfiles]; rfl⟩)
            · exact .inr (.inl ⟨hroot, hmem⟩)
          · exact .inr (.inr (hlater hdone))

/-- When the script completes, every such file has been through the loop body. -/
theorem exists_visit (hw : w.Enumerates disk.tree) {d : Folder} {n : Name .backslash}
    (hd : ¬ Free d) (hfile : disk.tree.isFile (d ++ [n]) = true) {k : Nat}
    (hdone : (run env w disk k).Completed) : ∃ j < k, (run env w disk j).Visits d n := by
  rcases to_come_or_visited hw hd hfile k hdone.raised with hin | ⟨-, hmem⟩ | hvisited
  · rw [hdone.folders] at hin
    exact absurd hin List.not_mem_nil
  · rw [hdone.files] at hmem
    exact absurd hmem List.not_mem_nil
  · exact hvisited

end run

end Config

end TraceRecorderTests.Update
