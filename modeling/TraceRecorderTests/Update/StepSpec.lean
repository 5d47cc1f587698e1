import TraceRecorderTests.Base.Iteration
import TraceRecorderTests.Update.Pairing

/-!
# What a step can do

`step_spec` says once what a step of the script does: nothing after the end,
the entry of a folder, or the loop body on a file, which has seven outcomes.
`Step.tree` in the module on runs reads it on the tree: a step leaves the tree
alone or writes the paired source file, in which case the target was older or its
owner agreed.
-/

namespace TraceRecorderTests.Update

open TraceRecorderTests.Base

variable {κ γ : Type*}

namespace Config

/-- The target string of a file in the folder the script is in. -/
def targetOf (cfg : Config κ γ) (n : Name .backslash) : PyStr :=
  targetString .backslash (walkRoot cfg.root) n.text

/-- The source string of a file in the folder the script is in. -/
def sourceOf (cfg : Config κ γ) (n : Name .backslash) : PyStr :=
  sourceString .backslash (walkRoot cfg.root) n.text

/-- The body has bound `target`. -/
def bindTarget (cfg : Config κ γ) (n : Name .backslash) : Config κ γ :=
  { cfg with target := some (cfg.targetOf n) }

/-- The name `target` can be read where the branch of nested folders reads it. -/
def Bound (cfg : Config κ γ) : Prop := ¬ (Nested (walkRoot cfg.root) ∧ cfg.target = none)

instance (cfg : Config κ γ) : Decidable cfg.Bound := inferInstanceAs (Decidable (¬ _))

/-- The body gets as far as the two times. -/
structure Compared (cfg : Config κ γ) (n : Name .backslash) (t s : Node κ γ) : Prop where
  bound : cfg.Bound
  target_stat : cfg.disk.stat (cfg.targetOf n) = some t
  source_stat : cfg.disk.stat (cfg.sourceOf n) = some s

variable [Ring κ] [LinearOrder κ] [FloorRing κ]

/-- The body gets as far as the copy, with this log: the target is older, or it
is newer and the user accepted. -/
inductive Agreed (env : Environment κ) (cfg : Config κ γ) (n : Name .backslash)
    (t s : Node κ γ) : List LogEntry → Prop
  | older (h : roundHalfEven t.mtime < roundHalfEven s.mtime) : Agreed env cfg n t s cfg.log
  | accepted {yn : PyStr} (h : roundHalfEven s.mtime < roundHalfEven t.mtime)
      (hanswer : env.answer (cfg.log ++ [.warned (cfg.targetOf n)]) = some yn)
      (hyes : Accepts yn) :
      Agreed env cfg n t s (cfg.log ++ [.warned (cfg.targetOf n)] ++ [.answered yn])

/-- The outcomes of the loop body. -/
inductive FileStep (env : Environment κ) (cfg : Config κ γ) (n : Name .backslash) :
    Config κ γ → Prop
  | unbound (h : ¬ cfg.Bound) : FileStep env cfg n (cfg.raise .nameError)
  | missing {path : PyStr} (hbound : cfg.Bound)
      (hpath : path = cfg.targetOf n ∨ path = cfg.sourceOf n)
      (hstat : cfg.disk.stat path = none) :
      FileStep env cfg n ((cfg.bindTarget n).raise (.fileNotFound path))
  | sameTime {t s : Node κ γ} (hcompared : cfg.Compared n t s)
      (h : roundHalfEven t.mtime = roundHalfEven s.mtime) :
      FileStep env cfg n (cfg.bindTarget n)
  | eof {t s : Node κ γ} (hcompared : cfg.Compared n t s)
      (h : roundHalfEven s.mtime < roundHalfEven t.mtime)
      (hanswer : env.answer (cfg.log ++ [.warned (cfg.targetOf n)]) = none) :
      FileStep env cfg n
        (((cfg.bindTarget n).print (.warned (cfg.targetOf n))).raise .eof)
  | declined {t s : Node κ γ} {yn : PyStr} (hcompared : cfg.Compared n t s)
      (h : roundHalfEven s.mtime < roundHalfEven t.mtime)
      (hanswer : env.answer (cfg.log ++ [.warned (cfg.targetOf n)]) = some yn)
      (hno : ¬ Accepts yn) :
      FileStep env cfg n
        ((((cfg.bindTarget n).print (.warned (cfg.targetOf n))).print (.answered yn)).print
          .skipped)
  | failed {t s : Node κ γ} {log : List LogEntry} (hcompared : cfg.Compared n t s)
      (hagreed : Agreed env cfg n t s log)
      (hcopy : cfg.disk.copy2 (cfg.sourceOf n) (cfg.targetOf n)
        (env.clock (log ++ [.updating (cfg.targetOf n)])) = none) :
      FileStep env cfg n
        (({ cfg.bindTarget n with log := log }.print (.updating (cfg.targetOf n))).raise
          .ioError)
  | copied {t s : Node κ γ} {log : List LogEntry} {disk : Disk κ γ}
      (hcompared : cfg.Compared n t s) (hagreed : Agreed env cfg n t s log)
      (hcopy : cfg.disk.copy2 (cfg.sourceOf n) (cfg.targetOf n)
        (env.clock (log ++ [.updating (cfg.targetOf n)])) = some disk) :
      FileStep env cfg n
        { { cfg.bindTarget n with log := log }.print (.updating (cfg.targetOf n)) with
          disk := disk }

/-- The last two statements copy or fail. -/
theorem fileStep_update {env : Environment κ} {cfg : Config κ γ} {n : Name .backslash}
    {t s : Node κ γ} {log : List LogEntry} (hcompared : cfg.Compared n t s)
    (hagreed : Agreed env cfg n t s log) :
    FileStep env cfg n
      ({ cfg.bindTarget n with log := log }.update env (cfg.targetOf n) (cfg.sourceOf n)) := by
  cases hcopy : cfg.disk.copy2 (cfg.sourceOf n) (cfg.targetOf n)
      (env.clock (log ++ [.updating (cfg.targetOf n)])) with
  | none =>
      have hstep := FileStep.failed hcompared hagreed hcopy
      simpa only [update, print, raise, bindTarget, hcopy] using hstep
  | some disk =>
      have hstep := FileStep.copied hcompared hagreed hcopy
      simpa only [update, print, bindTarget, hcopy] using hstep

theorem fileStep_compare {env : Environment κ} {cfg : Config κ γ} {n : Name .backslash}
    {t s : Node κ γ} (hcompared : cfg.Compared n t s) :
    FileStep env cfg n
      ((cfg.bindTarget n).compare env (cfg.targetOf n) (cfg.sourceOf n)
        (roundHalfEven t.mtime) (roundHalfEven s.mtime)) := by
  -- `continue` on equal times, the question on a newer target, else the update
  rcases lt_trichotomy (roundHalfEven t.mtime) (roundHalfEven s.mtime) with hlt | heq | hgt
  · rw [compare, if_neg hlt.ne, if_neg hlt.not_gt]
    exact fileStep_update hcompared (.older hlt)
  · rw [compare, if_pos heq]
    exact .sameTime hcompared heq
  · rw [compare, if_neg hgt.ne', if_pos hgt]
    cases hanswer : env.answer (cfg.log ++ [.warned (cfg.targetOf n)]) with
    | none =>
        have hstep := FileStep.eof hcompared hgt hanswer
        simpa only [print, bindTarget, hanswer] using hstep
    | some yn =>
        by_cases hyes : Accepts yn
        · have hstep := fileStep_update hcompared (.accepted hgt hanswer hyes)
          simpa only [print, bindTarget, hanswer, hyes, not_true, if_false] using hstep
        · have hstep := FileStep.declined hcompared hgt hanswer hyes
          simpa only [print, bindTarget, hanswer, hyes, not_false_eq_true, if_true] using hstep

/-- The loop body, in terms of the strings and the state it has made. -/
theorem processFile_of_bound {env : Environment κ} {cfg : Config κ γ} {n : Name .backslash}
    (hbound : cfg.Bound) :
    cfg.processFile env n.text =
      match cfg.disk.stat (cfg.targetOf n) with
      | none => (cfg.bindTarget n).raise (.fileNotFound (cfg.targetOf n))
      | some t =>
          match cfg.disk.stat (cfg.sourceOf n) with
          | none => (cfg.bindTarget n).raise (.fileNotFound (cfg.sourceOf n))
          | some s =>
              (cfg.bindTarget n).compare env (cfg.targetOf n) (cfg.sourceOf n)
                (roundHalfEven t.mtime) (roundHalfEven s.mtime) := by
  rw [processFile, computePaths_of_bound .backslash hbound]
  rfl

/-- The loop body where the name `target` cannot be read. -/
theorem processFile_of_not_bound {env : Environment κ} {cfg : Config κ γ} {n : Name .backslash}
    (hbound : ¬ cfg.Bound) : cfg.processFile env n.text = cfg.raise .nameError := by
  obtain ⟨hnested, hnone⟩ := not_not.mp hbound
  rw [processFile, hnone, computePaths_of_unbound .backslash hnested]

/-- The loop body has one of its outcomes. -/
theorem fileStep_processFile (env : Environment κ) (cfg : Config κ γ) (n : Name .backslash) :
    FileStep env cfg n (cfg.processFile env n.text) := by
  by_cases hbound : cfg.Bound
  · rw [processFile_of_bound hbound]
    cases ht : cfg.disk.stat (cfg.targetOf n) with
    | none => exact .missing hbound (.inl rfl) ht
    | some t =>
        cases hs : cfg.disk.stat (cfg.sourceOf n) with
        | none => exact .missing hbound (.inr rfl) hs
        | some s => exact fileStep_compare ⟨hbound, ht, hs⟩
  · rw [processFile_of_not_bound hbound]
    exact .unbound hbound

/-- The steps of the run. -/
inductive Step (env : Environment κ) (w : Walk (Name .backslash)) (cfg : Config κ γ) :
    Config κ γ → Prop
  | ended (h : cfg.Halted) : Step env w cfg cfg
  | entered {d : Folder} {folders : List Folder} (hraised : cfg.raised = none)
      (hfiles : cfg.files = []) (hfolders : cfg.folders = d :: folders) :
      Step env w cfg ({ cfg with folders := folders }.enter w d)
  | processed {n : Name .backslash} {files : List (Name .backslash)} {cfg' : Config κ γ}
      (hraised : cfg.raised = none) (hfiles : cfg.files = n :: files)
      (hstep : FileStep env { cfg with files := files } n cfg') : Step env w cfg cfg'

/-- A step of the script is one of these. -/
theorem step_spec (env : Environment κ) (w : Walk (Name .backslash)) (cfg : Config κ γ) :
    Step env w cfg (cfg.step env w) := by
  rw [step]
  split
  · next hraised => exact .ended (.inl hraised)
  · next hraised =>
      have hnone : cfg.raised = none := by simpa using hraised
      cases hfiles : cfg.files with
      | cons n files => exact .processed hnone hfiles (fileStep_processFile env _ n)
      | nil =>
          cases hfolders : cfg.folders with
          | cons d folders => exact .entered hnone hfiles hfolders
          | nil => exact .ended (.inr ⟨hnone, hfiles, hfolders⟩)

end Config

end TraceRecorderTests.Update
