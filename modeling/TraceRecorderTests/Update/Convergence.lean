import TraceRecorderTests.Update.Sync

/-!
# Two runs

On a plain tree the outcome of a run does not depend on the order in which the
file system lists folders and files (`same_outcome_in_any_order`), and a second
run asks again about what was declined in the first and has nothing else to do
(`second_run_is_settled`). Both come down to one project mock: what the script
makes of it depends on its own two copies and the answer alone (`Sync.unique`),
and leaves the times equal unless the user declined (`Sync.again`).
-/

namespace TraceRecorderTests.Update

open TraceRecorderTests.Base

variable {κ γ : Type*}

/-! ## What is compared -/

/-- The same files and folders, contents and times. -/
def Disk.Same (disk disk' : Disk κ γ) : Prop := ∀ path, disk.stat path = disk'.stat path

theorem Disk.same_of_tree {disk disk' : Disk κ γ}
    (htree : ∀ p, disk.tree.stat p = disk'.tree.stat p)
    (helse : disk.elsewhere = disk'.elsewhere) : disk.Same disk' := by
  intro path
  rw [Disk.stat, Disk.stat, helse]
  cases resolve .backslash path with
  | inTree p => exact htree p
  | elsewhere s => rfl

/-- The user was asked about this target. -/
def Prompted (log : List LogEntry) (target : PyStr) : Prop := .warned target ∈ log

/-- The source was copied onto this target. -/
def Updated (log : List LogEntry) (target : PyStr) : Prop := .updating target ∈ log

/-- The user was asked about this target and did not answer `y` or `Y`. -/
def Declined (log : List LogEntry) (target : PyStr) : Prop :=
  ∃ yn, ¬ Accepts yn ∧ [.warned target, .answered yn] <:+: log

theorem Declined.prompted {log : List LogEntry} {target : PyStr} (h : Declined log target) :
    Prompted log target := by
  obtain ⟨yn, -, hinfix⟩ := h
  exact hinfix.subset List.mem_cons_self

theorem not_declined_nil (target : PyStr) : ¬ Declined [] target :=
  fun h => List.not_mem_nil h.prompted

/-- A question, its answer and what the script does then tell of one target. -/
theorem declined_question_iff {asked target yn : PyStr} {entry : LogEntry} :
    Declined [.warned asked, .answered yn, entry] target ↔ target = asked ∧ ¬ Accepts yn := by
  constructor
  · rintro ⟨yn', hno, hinfix⟩
    rcases List.infix_cons_iff.mp hinfix with hfirst | hlater
    · obtain ⟨htarget, hrest⟩ := List.cons_prefix_cons.mp hfirst
      obtain ⟨hanswer, -⟩ := List.cons_prefix_cons.mp hrest
      cases htarget
      cases hanswer
      exact ⟨rfl, hno⟩
    · -- the pair would start with the answer
      have heq := hlater.eq_of_length rfl
      cases heq
  · rintro ⟨rfl, hno⟩
    exact ⟨yn, hno, (List.prefix_append [.warned target, .answered yn] [entry]).isInfix⟩

theorem walkRoot_injective : Function.Injective (@walkRoot .backslash) := by
  intro p q heq
  have hloc := congrArg (resolve .backslash) heq
  rw [resolve_walkRoot, resolve_walkRoot] at hloc
  exact Loc.inTree.inj hloc

/-! ## One project mock -/

section sync

variable [Ring κ] [LinearOrder κ] [FloorRing κ] {allowed allowed' : PyStr → PyStr → Prop}
  {common : Folder → Option (Node κ γ)} {p : Folder} {x y y' z : Option (Node κ γ)}
  {report report' : List LogEntry} {c c' : γ} {t t' : κ}

/-- What the two rounded times decide. -/
theorem Sync.inversion (h : Sync allowed common p (some (.file c t)) y report)
    (hcommon : common p = some (.file c' t')) :
    (roundHalfEven t = roundHalfEven t' ∧ y = some (.file c t) ∧ report = []) ∨
    (roundHalfEven t < roundHalfEven t' ∧ y = some (.file c' t') ∧
      report = [.updating (walkRoot p)]) ∨
    (roundHalfEven t' < roundHalfEven t ∧ ∃ yn, allowed (walkRoot p) yn ∧
      (Accepts yn ∧ y = some (.file c' t') ∧
          report = [.warned (walkRoot p), .answered yn, .updating (walkRoot p)] ∨
        ¬ Accepts yn ∧ y = some (.file c t) ∧
          report = [.warned (walkRoot p), .answered yn, .skipped])) := by
  cases h with
  | sameTime hcommon' hsame =>
      cases hcommon.symm.trans hcommon'
      exact .inl ⟨hsame, rfl, rfl⟩
  | older hcommon' hlt =>
      cases hcommon.symm.trans hcommon'
      exact .inr (.inl ⟨hlt, rfl, rfl⟩)
  | accepted hcommon' hgt hallowed hyes =>
      cases hcommon.symm.trans hcommon'
      exact .inr (.inr ⟨hgt, _, hallowed, .inl ⟨hyes, rfl, rfl⟩⟩)
  | declined hcommon' hgt hallowed hno =>
      cases hcommon.symm.trans hcommon'
      exact .inr (.inr ⟨hgt, _, hallowed, .inr ⟨hno, rfl, rfl⟩⟩)

theorem Sync.of_sameTime (h : Sync allowed common p (some (.file c t)) y report)
    (hcommon : common p = some (.file c' t')) (hsame : roundHalfEven t = roundHalfEven t') :
    y = some (.file c t) ∧ report = [] := by
  rcases h.inversion hcommon with ⟨-, houtcome⟩ | ⟨hlt, -⟩ | ⟨hgt, -⟩
  · exact houtcome
  · exact absurd hsame hlt.ne
  · exact absurd hsame hgt.ne'

theorem Sync.of_older (h : Sync allowed common p (some (.file c t)) y report)
    (hcommon : common p = some (.file c' t')) (hlt : roundHalfEven t < roundHalfEven t') :
    y = some (.file c' t') ∧ report = [.updating (walkRoot p)] := by
  rcases h.inversion hcommon with ⟨hsame, -⟩ | ⟨-, houtcome⟩ | ⟨hgt, -⟩
  · exact absurd hsame hlt.ne
  · exact houtcome
  · exact absurd hlt hgt.not_gt

theorem Sync.of_newer (h : Sync allowed common p (some (.file c t)) y report)
    (hcommon : common p = some (.file c' t')) (hgt : roundHalfEven t' < roundHalfEven t) :
    ∃ yn, allowed (walkRoot p) yn ∧
      (Accepts yn ∧ y = some (.file c' t') ∧
          report = [.warned (walkRoot p), .answered yn, .updating (walkRoot p)] ∨
        ¬ Accepts yn ∧ y = some (.file c t) ∧
          report = [.warned (walkRoot p), .answered yn, .skipped]) := by
  rcases h.inversion hcommon with ⟨hsame, -⟩ | ⟨hlt, -⟩ | ⟨-, houtcome⟩
  · exact absurd hsame hgt.ne'
  · exact absurd hlt hgt.not_gt
  · exact houtcome

/-- Where each target has its answer, the script has no choice. -/
theorem Sync.unique
    (hone : ∀ target yn yn', allowed target yn → allowed target yn' → yn = yn')
    (h : Sync allowed common p x y report) (h' : Sync allowed common p x y' report') :
    y = y' ∧ report = report' := by
  cases h with
  | sameTime hcommon hsame =>
      obtain ⟨rfl, rfl⟩ := h'.of_sameTime hcommon hsame
      exact ⟨rfl, rfl⟩
  | older hcommon hlt =>
      obtain ⟨rfl, rfl⟩ := h'.of_older hcommon hlt
      exact ⟨rfl, rfl⟩
  | accepted hcommon hgt hallowed hyes =>
      obtain ⟨yn, hallowed', houtcome⟩ := h'.of_newer hcommon hgt
      cases hone _ _ _ hallowed hallowed'
      rcases houtcome with ⟨-, rfl, rfl⟩ | ⟨hno, -, -⟩
      · exact ⟨rfl, rfl⟩
      · exact absurd hyes hno
  | declined hcommon hgt hallowed hno =>
      obtain ⟨yn, hallowed', houtcome⟩ := h'.of_newer hcommon hgt
      cases hone _ _ _ hallowed hallowed'
      rcases houtcome with ⟨hyes, -, -⟩ | ⟨-, rfl, rfl⟩
      · exact absurd hyes hno
      · exact ⟨rfl, rfl⟩

/-- The script asks about the mock it is at. -/
theorem Sync.target_eq (h : Sync allowed common p x y report) {target : PyStr}
    (hprompted : Prompted report target) : target = walkRoot p := by
  cases h with
  | sameTime => exact absurd hprompted List.not_mem_nil
  | older => simp [Prompted] at hprompted
  | accepted => simpa [Prompted] using hprompted
  | declined => simpa [Prompted] using hprompted

/-- What it prints does not start with an answer. -/
theorem Sync.head_ne_answered (h : Sync allowed common p x y report) (yn : PyStr) :
    report.head? ≠ some (.answered yn) := by
  cases h <;> exact nofun

/-- A second time the script finds the times equal and goes on, or, if the user
declined, it asks again. -/
theorem Sync.again (h : Sync allowed common p x y report)
    (h' : Sync allowed' common p y z report') :
    (∀ target, ¬ Declined report target) ∧ z = y ∧ report' = [] ∨
      Declined report (walkRoot p) ∧ ∃ yn entry,
        report' = [.warned (walkRoot p), .answered yn, entry] ∧
          (¬ Accepts yn → z = y ∧ entry = .skipped) := by
  cases h with
  | sameTime hcommon hsame => exact .inl ⟨not_declined_nil, h'.of_sameTime hcommon hsame⟩
  | older hcommon =>
      refine .inl ⟨fun target hdeclined => ?_, h'.of_sameTime hcommon rfl⟩
      simpa [Prompted] using hdeclined.prompted
  | accepted hcommon _ _ hyes =>
      refine .inl ⟨fun target hdeclined => ?_, h'.of_sameTime hcommon rfl⟩
      exact (declined_question_iff.mp hdeclined).2 hyes
  | declined hcommon hgt _ hno =>
      refine .inr ⟨declined_question_iff.mpr ⟨rfl, hno⟩, ?_⟩
      obtain ⟨yn, -, ⟨hyes, -, hreport⟩ | ⟨-, rfl, hreport⟩⟩ := h'.of_newer hcommon hgt
      · exact ⟨yn, _, hreport, fun hno' => absurd hyes hno'⟩
      · exact ⟨yn, _, hreport, fun _ => ⟨rfl, rfl⟩⟩

/-- A second time the script asks about what was declined. -/
theorem Sync.prompted_again_iff (h : Sync allowed common p x y report)
    (h' : Sync allowed' common p y z report') (target : PyStr) :
    Prompted report' target ↔ Declined report target := by
  rcases h.again h' with ⟨hnot, -, rfl⟩ | ⟨hdeclined, yn, entry, hreport, -⟩
  · exact iff_of_false List.not_mem_nil (hnot target)
  · constructor
    · intro hprompted
      rwa [h'.target_eq hprompted]
    · intro hdeclined'
      rw [h.target_eq hdeclined'.prompted, hreport]
      exact List.mem_cons_self

/-- A second time the script copies nothing, if the user declines again. -/
theorem Sync.kept_again (h : Sync allowed common p x y report)
    (h' : Sync allowed' common p y z report')
    (hagain : Prompted report' (walkRoot p) → Declined report' (walkRoot p)) :
    z = y ∧ ∀ target, ¬ Updated report' target := by
  rcases h.again h' with ⟨-, rfl, rfl⟩ | ⟨-, yn, entry, rfl, hkept⟩
  · exact ⟨rfl, fun _ => List.not_mem_nil⟩
  · obtain ⟨-, hno⟩ := declined_question_iff.mp (hagain List.mem_cons_self)
    obtain ⟨rfl, rfl⟩ := hkept hno
    exact ⟨rfl, fun target => by simp [Updated]⟩

end sync

/-! ## All project mocks -/

section handled

variable [Ring κ] [LinearOrder κ] [FloorRing κ] {common : Folder → Option (Node κ γ)}
  {before between after : Folder → Option (Node κ γ)} {order order' : List Folder}
  {report report' : Folder → List LogEntry} {log log' : List LogEntry} {target : PyStr}

/-- Each of these mocks has been handled once, with this report, and nothing else
has changed. -/
structure Handled (common before after : Folder → Option (Node κ γ)) (order : List Folder)
    (report : Folder → List LogEntry) (log : List LogEntry) : Prop where
  log_eq : log = order.flatMap report
  sync : ∀ p ∈ order, Sync (fun _ _ => True) common p (before p) (after p) (report p)
  frame : ∀ p, p ∉ order → after p = before p

theorem Handled.prompted_iff (h : Handled common before after order report log) :
    Prompted log target ↔ ∃ p ∈ order, Prompted (report p) target := by
  rw [h.log_eq]
  show .warned target ∈ order.flatMap report ↔ _
  exact List.mem_flatMap

theorem Handled.updated_iff (h : Handled common before after order report log) :
    Updated log target ↔ ∃ p ∈ order, Updated (report p) target := by
  rw [h.log_eq]
  show .updating target ∈ order.flatMap report ↔ _
  exact List.mem_flatMap

theorem Handled.declined_iff (h : Handled common before after order report log) :
    Declined log target ↔ ∃ p ∈ order, Declined (report p) target := by
  have hpair : ∀ yn, [.warned target, .answered yn] <:+: log ↔
      ∃ p ∈ order, [.warned target, .answered yn] <:+: report p := by
    intro yn
    rw [h.log_eq]
    exact pair_infix_flatMap fun p hp => (h.sync p hp).head_ne_answered yn
  constructor
  · rintro ⟨yn, hno, hinfix⟩
    obtain ⟨p, hp, hinfix⟩ := (hpair yn).mp hinfix
    exact ⟨p, hp, yn, hno, hinfix⟩
  · rintro ⟨p, hp, yn, hno, hinfix⟩
    exact ⟨yn, hno, (hpair yn).mpr ⟨p, hp, hinfix⟩⟩

/-- A second time the questions are about what was declined. -/
theorem Handled.prompted_again_iff (h : Handled common before between order report log)
    (h' : Handled common between after order' report' log')
    (hitems : ∀ p, p ∈ order' ↔ p ∈ order) : Prompted log' target ↔ Declined log target := by
  rw [h'.prompted_iff, h.declined_iff]
  refine exists_congr fun p => ?_
  rw [hitems]
  refine and_congr_right fun hp => ?_
  exact (h.sync p hp).prompted_again_iff (h'.sync p ((hitems p).mpr hp)) target

/-- A second time nothing is copied, if all that is asked about is declined. -/
theorem Handled.kept_again (h : Handled common before between order report log)
    (h' : Handled common between after order' report' log')
    (hitems : ∀ p, p ∈ order' ↔ p ∈ order)
    (hagain : ∀ target, Prompted log' target → Declined log' target) :
    (∀ p, after p = between p) ∧ ∀ target, ¬ Updated log' target := by
  have hkept : ∀ p ∈ order', after p = between p ∧ ∀ target, ¬ Updated (report' p) target := by
    intro p hp
    refine (h.sync p ((hitems p).mp hp)).kept_again (h'.sync p hp) fun hprompted => ?_
    have hdeclined := hagain _ (h'.prompted_iff.mpr ⟨p, hp, hprompted⟩)
    obtain ⟨q, hq, hdeclined⟩ := h'.declined_iff.mp hdeclined
    -- no other mock has this target
    cases walkRoot_injective ((h'.sync q hq).target_eq hdeclined.prompted)
    exact hdeclined
  constructor
  · intro p
    by_cases hp : p ∈ order'
    · exact (hkept p hp).1
    · exact h'.frame p hp
  · intro target hupdated
    obtain ⟨p, hp, hupdated⟩ := h'.updated_iff.mp hupdated
    exact (hkept p hp).2 target hupdated

end handled

/-! ## Runs -/

section runs

variable [Ring κ] [LinearOrder κ] [FloorRing κ] {env env' : Environment κ}
  {w w' : Walk (Name .backslash)} {disk : Disk κ γ}

namespace Config

/-- With one answer for each target the run completes, as a pass in which the
script has no choice. -/
theorem exists_answered_pass {answers : PyStr → PyStr} (hplain : Plain disk.tree)
    (hw : w.Enumerates disk.tree)
    (hanswers : ∀ log target, env.answer (log ++ [.warned target]) = some (answers target)) :
    ∃ k, (run env w disk k).Completed ∧
      ∃ order, order.Nodup ∧ (∀ p, p ∈ order ↔ ProjectMock disk.tree p) ∧
        Pass (Sync (fun target yn => answers target = yn) (commonOf disk.tree)) disk.tree.stat
          order (run env w disk k).disk.tree.stat (run env w disk k).log := by
  have hsome : env.Answers := by
    intro log target
    rw [hanswers, Option.isSome_some]
  have hallowed : ∀ log target yn, env.answer (log ++ [.warned target]) = some yn →
      answers target = yn := by
    intro log target yn hanswer
    exact Option.some.inj ((hanswers log target).symm.trans hanswer)
  obtain ⟨k, hdone⟩ := exists_completed_run hplain hw hsome
  exact ⟨k, hdone, completed_pass hplain hw hallowed hdone⟩

/-- Whatever two runs on one plain tree list first: if each target gets the same
answer in both, both complete, with the same files and folders, and have copied
onto the same targets and asked about the same. -/
theorem same_outcome_in_any_order {answers : PyStr → PyStr} (hplain : Plain disk.tree)
    (hw : w.Enumerates disk.tree) (hw' : w'.Enumerates disk.tree)
    (hanswers : ∀ log target, env.answer (log ++ [.warned target]) = some (answers target))
    (hanswers' : ∀ log target, env'.answer (log ++ [.warned target]) = some (answers target)) :
    ∃ k k', (run env w disk k).Completed ∧ (run env' w' disk k').Completed ∧
      (run env w disk k).disk.Same (run env' w' disk k').disk ∧
      (∀ target, Updated (run env w disk k).log target ↔
        Updated (run env' w' disk k').log target) ∧
      ∀ target, Prompted (run env w disk k).log target ↔
        Prompted (run env' w' disk k').log target := by
  obtain ⟨k, hdone, order, hnodup, hmem, hpass⟩ := exists_answered_pass hplain hw hanswers
  obtain ⟨k', hdone', order', hnodup', hmem', hpass'⟩ :=
    exists_answered_pass hplain hw' hanswers'
  -- both are passes over the project mocks, and handling one has a single outcome
  have hitems : ∀ p, p ∈ order ↔ p ∈ order' := fun p => (hmem p).trans (hmem' p).symm
  obtain ⟨hcells, hlogs⟩ := hpass.unique
    (fun _ _ _ _ _ _ h h' => h.unique (fun _ _ _ heq heq' => heq.symm.trans heq') h')
    hpass' hnodup hnodup' hitems
  have helse := (follows_run env w disk k).elsewhere.trans
    (follows_run env' w' disk k').elsewhere.symm
  exact ⟨k, k', hdone, hdone', Disk.same_of_tree (congrFun hcells) helse,
    fun _ => hlogs.mem_iff, fun _ => hlogs.mem_iff⟩

/-- A completed run has handled all project mocks. -/
theorem completed_run (hplain : Plain disk.tree) (hw : w.Enumerates disk.tree) {k : Nat}
    (hdone : (run env w disk k).Completed) :
    ∃ order report, (∀ p, p ∈ order ↔ ProjectMock disk.tree p) ∧
      Handled (commonOf disk.tree) disk.tree.stat (run env w disk k).disk.tree.stat order
        report (run env w disk k).log := by
  obtain ⟨order, hnodup, hmem, hpass⟩ :=
    completed_pass hplain hw (fun _ _ _ _ => trivial) hdone
  obtain ⟨report, hlog, hreport⟩ := hpass.spec hnodup
  exact ⟨order, report, hmem, hlog, hreport, fun p hp => hpass.frame hp⟩

/-- A completed run leaves the files files, and the common copies as they were. -/
theorem completed_run_keeps (hplain : Plain disk.tree) (hw : w.Enumerates disk.tree) {k : Nat}
    (hdone : (run env w disk k).Completed) :
    (∀ q, (run env w disk k).disk.tree.isFile q = disk.tree.isFile q) ∧
      commonOf (run env w disk k).disk.tree = commonOf disk.tree := by
  obtain ⟨order, report, hmem, hhandled⟩ := completed_run hplain hw hdone
  constructor
  · intro q
    by_cases hq : q ∈ order
    · obtain ⟨project, m, -, -, hfile⟩ := (hmem q).mp hq
      rw [hfile, (follows_run env w disk k).isFile q hfile]
    · rw [FileTree.isFile, hhandled.frame q hq, FileTree.isFile]
  · have hcommon : ∀ m, (run env w disk k).disk.tree.stat (commonCopy m) =
        disk.tree.stat (commonCopy m) := by
      intro m
      refine hhandled.frame _ fun hm => ?_
      obtain ⟨project, n, -, heq, -⟩ := (hmem _).mp hm
      exact targetPath_ne_commonCopy project [] n m heq.symm
    funext p
    simp only [commonOf, hcommon]

/-- What a second run does about what the first one left. -/
structure Settled (first second : Config κ γ) : Prop where
  prompts : ∀ target, Prompted second.log target ↔ Declined first.log target
  declined_again : (∀ target, Prompted second.log target → Declined second.log target) →
    (∀ target, ¬ Updated second.log target) ∧ second.disk.Same first.disk
  nothing_declined : (∀ target, ¬ Declined first.log target) →
    (∀ target, ¬ Prompted second.log target) ∧ ∀ target, ¬ Updated second.log target

theorem settled_of_completed (hplain : Plain disk.tree) (hw : w.Enumerates disk.tree)
    (hw' : w'.Enumerates disk.tree) {k k' : Nat} (hdone : (run env w disk k).Completed)
    (hdone' : (run env' w' (run env w disk k).disk k').Completed) :
    Settled (run env w disk k) (run env' w' (run env w disk k).disk k') := by
  have hdirs := (follows_run env w disk k).isDir
  obtain ⟨hfiles, hcommon⟩ := completed_run_keeps hplain hw hdone
  obtain ⟨order, report, hmem, hfirst⟩ := completed_run hplain hw hdone
  obtain ⟨order', report', hmem', hsecond⟩ :=
    completed_run (hplain.congr hdirs hfiles) (hw'.congr hdirs) hdone'
  have hitems : ∀ p, p ∈ order' ↔ p ∈ order := by
    intro p
    rw [hmem', hmem, projectMock_congr hfiles]
  rw [hcommon] at hsecond
  refine ⟨fun _ => hfirst.prompted_again_iff hsecond hitems, fun hagain => ?_, fun hnone => ?_⟩
  · obtain ⟨hkept, hnot⟩ := hfirst.kept_again hsecond hitems hagain
    exact ⟨hnot, Disk.same_of_tree hkept (follows_run env' w' _ k').elsewhere⟩
  · have hquiet : ∀ target,
        ¬ Prompted (run env' w' (run env w disk k).disk k').log target := by
      intro target hprompted
      exact hnone target ((hfirst.prompted_again_iff hsecond hitems).mp hprompted)
    exact ⟨hquiet, (hfirst.kept_again hsecond hitems fun target hprompted =>
      absurd hprompted (hquiet target)).2⟩

/-- One run settles a plain tree, whatever the user answers and in whatever order
the files come: with an answer to each question both runs complete, and the
second, on the disk the first leaves, asks about exactly what was declined. -/
theorem second_run_is_settled (hplain : Plain disk.tree) (hw : w.Enumerates disk.tree)
    (hw' : w'.Enumerates disk.tree) :
    (env.Answers → ∃ k, (run env w disk k).Completed) ∧
      ∀ k, (run env w disk k).Completed →
        (env'.Answers → ∃ k', (run env' w' (run env w disk k).disk k').Completed) ∧
          ∀ k', (run env' w' (run env w disk k).disk k').Completed →
            Settled (run env w disk k) (run env' w' (run env w disk k).disk k') := by
  refine ⟨exists_completed_run hplain hw, fun k hdone => ⟨?_, fun k' hdone' => ?_⟩⟩
  · have hdirs := (follows_run env w disk k).isDir
    have hfiles := (completed_run_keeps hplain hw hdone).1
    exact exists_completed_run (hplain.congr hdirs hfiles) (hw'.congr hdirs)
  · exact settled_of_completed hplain hw hw' hdone hdone'

end Config

end runs

/-! ## A tree with two projects -/

/-- The name of another project. -/
def streamPortTest : Name .backslash := ⟨"UnitTest_trcStreamPort".toList, by decide⟩

/-- One mock and two projects: one has an older copy, the other a newer one. -/
def twoProjects : Disk ℤ ℤ where
  tree :=
    { nodes := List.toAList
        [⟨[], .dir 0⟩, ⟨[unitTestMocks], .dir 0⟩, ⟨commonCopy header, .file 1 100⟩,
          ⟨[unitTest], .dir 0⟩, ⟨[unitTest, mocksName], .dir 0⟩,
          ⟨projectCopy [unitTest] header, .file 2 50⟩,
          ⟨[streamPortTest], .dir 0⟩, ⟨[streamPortTest, mocksName], .dir 0⟩,
          ⟨projectCopy [streamPortTest] header, .file 3 200⟩]
      root_isDir := rfl
      parent_isDir := List.all_eq_true.mp rfl }
  elsewhere _ := none

/-- An order in which `os.walk` can go through it. -/
def twoProjectsWalk : Walk (Name .backslash) :=
  .inOrder [[], [unitTestMocks], [unitTest], [unitTest, mocksName], [streamPortTest],
    [streamPortTest, mocksName]]

/-- And another one. -/
def twoProjectsWalkBack : Walk (Name .backslash) :=
  .inOrder [[], [streamPortTest], [streamPortTest, mocksName], [unitTest],
    [unitTest, mocksName], [unitTestMocks]]

theorem twoProjectsWalk_enumerates : twoProjectsWalk.Enumerates twoProjects.tree where
  starts_at_root := rfl
  nodup := by decide
  mem_iff := Walk.mem_folders_iff rfl rfl
  preorder := by decide

theorem twoProjectsWalkBack_enumerates : twoProjectsWalkBack.Enumerates twoProjects.tree where
  starts_at_root := rfl
  nodup := by decide
  mem_iff := Walk.mem_folders_iff rfl rfl
  preorder := by decide

theorem twoProjects_plain : Plain twoProjects.tree :=
  plain_of_all rfl (counterpartsExist_of_all rfl)

/-- A user who answers `n` to every prompt. -/
def declineAll : Environment ℤ := ⟨fun _ => some ['n'], fun _ => 0⟩

/-- The two orders lead to the same files. -/
theorem same_outcome_in_any_order_two :
    (Config.run declineAll twoProjectsWalk twoProjects 8).disk.Same
      (Config.run declineAll twoProjectsWalkBack twoProjects 8).disk := by
  have hdone : (Config.run declineAll twoProjectsWalk twoProjects 8).Completed := by decide
  have hdone' : (Config.run declineAll twoProjectsWalkBack twoProjects 8).Completed := by decide
  have hanswers : ∀ log target, declineAll.answer (log ++ [.warned target]) =
      some ((fun _ => ['n'] : PyStr → PyStr) target) := fun _ _ => rfl
  obtain ⟨k, k', hk, hk', hsame, -⟩ := Config.same_outcome_in_any_order twoProjects_plain
    twoProjectsWalk_enumerates twoProjectsWalkBack_enumerates hanswers hanswers
  have hlast : Config.run declineAll twoProjectsWalk twoProjects k =
      Config.run declineAll twoProjectsWalk twoProjects 8 :=
    halted_unique (Config.step_of_halted (.inr hk)) (Config.step_of_halted (.inr hdone))
  have hlast' : Config.run declineAll twoProjectsWalkBack twoProjects k' =
      Config.run declineAll twoProjectsWalkBack twoProjects 8 :=
    halted_unique (Config.step_of_halted (.inr hk')) (Config.step_of_halted (.inr hdone'))
  rwa [hlast, hlast'] at hsame

/-- The second run, in the other order, finds what the first was told to leave. -/
theorem second_run_is_settled_two :
    Config.Settled (Config.run declineAll twoProjectsWalk twoProjects 8)
      (Config.run acceptAll twoProjectsWalkBack
        (Config.run declineAll twoProjectsWalk twoProjects 8).disk 8) := by
  have hdone : (Config.run declineAll twoProjectsWalk twoProjects 8).Completed := by decide
  have hdone' : (Config.run acceptAll twoProjectsWalkBack
      (Config.run declineAll twoProjectsWalk twoProjects 8).disk 8).Completed := by decide
  exact ((Config.second_run_is_settled twoProjects_plain twoProjectsWalk_enumerates
    twoProjectsWalkBack_enumerates).2 8 hdone).2 8 hdone'

end TraceRecorderTests.Update
