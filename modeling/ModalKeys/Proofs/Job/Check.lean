import ModalKeys.Proofs.Job.Basic

/-!
Checking interprets the file that loading would load, without a keymap, and tells nothing else than
loading does. Both read once, from the same folder at the same path, and a failure ends both alike.
A text gives both the same interpretation, and a pass into a keymap refuses none of its requests, so
that the report has all of it.
-/

namespace ModalKeys.Job

variable {files : FileTree} {s : Settings} {text : String} {e : SourceError}

/-! ### Two jobs that read the same file -/

/-- The job with a task of its own, asked for JSON or not. It works with the same settings, and it
reads from the same folder. -/
def ask (job : Job) (task : Task) (json : Bool) : Job :=
  { job with task := task, json := json }

theorem run_ask_load (job : Job) (files : FileTree) (env : Environment) (json : Bool) :
    (job.ask .load json).run files env =
      ((job.ask .load json).runLoad files (job.settings files env).1).after
        (job.settings files env).2 :=
  rfl

theorem run_ask_check (job : Job) (files : FileTree) (env : Environment) (json : Bool) :
    (job.ask .check json).run files env =
      ((job.ask .check json).runCheck files (job.settings files env).1).after
        (job.settings files env).2 :=
  rfl

theorem run_ask_of_unread (job : Job) (env : Environment)
    (unread : ((Folder.mk job.root files).read
      (job.settings files env).1.directivePath).outcome = .error e)
    (task : Task) (either : task ∈ [Task.load, .check]) (json : Bool) :
    ((job.ask task json).run files env).outcome = .ok 1 ∧
    ((job.ask task json).run files env).stdout = (PassError.sourceFailed e).notice ++ "\n" := by
  simp only [List.mem_cons, List.not_mem_nil, or_false] at either
  rcases either with rfl | rfl
  · rw [run_ask_load, Ran.outcome_after, Ran.stdout_after]
    exact runLoad_of_unread (job.ask .load json) unread
  · rw [run_ask_check, Ran.outcome_after, Ran.stdout_after]
    exact runCheck_of_unread (job.ask .check json) unread

theorem run_ask_load_of_read (job : Job) (env : Environment)
    (read : ((Folder.mk job.root files).read
      (job.settings files env).1.directivePath).outcome = .ok text) (json : Bool) :
    let i := interpret text
    let path := (job.settings files env).1.directivePath
    let report : Report := ⟨path, i.lineCount, i.requests, i.diagnostics⟩
    let keymap := loadedKeymap text
    ((job.ask .load json).run files env).outcome = .ok 0 ∧
    ((job.ask .load json).run files env).stdout =
      if json then (loadedJson report keymap).pretty ++ "\n" else loadedText report keymap := by
  intro i path report keymap
  obtain ⟨state, answer⟩ := loadPass_of_read (job.ask .load json) read
  rw [run_ask_load, Ran.outcome_after, Ran.stdout_after]
  exact runLoad_of_loadPass state answer

theorem run_ask_check_of_read (job : Job) (env : Environment)
    (read : ((Folder.mk job.root files).read
      (job.settings files env).1.directivePath).outcome = .ok text) (json : Bool) :
    let i := interpret text
    let path := (job.settings files env).1.directivePath
    ((job.ask .check json).run files env).outcome = .ok (if i.problemCount = 0 then 0 else 1) ∧
    ((job.ask .check json).run files env).stdout =
      if json then i.toJson.pretty ++ "\n" else checkedText path i := by
  intro i path
  rw [run_ask_check, Ran.outcome_after, Ran.stdout_after]
  exact runCheck_of_read (job.ask .check json) read

theorem files_run_ask (job : Job) (files : FileTree) (env : Environment) (task : Task)
    (either : task ∈ [Task.load, .check]) (json : Bool) :
    ((job.ask task json).run files env).files = files := by
  have reads : task.operand? = none := by
    simp only [List.mem_cons, List.not_mem_nil, or_false] at either
    rcases either with rfl | rfl <;> rfl
  rw [run, Ran.files_after]
  exact files_act reads _ _

/-- **Checking agrees with loading.** Either neither job can read the file, and both end with exit
code 1 after the same notice, or both have read the same text. Then loading ends with 0, and
checking prints the requests, the diagnostics and the line count of the report of loading; it ends
with 0 exactly when the report has no skipped line. JSON changes no exit code, and neither job
changes a file. -/
theorem check_agrees_with_load (job : Job) (files : FileTree) (env : Environment) :
    let ran (task : Task) (json : Bool) := (job.ask task json).run files env
    let s := (job.settings files env).1
    let pass := job.loadPass files s
    let read := (Folder.mk job.root files).read s.directivePath
    ((∃ e, read.outcome = .error e ∧ pass.answer = .error (.sourceFailed e) ∧
        ∀ task ∈ [Task.load, .check], ∀ json,
          (ran task json).outcome = .ok 1 ∧
          (ran task json).stdout = (PassError.sourceFailed e).notice ++ "\n") ∨
      ∃ text report keymap, let i := interpret text
        read.outcome = .ok text ∧ pass.answer = .ok report ∧ pass.host.engine = some keymap ∧
        s.directivePath = report.path ∧ i.requests = report.applied ∧
        i.diagnostics = report.diagnostics ∧ i.lineCount = report.lineCount ∧
        i.problemCount = report.skipped ∧
        ∀ json,
          (ran .load json).outcome = .ok 0 ∧
          (ran .load json).stdout =
            (if json then (loadedJson report keymap).pretty ++ "\n"
              else loadedText report keymap) ∧
          (ran .check json).outcome = .ok (if report.skipped = 0 then 0 else 1) ∧
          (ran .check json).stdout =
            let told : Interpretation := ⟨report.applied, report.diagnostics, report.lineCount⟩
            if json then told.toJson.pretty ++ "\n" else checkedText report.path told) ∧
    ∀ task ∈ [Task.load, .check],
      (ran task true).outcome = (ran task false).outcome ∧
      ∀ json, (ran task json).files = files := by
  intro ran s pass read
  cases outcome : read.outcome with
  | error e =>
    -- neither job gets any further than the failure
    have failed := run_ask_of_unread job env outcome
    refine ⟨.inl ⟨e, rfl, loadPass_of_unread job outcome, failed⟩, ?_⟩
    intro task either
    refine ⟨?_, files_run_ask job files env task either⟩
    exact (failed task either true).1.trans (failed task either false).1.symm
  | ok text =>
    obtain ⟨state, answer⟩ := loadPass_of_read job outcome
    -- what is skipped is counted in the report as in the interpretation
    have skipped : (interpret text).problemCount =
        (interpret text).diagnostics.countP Diagnostic.isProblem :=
      List.countP_eq_length_filter.symm
    have loaded := run_ask_load_of_read job env outcome
    have checked := run_ask_check_of_read job env outcome
    refine ⟨.inr ⟨text, _, _, rfl, answer, state, rfl, rfl, rfl, rfl, skipped, fun json => ?_⟩, ?_⟩
    · rw [Report.skipped, ← skipped]
      exact ⟨(loaded json).1, (loaded json).2, (checked json).1, (checked json).2⟩
    · intro task either
      refine ⟨?_, files_run_ask job files env task either⟩
      simp only [List.mem_cons, List.not_mem_nil, or_false] at either
      rcases either with rfl | rfl
      · exact (loaded true).1.trans (loaded false).1.symm
      · exact (checked true).1.trans (checked false).1.symm

end ModalKeys.Job
