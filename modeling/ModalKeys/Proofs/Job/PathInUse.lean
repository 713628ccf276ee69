import ModalKeys.CommandLine.Reading
import ModalKeys.Proofs.Job.Basic
import ModalKeys.Proofs.Settings.RoundTrip

/-!
A directive path comes from the settings file, from the default, from the operand of a task or from
the option for one run. All of these are kept from being blank but the last, which is taken as it
is given.
-/

namespace ModalKeys

namespace Job

/-- The directive path that a job works with: the one that it saves, or else the one of its
settings. -/
def pathInUse (job : Job) (files : FileTree) (env : Environment) : String :=
  match job.task with
  | .setPath path => trimmed path
  | .load | .check | .showConfig => (job.settings files env).1.directivePath

variable {job : Job} {files : FileTree} {env : Environment} {path : String}

theorem pathInUse_of_setPath (asked : job.task = .setPath path) :
    job.pathInUse files env = trimmed path := by
  rw [pathInUse, asked]

theorem pathInUse_of_reads (reads : job.task.operand? = none) :
    job.pathInUse files env = (job.settings files env).1.directivePath := by
  unfold pathInUse
  cases task : job.task with
  | setPath path => simp [task, Task.operand?] at reads
  | _ => rfl

theorem settings_of_option (files : FileTree) (env : Environment)
    (given : job.directivePath = some path) : (job.settings files env).1 = ⟨path⟩ := by
  rw [settings, given]

/-- Without the option the path is that of the settings file or the default. -/
theorem not_blank_settings (files : FileTree) (env : Environment)
    (absent : job.directivePath = none) : ¬blank (job.settings files env).1.directivePath := by
  rw [settings, absent]
  dsimp only
  split
  · exact Settings.not_blank_load files _
  · decide

theorem blank_settings_iff (job : Job) (files : FileTree) (env : Environment) :
    blank (job.settings files env).1.directivePath ↔
      ∃ given, job.directivePath = some given ∧ blank given := by
  cases option : job.directivePath with
  | none => simp [not_blank_settings files env option]
  | some path => simp [settings_of_option files env option]

/-- A job that reads works with its settings only through the path in use. -/
theorem run_of_reads (files : FileTree) (env : Environment) (reads : job.task.operand? = none) :
    job.run files env = (job.act files ⟨job.pathInUse files env⟩ (job.settingsFile? env)).after
      (job.settings files env).2 := by
  rw [run, pathInUse_of_reads reads]

/-- A job that saves a path says so, and the path is what the settings file holds. -/
theorem run_of_saved {f : String} (asked : job.task = .setPath path)
    (place : job.settingsFile? env = some f) (done : (job.run files env).outcome = .ok 0) :
    (job.run files env).stdout = s!"vimrc path set to {job.pathInUse files env}\n" ∧
    (job.run files env).files.held? f =
      some (.text (Settings.toYaml ⟨job.pathInUse files env⟩)) := by
  obtain ⟨after, outcome⟩ := run_of_setPath files asked place
  rw [done] at outcome
  rw [pathInUse_of_setPath asked]
  cases changed : ((job.settings files env).1.change files path f).2.outcome with
  | error e => simp [changed, Except.map] at outcome
  | ok =>
    obtain ⟨-, memory, held⟩ := Settings.change_of_ok changed
    refine ⟨?_, by rw [after, held]⟩
    rw [run, place, act, asked, Ran.stdout_after]
    dsimp only [runSetPath]
    rw [changed, memory]

end Job

/-- **The path that a job works with is blank exactly when the option for one run gives a blank
one.** It is the path that the job reads, shows or saves. -/
theorem blank_pathInUse_iff {a : Arguments} {files : FileTree} {job : Job}
    (made : a.toJob files = .ok job) (env : Environment) :
    let path := job.pathInUse files env
    (blank path ↔ ∃ given, a.options.directivePath = some given ∧ blank given) ∧
    (job.task.operand? = none → job.run files env =
      (job.act files ⟨path⟩ (job.settingsFile? env)).after (job.settings files env).2) ∧
    ∀ asked f, job.task = .setPath asked → job.settingsFile? env = some f →
      (job.run files env).outcome = .ok 0 →
        (job.run files env).stdout = s!"vimrc path set to {path}\n" ∧
        (job.run files env).files.held? f = some (.text (Settings.toYaml ⟨path⟩)) := by
  intro path
  obtain ⟨checked, task, option, -⟩ := Arguments.toJob_eq_ok made
  refine ⟨?_, fun reads => Job.run_of_reads files env reads,
    fun asked f given place done => Job.run_of_saved given place done⟩
  cases operand : job.task.operand? with
  | none =>
    have shown : path = (job.settings files env).1.directivePath := Job.pathInUse_of_reads operand
    rw [shown, Job.blank_settings_iff, option]
  | some asked =>
    have given : job.task = .setPath asked := by
      cases task : job.task <;> simp [task, Task.operand?] at operand
      rw [operand]
    -- the operand is checked, and the option may not stand beside it
    rw [← task, given] at checked
    obtain ⟨alone, filled⟩ := Arguments.checkTask_setPath checked
    have saved : path = trimmed asked := Job.pathInUse_of_setPath given
    simp [saved, blank_trimmed, filled, alone]

/-- A blank path in the settings file is passed over, one that is given for the run is not. -/
theorem blank_pathInUse_iff_file_and_option :
    let files : FileTree := ⟨[(["conf.yaml"], .file (.text "vimrc_path: ' '\n"))], []⟩
    let env : Environment := ⟨none, none, none⟩
    let ask (given : Option String) : Arguments :=
      ⟨⟨none, given, some "conf.yaml", false⟩, some .showConfig⟩
    ∃ plain special, (ask none).toJob files = .ok plain ∧
      (ask (some "\t")).toJob files = .ok special ∧
      ¬blank (plain.pathInUse files env) ∧ blank (special.pathInUse files env) := by
  intro files env ask
  let job (given : Option String) : Job := ⟨.showConfig, ".", given, some "conf.yaml", false⟩
  have made (given : Option String) : (ask given).toJob files = .ok (job given) := rfl
  refine ⟨job none, job (some "\t"), made none, made (some "\t"), ?_, ?_⟩
  · rw [(blank_pathInUse_iff (made none) env).1]
    simp [ask]
  · rw [(blank_pathInUse_iff (made (some "\t")) env).1]
    exact ⟨"\t", rfl, by decide⟩

/-- A file with a blank name is loaded. -/
theorem blank_pathInUse_loads :
    let files : FileTree := ⟨[([" "], .file (.text "nmap a b\n"))], []⟩
    let env : Environment := ⟨none, none, none⟩
    ∃ a job, Arguments.ofWords ["--vimrc", " ", "load"] = .ok a ∧ a.toJob files = .ok job ∧
      blank (job.pathInUse files env) ∧
      (job.run files env).stdout = "\" Loaded vimrc (1 mappings)\nnmap a b\n" :=
  ⟨⟨⟨none, some " ", none, false⟩, some .load⟩, ⟨.load, ".", some " ", none, false⟩,
    by decide +kernel, rfl, by decide, by decide +kernel⟩

end ModalKeys
