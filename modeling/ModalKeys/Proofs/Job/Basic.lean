import ModalKeys.Job
import ModalKeys.Proofs.Host
import ModalKeys.Proofs.Settings.Store

/-!
# What a job does

A job takes its settings from a file or from an option, and what it does with them depends on its
task alone. Loading and checking come down to one read: each has a lemma for a text and one for the
lack of it. No file is changed but by a job that sets the path.
-/

namespace ModalKeys

/-- The directive path that a task is asked to save. -/
def Task.operand? : Task → Option String
  | .setPath path => some path
  | .load | .check | .showConfig => none

namespace Arguments

variable {a : Arguments} {files : FileTree} {job : Job} {path : String}

theorem toJob_eq_ok (made : a.toJob files = .ok job) :
    a.checkTask (a.task.getD .load) = .ok () ∧ job.task = a.task.getD .load ∧
    job.directivePath = a.options.directivePath ∧ job.settingsFile = a.options.settingsFile := by
  rw [toJob, check_bind_eq_ok_iff] at made
  obtain ⟨checked, made⟩ := made
  have same : ⟨a.task.getD .load, a.options.root.getD ".", a.options.directivePath,
      a.options.settingsFile, a.options.json⟩ = job := by
    cases given : a.options.root with
    | none => simpa [given, bind, Except.bind, pure, Except.pure] using made
    | some root =>
      simp only [given] at made
      split_ifs at made
      · cases made
      · simpa [pure, Except.pure] using made
  subst same
  exact ⟨checked, rfl, rfl, rfl⟩

theorem checkTask_setPath (checked : a.checkTask (.setPath path) = .ok ()) :
    a.options.directivePath = none ∧ ¬blank path := by
  unfold checkTask at checked
  dsimp only at checked
  split_ifs at checked with given empty
  exact ⟨by simpa using given, empty⟩

end Arguments

/-- The keymap that a text is loaded as. -/
def loadedKeymap (text : String) : Keymap :=
  (Engine.applyAll (Keymap.empty Keymap.standardModes) (interpret text).requests).engine

@[simp]
theorem Ran.outcome_after (ran : Ran) (events : List Log.Event) :
    (ran.after events).outcome = ran.outcome :=
  rfl

@[simp]
theorem Ran.stdout_after (ran : Ran) (events : List Log.Event) :
    (ran.after events).stdout = ran.stdout :=
  rfl

@[simp]
theorem Ran.files_after (ran : Ran) (events : List Log.Event) :
    (ran.after events).files = ran.files :=
  rfl

/-- The run ends with an exit code and has printed this. -/
def Ran.Ends (ran : Ran) (code : Nat) (printed : String) : Prop :=
  ran.outcome = .ok code ∧ ran.stdout = printed

namespace Job

variable {job : Job} {files : FileTree} {env : Environment} {s : Settings} {file path : String}

theorem files_act (reads : job.task.operand? = none) (s : Settings) (file : Option String) :
    (job.act files s file).files = files := by
  unfold act
  cases task : job.task with
  | load =>
    -- the files are the same however the pass ended
    dsimp only
    unfold runLoad
    extract_lets host loaded
    cases loaded.answer <;> rfl
  | check =>
    dsimp only
    unfold runCheck
    extract_lets fetched
    cases fetched.outcome <;> rfl
  | setPath path => simp [task, Task.operand?] at reads
  | showConfig => rfl

theorem run_of_setPath (files : FileTree) (asked : job.task = .setPath path)
    (place : job.settingsFile? env = some file) :
    let changed := (job.settings files env).1.change files path file
    (job.run files env).files = changed.2.files ∧
    (job.run files env).outcome = changed.2.outcome.map fun _ => 0 := by
  intro changed
  rw [run, place, act, asked]
  dsimp only [Ran.after, runSetPath]
  cases changed.2.outcome <;> exact ⟨rfl, rfl⟩

/-- The settings of a job have the path that was given for it, or else the path of the file. -/
theorem settings_of_file (files : FileTree) (place : job.settingsFile? env = some file) :
    (job.settings files env).1 =
      ⟨job.directivePath.getD (Settings.load files file).1.directivePath⟩ := by
  unfold settings
  rw [place]
  cases job.directivePath <;> rfl

/-! ### Loading and checking -/

/-- The pass that a job runs to load: into an empty keymap, from the files under its root. -/
def loadPass (job : Job) (files : FileTree) (s : Settings) :
    Stepped Keymap Folder (Except PassError Report) :=
  let host : Host Keymap := ⟨some (Keymap.empty Keymap.standardModes), s, none⟩
  host.load (Folder.mk job.root files)

variable {text : String} {e : SourceError}

theorem loadPass_of_read (job : Job) {s : Settings}
    (read : ((Folder.mk job.root files).read s.directivePath).outcome = .ok text) :
    let i := interpret text
    (job.loadPass files s).host.engine = some (loadedKeymap text) ∧
    (job.loadPass files s).answer =
      .ok ⟨s.directivePath, i.lineCount, i.requests, i.diagnostics⟩ := by
  intro i
  obtain ⟨state, answer⟩ := Host.load_of_read
    (h := ⟨some (Keymap.empty Keymap.standardModes), s, none⟩) (Folder.mk job.root files) rfl read
  exact ⟨congrArg Host.engine state, answer⟩

theorem runLoad_of_loadPass {s : Settings} {k : Keymap} {report : Report}
    (state : (job.loadPass files s).host.engine = some k)
    (answer : (job.loadPass files s).answer = .ok report) :
    (job.runLoad files s).outcome = .ok 0 ∧
    (job.runLoad files s).stdout =
      if job.json then (loadedJson report k).pretty ++ "\n" else loadedText report k := by
  unfold runLoad
  extract_lets host loaded keymap
  have held : keymap = k := congrArg (Option.getD · (Keymap.empty Keymap.standardModes)) state
  have answered : loaded.answer = .ok report := answer
  -- from here on it does not matter how the host came to its answer
  clear_value keymap loaded
  subst held
  rw [answered]
  exact ⟨rfl, rfl⟩

theorem loadPass_of_unread (job : Job)
    (unread : ((Folder.mk job.root files).read s.directivePath).outcome = .error e) :
    (job.loadPass files s).answer = .error (.sourceFailed e) :=
  (Host.load_of_unread (h := ⟨some (Keymap.empty Keymap.standardModes), s, none⟩)
    (Folder.mk job.root files) rfl unread).2

theorem runLoad_of_unread (job : Job)
    (unread : ((Folder.mk job.root files).read s.directivePath).outcome = .error e) :
    (job.runLoad files s).outcome = .ok 1 ∧
    (job.runLoad files s).stdout = (PassError.sourceFailed e).notice ++ "\n" := by
  have failed := loadPass_of_unread job unread
  unfold runLoad
  extract_lets host loaded
  have answered : loaded.answer = .error (.sourceFailed e) := failed
  rw [answered]
  exact ⟨rfl, rfl⟩

theorem runCheck_of_unread (job : Job)
    (unread : ((Folder.mk job.root files).read s.directivePath).outcome = .error e) :
    (job.runCheck files s).outcome = .ok 1 ∧
    (job.runCheck files s).stdout = (PassError.sourceFailed e).notice ++ "\n" := by
  unfold runCheck
  simp only [unread]
  exact ⟨rfl, rfl⟩

theorem runCheck_of_read (job : Job)
    (read : ((Folder.mk job.root files).read s.directivePath).outcome = .ok text) :
    let i := interpret text
    (job.runCheck files s).outcome = .ok (if i.problemCount = 0 then 0 else 1) ∧
    (job.runCheck files s).stdout =
      if job.json then i.toJson.pretty ++ "\n" else checkedText s.directivePath i := by
  unfold runCheck
  simp only [read]
  exact ⟨trivial, trivial⟩

theorem mem_events_runLoad (job : Job) {told : Log.Event}
    (member : told ∈ ((Folder.mk job.root files).read s.directivePath).events) :
    told ∈ (job.runLoad files s).events := by
  have passed : told ∈ (job.loadPass files s).events :=
    Host.mem_events_load (h := ⟨some (Keymap.empty Keymap.standardModes), s, none⟩)
      (Folder.mk job.root files) rfl member
  unfold runLoad
  extract_lets host loaded
  have inside : told ∈ loaded.events := passed
  cases loaded.answer with
  | error e => exact List.mem_append_left _ inside
  | ok report => exact inside

theorem mem_events_runCheck (job : Job) {told : Log.Event}
    (member : told ∈ ((Folder.mk job.root files).read s.directivePath).events) :
    told ∈ (job.runCheck files s).events := by
  unfold runCheck
  extract_lets fetched
  cases fetched.outcome with
  | error e => exact List.mem_append_left _ member
  | ok text => exact member

/-! ### Working with a path -/

/-- What a job that reads does with a directive path. Loading and checking read the file at this
path under the root and tell what is in it, or name the path when they cannot; showing the settings
shows the path. -/
def WorksWith (job : Job) (files : FileTree) (file : Option String) (path : String)
    (ran : Ran) : Prop :=
  let place := Path.join job.root path
  match job.task, files.readText place with
  | .load, .ok text =>
    let i := interpret text
    let report : Report := ⟨path, i.lineCount, i.requests, i.diagnostics⟩
    .fileRead place ∈ ran.events ∧
      ran.Ends 0 (if job.json then (loadedJson report (loadedKeymap text)).pretty ++ "\n"
        else loadedText report (loadedKeymap text))
  | .check, .ok text =>
    let i := interpret text
    .fileRead place ∈ ran.events ∧
      ran.Ends (if i.problemCount = 0 then 0 else 1)
        (if job.json then i.toJson.pretty ++ "\n" else checkedText path i)
  | .load, .error _ | .check, .error _ => ran.Ends 1 s!"Could not find the file in {path}\n"
  | .showConfig, _ =>
    ran.Ends 0
      (if job.json then (shownJson file ⟨path⟩).pretty ++ "\n" else shownText file ⟨path⟩)
  | .setPath _, _ => True

theorem worksWith_act (job : Job) (files : FileTree) (file : Option String) (path : String) :
    job.WorksWith files file path (job.act files ⟨path⟩ file) := by
  unfold WorksWith act
  extract_lets place
  cases read : files.readText place with
  | ok text =>
    have outcome : ((Folder.mk job.root files).read path).outcome = .ok text :=
      Folder.read_of_readText read
    have events : ((Folder.mk job.root files).read path).events = [.fileRead place] :=
      Folder.events_read read
    have told : .fileRead place ∈ ((Folder.mk job.root files).read path).events := by simp [events]
    cases job.task with
    | load =>
      obtain ⟨state, answer⟩ := job.loadPass_of_read (s := ⟨path⟩) outcome
      exact ⟨job.mem_events_runLoad told, runLoad_of_loadPass state answer⟩
    | check => exact ⟨job.mem_events_runCheck told, job.runCheck_of_read (s := ⟨path⟩) outcome⟩
    | setPath asked => trivial
    | showConfig => exact ⟨rfl, rfl⟩
  | error cause =>
    obtain ⟨e, outcome, named⟩ := Folder.read_of_unread (f := ⟨job.root, files⟩) read
    have notice : (PassError.sourceFailed e).notice ++ "\n" =
        s!"Could not find the file in {path}\n" := by
      rw [← named]
      exact String.append_assoc ..
    cases job.task with
    | load =>
      obtain ⟨code, printed⟩ := job.runLoad_of_unread (s := ⟨path⟩) outcome
      exact ⟨code, printed.trans notice⟩
    | check =>
      obtain ⟨code, printed⟩ := job.runCheck_of_unread (s := ⟨path⟩) outcome
      exact ⟨code, printed.trans notice⟩
    | setPath asked => trivial
    | showConfig => exact ⟨rfl, rfl⟩

theorem WorksWith.after {ran : Ran} {file : Option String}
    (works : job.WorksWith files file path ran) (events : List Log.Event) :
    job.WorksWith files file path (ran.after events) := by
  unfold WorksWith at works ⊢
  dsimp only at works ⊢
  split at works
  · exact ⟨List.mem_append_right _ works.1, works.2⟩
  · exact ⟨List.mem_append_right _ works.1, works.2⟩
  all_goals exact works

end Job

end ModalKeys
