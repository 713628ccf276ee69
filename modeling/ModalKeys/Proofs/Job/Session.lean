import ModalKeys.Proofs.Job.Basic
import ModalKeys.Proofs.Settings.Yaml

/-!
# Runs of the program that share a settings file

What one run saves, the later ones use, until another run writes the file again. A directive path
that is given for one run is used by that run alone (`session_paths`).

`Invocation.effect` is all that one run can do to the files: nothing, or a change of the settings.
What is in the settings file after the run follows from it (`fileAt?_filesAfter`), and what any run
of a session finds there follows by induction over the runs before it (`Session.finds`).
-/

namespace ModalKeys

/-! ### One run -/

/-- A run of the program: its arguments, and the files and the environment that it finds. -/
structure Invocation where
  arguments : Arguments
  files : FileTree
  env : Environment

namespace Invocation

def task (i : Invocation) : Task :=
  i.arguments.task.getD .load

/-- A directive path for this run alone. -/
def override? (i : Invocation) : Option String :=
  i.arguments.options.directivePath

def settingsFile? (i : Invocation) : Option String :=
  i.arguments.options.settingsFile <|> i.env.configFile?

def job? (i : Invocation) : Except JobError Job :=
  i.arguments.toJob i.files

def ran? (i : Invocation) : Except JobError Ran :=
  i.job?.map fun job => job.run i.files i.env

def filesAfter (i : Invocation) : FileTree :=
  i.ran?.toOption.elim i.files Ran.files

/-- The directive path that the run has saved; none if it was not asked to or failed. -/
def saved? (i : Invocation) : Option String := do
  let path ← i.task.operand?
  let ran ← i.ran?.toOption
  let _ ← ran.outcome.toOption
  return trimmed path

/-- What the run has left in its settings file when writing it broke off. -/
def torn? (i : Invocation) : Option Contents := do
  let path ← i.task.operand?
  let ran ← i.ran?.toOption
  match ran.outcome with
  | .ok _ => none
  | .error e => e.torn? (.text (Settings.toYaml ⟨trimmed path⟩))

/-- The directive path that the settings file gives because of the run, if the run has written it:
the one that it saved, or what there is to load after a write that broke off. -/
def left? (i : Invocation) : Option String :=
  i.saved?.or (i.torn?.map fun c => (Settings.ofHeld (some c)).directivePath)

/-- If there is a job, it works with this directive path. -/
def Uses (i : Invocation) (path : String) : Prop :=
  ∀ job, i.job? = .ok job → ∃ ran, i.ran? = .ok ran ∧
    job.WorksWith i.files i.settingsFile? path ran

variable {i : Invocation} {g path : String} {job : Job}

theorem ran?_of_ok (made : i.job? = .ok job) : i.ran? = .ok (job.run i.files i.env) := by
  rw [ran?, made]
  rfl

theorem filesAfter_of_ok (made : i.job? = .ok job) :
    i.filesAfter = (job.run i.files i.env).files := by
  rw [filesAfter, ran?_of_ok made]
  rfl

theorem settingsFile?_of_job (made : i.job? = .ok job) :
    job.settingsFile? i.env = i.settingsFile? := by
  obtain ⟨-, -, -, file⟩ := Arguments.toJob_eq_ok made
  rw [Job.settingsFile?, file]
  rfl

theorem uses_of_file (place : i.settingsFile? = some g) :
    i.Uses (i.override?.getD (Settings.load i.files g).1.directivePath) := by
  intro job made
  obtain ⟨-, -, given, -⟩ := Arguments.toJob_eq_ok made
  have file := settingsFile?_of_job made
  have settings := Job.settings_of_file i.files (file.trans place)
  rw [given] at settings
  refine ⟨_, ran?_of_ok made, ?_⟩
  rw [Job.run, settings, file]
  exact (job.worksWith_act i.files i.settingsFile? _).after _

/-- What became of a task that was to save a path. -/
theorem saved?_of_ok (made : i.job? = .ok job) (task : i.task = .setPath path) :
    i.saved? = ((job.run i.files i.env).outcome.toOption.map fun _ => trimmed path) ∧
    i.torn? = match (job.run i.files i.env).outcome with
      | .ok _ => none
      | .error e => e.torn? (.text (Settings.toYaml ⟨trimmed path⟩)) := by
  rw [saved?, torn?, task, ran?_of_ok made]
  cases outcome : (job.run i.files i.env).outcome <;>
    simp [Task.operand?, outcome, Except.toOption]

theorem effect_of_no_job {e : JobError} (refused : i.job? = .error e) :
    i.filesAfter = i.files ∧ i.saved? = none ∧ i.torn? = none := by
  have failed : i.ran? = .error e := by
    rw [ran?, refused]
    rfl
  rw [filesAfter, saved?, torn?, failed]
  cases i.task.operand? <;> exact ⟨rfl, rfl, rfl⟩

theorem effect_of_reads (made : i.job? = .ok job) (reads : i.task.operand? = none) :
    i.filesAfter = i.files ∧ i.saved? = none ∧ i.torn? = none := by
  obtain ⟨-, same, -⟩ := Arguments.toJob_eq_ok made
  refine ⟨?_, by rw [saved?, reads]; rfl, by rw [torn?, reads]; rfl⟩
  rw [filesAfter_of_ok made, Job.run, Ran.files_after]
  exact Job.files_act (same ▸ reads) _ _

/-- A job that saves a path does to the files what the change of the settings does. -/
theorem effect_of_setPath (place : i.settingsFile? = some g) (made : i.job? = .ok job)
    (task : i.task = .setPath path) :
    let changed := (job.settings i.files i.env).1.change i.files path g
    i.override? = none ∧ ¬blank path ∧ i.filesAfter = changed.2.files ∧
    i.saved? = (changed.2.outcome.toOption.map fun _ => trimmed path) ∧
    i.torn? = match changed.2.outcome with
      | .ok _ => none
      | .error e => e.torn? (.text (Settings.toYaml ⟨trimmed path⟩)) := by
  intro changed
  obtain ⟨checked, same, -⟩ := Arguments.toJob_eq_ok made
  -- there would be no job if the path were blank or another were given for the run
  rw [← Invocation.task, task] at checked
  obtain ⟨alone, given⟩ := Arguments.checkTask_setPath checked
  have file : job.settingsFile? i.env = some g := (settingsFile?_of_job made).trans place
  obtain ⟨after, outcome⟩ := Job.run_of_setPath i.files (same.trans task) file
  obtain ⟨saved, torn⟩ := saved?_of_ok made task
  refine ⟨alone, given, (filesAfter_of_ok made).trans after, ?_, ?_⟩
  · rw [saved, outcome]
    cases changed.2.outcome <;> rfl
  · rw [torn, outcome]
    cases changed.2.outcome <;> rfl

/-- A run leaves the files alone, or it changes the settings, and then no path was given for it. -/
theorem effect (place : i.settingsFile? = some g) :
    (i.filesAfter = i.files ∧ i.saved? = none ∧ i.torn? = none) ∨
    ∃ path s, let changed := Settings.change s i.files path g
      i.task = .setPath path ∧ i.override? = none ∧ ¬blank path ∧
      i.filesAfter = changed.2.files ∧
      i.saved? = (changed.2.outcome.toOption.map fun _ => trimmed path) ∧
      i.torn? = match changed.2.outcome with
        | .ok _ => none
        | .error e => e.torn? (.text (Settings.toYaml ⟨trimmed path⟩)) := by
  cases made : i.job? with
  | error e => exact .inl (effect_of_no_job made)
  | ok job =>
    cases task : i.task with
    | setPath path => exact .inr ⟨path, _, rfl, effect_of_setPath place made task⟩
    | load => exact .inl (effect_of_reads made (by rw [task]; rfl))
    | check => exact .inl (effect_of_reads made (by rw [task]; rfl))
    | showConfig => exact .inl (effect_of_reads made (by rw [task]; rfl))

/-- What a run leaves in its settings file: what it saved, or what its write had done when it broke
off, or what was there. -/
theorem fileAt?_filesAfter (place : i.settingsFile? = some g) :
    i.filesAfter.fileAt? (i.files.goal g) =
      ((i.saved?.map fun path => .text (Settings.toYaml ⟨path⟩)).or i.torn?).or
        (i.files.fileAt? (i.files.goal g)) := by
  rcases i.effect place with ⟨files, saved, torn⟩ | ⟨path, s, -, -, -, files, saved, torn⟩
  · rw [files, saved, torn]
    rfl
  · rw [files, saved, torn]
    cases outcome : (Settings.change s i.files path g).2.outcome with
    | error e => exact Settings.fileAt?_change_of_error outcome
    | ok => exact Settings.fileAt?_change_of_ok outcome

theorem not_blank_of_saved? (place : i.settingsFile? = some g) (saved : i.saved? = some path) :
    ¬blank path := by
  rcases i.effect place with ⟨-, unsaved, -⟩ | ⟨asked, s, -, -, given, -, outcome, -⟩
  · simp [unsaved] at saved
  · rw [saved] at outcome
    obtain ⟨-, -, rfl⟩ := Option.map_eq_some_iff.mp outcome.symm
    rwa [blank_trimmed]

theorem path_filesAfter (place : i.settingsFile? = some g)
    (readable : ∀ p, i.saved? = some p → Settings.ofYaml (Settings.toYaml ⟨p⟩) = .ok ⟨p⟩) :
    (Settings.ofHeld (i.filesAfter.fileAt? (i.files.goal g))).directivePath =
      i.left?.getD (Settings.ofHeld (i.files.fileAt? (i.files.goal g))).directivePath := by
  rw [fileAt?_filesAfter place, left?]
  cases saved : i.saved? with
  | none => cases i.torn? <;> rfl
  | some path =>
    have read := Settings.ofHeld_toYaml (not_blank_of_saved? place saved) (readable path saved)
    exact congrArg Settings.directivePath read

end Invocation

/-! ### Many runs -/

/-- Runs, one after another, whose settings file is the one at the place `p`; it holds `held` before
the first of them. Each is given a path that leads there and finds what the run before it has left.
All else may change between the runs, the way to the file and the device among it. -/
def Session (p : Place) (held : Option Contents) : List Invocation → Prop
  | [] => True
  | i :: later => ∃ g, i.settingsFile? = some g ∧ i.files.goal g = p ∧ i.files.Finds g ∧
      i.files.fileAt? p = held ∧ Session p (i.filesAfter.fileAt? p) later

/-- The directive path that the last of some runs to write the settings file has left in it. -/
def lastLeft? (runs : List Invocation) : Option String :=
  (runs.filterMap Invocation.left?).getLast?

theorem lastLeft?_cons (i : Invocation) (later : List Invocation) :
    lastLeft? (i :: later) = (lastLeft? later).or i.left? := by
  unfold lastLeft?
  cases left : i.left? with
  | none => simp [left]
  | some path =>
    rw [List.filterMap_cons_some left, List.getLast?_cons]
    cases (later.filterMap Invocation.left?).getLast? <;> rfl

variable {p : Place} {held : Option Contents} {earlier later : List Invocation} {i : Invocation}

theorem Session.finds (session : Session p held (earlier ++ i :: later))
    (lines : ∀ j ∈ earlier, ∀ path, j.saved? = some path → ¬Yaml.SingleLine path →
      Settings.ofYaml (Settings.toYaml ⟨path⟩) = .ok ⟨path⟩) :
    ∃ g, i.settingsFile? = some g ∧ i.files.goal g = p ∧
      (Settings.load i.files g).1.directivePath =
        (lastLeft? earlier).getD (Settings.ofHeld held).directivePath := by
  -- on the runs before it, the first one taken off and the session begun where it ended
  induction earlier generalizing held with
  | nil =>
    obtain ⟨g, place, goal, finds, same, -⟩ := session
    refine ⟨g, place, goal, ?_⟩
    rw [Settings.load_eq_ofHeld, finds, goal, same]
    rfl
  | cons j earlier ih =>
    obtain ⟨f, before, goal, -, same, rest⟩ := session
    obtain ⟨g, place, goal', path⟩ :=
      ih rest fun k member => lines k (List.mem_cons_of_mem j member)
    refine ⟨g, place, goal', path.trans ?_⟩
    have step := Invocation.path_filesAfter before fun path saved =>
      Settings.readable_of_lines (lines j List.mem_cons_self path saved)
    rw [goal, same] at step
    rw [step, lastLeft?_cons]
    cases lastLeft? earlier <;> rfl

theorem Session.uses (session : Session p held (earlier ++ i :: later))
    (lines : ∀ j ∈ earlier, ∀ path, j.saved? = some path → ¬Yaml.SingleLine path →
      Settings.ofYaml (Settings.toYaml ⟨path⟩) = .ok ⟨path⟩) :
    i.Uses (i.override?.getD
      ((lastLeft? earlier).getD (Settings.ofHeld held).directivePath)) := by
  obtain ⟨g, place, -, path⟩ := session.finds lines
  rw [← path]
  exact Invocation.uses_of_file place

end ModalKeys
