import ModalKeys.Program
import ModalKeys.Proofs.Job.Session

/-!
# The program and its jobs

To start the program is to run the job that its words ask for, once the directory for logs has been
made. The files after it are those that the job leaves, and the job says what is printed. Making
that directory leads no path elsewhere and puts no file anywhere. So the jobs of a program that is
started again and again are a session (`Starts.session`), whatever else the user asks of it in
between.
-/

namespace ModalKeys

namespace Environment

variable {env : Environment} {files : FileTree}

theorem extends_makeLogsDir (env : Environment) (files : FileTree) :
    files.Extends (env.makeLogsDir files).1 := by
  unfold makeLogsDir
  split
  · exact .refl files
  · next path named =>
    have ext : files.Extends (files.createDirectories path).1 :=
      FileTree.extends_createParts files _
    split <;> simp_all

theorem fileAt?_makeLogsDir (env : Environment) (files : FileTree) (p : Place) :
    (env.makeLogsDir files).1.fileAt? p = files.fileAt? p := by
  unfold makeLogsDir
  split
  · rfl
  · next path named =>
    have same : (files.createDirectories path).1.fileAt? p = files.fileAt? p :=
      FileTree.fileAt?_createParts files p _
    split <;> simp_all

end Environment

/-- What the program is started with. -/
structure Start where
  files : FileTree
  env : Environment
  filter : Option String
  words : List String

namespace Start

def finished (s : Start) : Finished :=
  Program.run s.files s.env s.filter s.words

/-- The files once the directory for logs has been seen to. -/
def prepared (s : Start) : FileTree :=
  (s.env.makeLogsDir s.files).1

/-- What the words ask for, if they ask for a task. -/
def invocation? (s : Start) : Option Invocation :=
  (Arguments.ofWords s.words).toOption.map fun a => ⟨a, s.prepared, s.env⟩

variable {s : Start} {i : Invocation}

/-- All that a missing directory for logs adds is a warning before the other notes. -/
theorem finished_eq (s : Start) :
    let finish := Program.finish s.prepared s.env (.ofText s.filter) s.words
    ∃ warnings, s.finished = { finish with notes := warnings ++ finish.notes } := by
  intro finish
  cases logs : (s.env.makeLogsDir s.files).2 with
  | ok path =>
    refine ⟨[], ?_⟩
    unfold finished Program.run
    dsimp only
    rw [logs]
    rfl
  | error reason =>
    refine ⟨[s!"Warning: Could not initialize file logging: {reason}"], ?_⟩
    unfold finished Program.run
    dsimp only
    rw [logs]
    rfl

/-- Words that ask for no task leave the files as they are, the directory for logs apart. -/
theorem finished_of_no_invocation (idle : s.invocation? = none) :
    s.finished.files = s.prepared ∧ ∃ e, Arguments.ofWords s.words = .error e ∧
      s.finished.stdout = e.answer ∧ s.finished.exitCode = e.exitCode := by
  obtain ⟨warnings, finished⟩ := s.finished_eq
  rw [finished]
  cases understood : Arguments.ofWords s.words with
  | ok a => simp [invocation?, understood, Except.toOption] at idle
  | error e =>
    dsimp only
    unfold Program.finish
    rw [understood]
    exact ⟨rfl, e, rfl, rfl, rfl⟩

/-- The job that the words ask for decides over the files and the output, and over the exit code
where it did not fail. -/
theorem finished_of_invocation (asked : s.invocation? = some i) :
    s.finished.files = i.filesAfter ∧
    match i.ran? with
    | .ok ran =>
      s.finished.stdout = ran.stdout ∧
      s.finished.shown = ran.events.filter (Log.Filter.ofText s.filter).shows ∧
      s.finished.exitCode = ran.outcome.toOption.getD 1 ∧
      ∀ e, ran.outcome = .error e → s!"Error: {e.message}" ∈ s.finished.notes
    | .error e =>
      s.finished.stdout = "" ∧ s.finished.exitCode = 1 ∧
      s!"Error: {e.message}" ∈ s.finished.notes := by
  obtain ⟨warnings, finished⟩ := s.finished_eq
  rw [finished]
  cases understood : Arguments.ofWords s.words with
  | error e => simp [invocation?, understood, Except.toOption] at asked
  | ok a =>
    obtain rfl : ⟨a, s.prepared, s.env⟩ = i := by
      simpa [invocation?, understood, Except.toOption] using asked
    unfold Program.finish Invocation.filesAfter Invocation.ran? Invocation.job?
    rw [understood]
    dsimp only
    cases a.toJob s.prepared with
    | error e => simp [Except.map, Except.toOption]
    | ok job =>
      dsimp only [Except.map, Except.toOption, Option.elim]
      cases (job.run s.prepared s.env).outcome <;> simp

theorem fileAt?_prepared (s : Start) (p : Place) : s.prepared.fileAt? p = s.files.fileAt? p :=
  s.env.fileAt?_makeLogsDir s.files p

end Start

/-! ### Many starts -/

/-- Starts of the program, one after another. Those that ask for a job have their settings file at
the place `p` and find what was left there, as in a session; it holds `held` before the first. -/
def Starts (p : Place) (held : Option Contents) : List Start → Prop
  | [] => True
  | s :: later => s.files.fileAt? p = held ∧
      (∀ i, s.invocation? = some i →
        ∃ g, i.settingsFile? = some g ∧ s.files.goal g = p ∧ s.files.Finds g) ∧
      Starts p (s.finished.files.fileAt? p) later

variable {p : Place} {held : Option Contents} {earlier later : List Start} {s : Start}
  {i : Invocation} {job : Job}

/-- **The jobs of a program that is started again and again are a session.** -/
theorem Starts.session (starts : Starts p held later) :
    Session p held (later.filterMap Start.invocation?) := by
  induction later generalizing held with
  | nil => trivial
  | cons s later ih =>
    obtain ⟨found, leads, rest⟩ := starts
    cases asked : s.invocation? with
    | none =>
      -- whatever was asked instead, the place is as it was
      obtain ⟨files, -⟩ := Start.finished_of_no_invocation asked
      rw [files, s.fileAt?_prepared, found] at rest
      rw [List.filterMap_cons_none asked]
      exact ih rest
    | some i =>
      obtain ⟨g, place, goal, finds⟩ := leads i asked
      obtain ⟨files, -⟩ := Start.finished_of_invocation asked
      rw [files] at rest
      have prepared : i.files = s.prepared := by
        obtain ⟨a, -, rfl⟩ := Option.map_eq_some_iff.mp asked
        rfl
      have ext : s.files.Extends i.files := prepared ▸ s.env.extends_makeLogsDir s.files
      have same (q : Place) : i.files.fileAt? q = s.files.fileAt? q :=
        prepared ▸ s.fileAt?_prepared q
      rw [List.filterMap_cons_some asked]
      exact ⟨g, place, (ext.keeps.goal g).trans goal, finds.extends ext (same _),
        (same p).trans found, ih rest⟩

/-- **A start of the program prints what its job makes of the directive path** that the option
gives, or else the last start to write the settings file has left. -/
theorem Starts.prints (starts : Starts p held (earlier ++ s :: later))
    (asked : s.invocation? = some i) (made : i.job? = .ok job)
    (lines : ∀ j ∈ earlier.filterMap Start.invocation?, ∀ path, j.saved? = some path →
      ¬Yaml.SingleLine path → Settings.ofYaml (Settings.toYaml ⟨path⟩) = .ok ⟨path⟩) :
    ∃ ran, job.WorksWith i.files i.settingsFile? (i.override?.getD
        ((lastLeft? (earlier.filterMap Start.invocation?)).getD
          (Settings.ofHeld held).directivePath)) ran ∧
      s.finished.files = ran.files ∧ s.finished.stdout = ran.stdout ∧
      s.finished.exitCode = ran.outcome.toOption.getD 1 := by
  have session := starts.session
  rw [List.filterMap_append, List.filterMap_cons_some asked] at session
  obtain ⟨ran, ended, works⟩ := session.uses lines job made
  obtain ⟨files, printed⟩ := Start.finished_of_invocation asked
  rw [ended] at printed
  refine ⟨ran, works, files.trans ?_, printed.1, printed.2.2.1⟩
  rw [Invocation.filesAfter, ended]
  rfl

/-- A path is saved, the user asks for the version, and the path is shown. -/
example :
    let start (files : FileTree) (words : List String) : Start :=
      ⟨files, ⟨none, some "/home", none⟩, none, words⟩
    let first := start ⟨[], []⟩ ["--settings", "s.yaml", "set-path", " keys.vim "]
    let second := start first.finished.files ["--version"]
    let third := start second.finished.files ["--settings", "./s.yaml", "show-config"]
    Starts ["s.yaml"] none [first, second, third] ∧
    third.finished.stdout = "# ./s.yaml\nvimrc_path: keys.vim\n" := by
  intro start first second third
  let file? (s : Start) : Option (Option String) := s.invocation?.map Invocation.settingsFile?
  have saved : file? first = some (some "s.yaml") := by decide +kernel
  have idle : file? second = none := by decide +kernel
  have shown : file? third = some (some "./s.yaml") := by decide +kernel
  refine ⟨⟨by decide, fun i asked => ⟨"s.yaml", ?_, by decide, by decide⟩,
    by decide +kernel, fun i asked => ?_, by decide +kernel, fun i asked => ⟨"./s.yaml", ?_, ?_⟩,
    trivial⟩, by decide +kernel⟩
  · simpa [file?, asked] using saved
  · simp [file?, asked] at idle
  · simpa [file?, asked] using shown
  · decide +kernel

end ModalKeys
