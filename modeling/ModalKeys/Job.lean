import ModalKeys.CommandLine.Basic
import ModalKeys.Host
import ModalKeys.Json.Encoding

/-!
# Jobs

A job is a task that is ready to run: the command line has been understood and the root is a
directory. `load` runs a pass into a fresh keymap and prints the keymap; `check` interprets the same
file without a keymap; the other two write and show the settings. Only setting the path writes a
file, and of the jobs only it can fail; a directive file that cannot be read is told to the user and
ends the job with exit code 1.

What a job prints is a text. That there may be no one to take it, so that a job fails after all is
done, is left out.
-/

namespace ModalKeys

structure Job where
  task : Task
  root : String
  /-- A directive path for this job alone. -/
  directivePath : Option String
  settingsFile : Option String
  json : Bool
deriving DecidableEq, Repr

/-- Why the arguments make no job. -/
inductive JobError where
  | pathGivenTwice
  | blankPath
  | rootNotDirectory (root : String)
deriving DecidableEq, Repr

namespace JobError

def message : JobError → String
  | pathGivenTwice => "--vimrc cannot be combined with set-path"
  | blankPath => "Directive file path cannot be empty"
  | rootNotDirectory root => s!"Root is not a directory: {root}"

end JobError

namespace Arguments

/-- A path to be saved may not be blank, nor be given by the option as well. -/
def checkTask (a : Arguments) : Task → Except JobError Unit
  | .setPath path =>
    if a.options.directivePath.isSome then .error .pathGivenTwice
    else if blank path then .error .blankPath
    else .ok ()
  | _ => .ok ()

/-- The job that the arguments ask for. -/
def toJob (a : Arguments) (files : FileTree) : Except JobError Job := do
  let task := a.task.getD .load
  a.checkTask task
  match a.options.root with
  | some root => if !files.isDirectory root then .error (.rootNotDirectory root)
  | none => .ok ()
  return ⟨task, a.options.root.getD ".", a.options.directivePath, a.options.settingsFile,
    a.options.json⟩

end Arguments

/-- What a job did: the files after it, what the log tells, what it printed, and its exit code. -/
structure Ran where
  files : FileTree
  events : List Log.Event
  stdout : String
  outcome : Except SettingsError Nat

/-- What was done, after events that the log has told before. -/
def Ran.after (ran : Ran) (events : List Log.Event) : Ran :=
  { ran with events := events ++ ran.events }

namespace Job

/-- The file with the settings of a job. -/
def settingsFile? (job : Job) (env : Environment) : Option String :=
  job.settingsFile <|> env.configFile?

/-- The settings that a job works with. -/
def settings (job : Job) (files : FileTree) (env : Environment) : Settings × List Log.Event :=
  let loaded :=
    match job.settingsFile? env with
    | some file => Settings.load files file
    | none => (.standard, [])
  match job.directivePath with
  | some path => (⟨path⟩, loaded.2)
  | none => loaded

/-- The lines that tell of the lines that were skipped, each after some text. -/
def problemLines (start : String) (diagnostics : List Diagnostic) : String :=
  .join ((diagnostics.filter Diagnostic.isProblem).map fun d => start ++ d.display ++ "\n")

/-- A pass and the keymap that came of it, as a directive file. -/
def loadedText (report : Report) (keymap : Keymap) : String :=
  s!"\" {report.notice}\n" ++ problemLines "\" " report.diagnostics ++ keymap.render

def loadedJson (report : Report) (keymap : Keymap) : Json :=
  .obj [("report", report.toJson), ("mappings", .arr (keymap.mappings.map Mapping.toJson))]

/-- An interpretation, for the user who wants to know what was skipped. -/
def checkedText (path : String) (i : Interpretation) : String :=
  problemLines "" i.diagnostics ++
    s!"{path}: {i.requests.length} directives, {i.problemCount} skipped\n"

/-- The settings as a YAML text under the name of their file. -/
def shownText (file : Option String) (s : Settings) : String :=
  file.elim "" (fun f => s!"# {f}\n") ++ s.toYaml

def shownJson (file : Option String) (s : Settings) : Json :=
  .obj [("settings_file", file.elim .null .str), ("settings", s.toJson)]

/-- The job ends because no pass could begin. -/
def fail (files : FileTree) (events : List Log.Event) (e : PassError) : Ran :=
  ⟨files, events ++ [.runFailed e], e.notice ++ "\n", .ok 1⟩

def runLoad (job : Job) (files : FileTree) (s : Settings) : Ran :=
  let host : Host Keymap := ⟨some (.empty Keymap.standardModes), s, none⟩
  let loaded := host.load (Folder.mk job.root files)
  match loaded.answer with
  | .error e => fail files loaded.events e
  | .ok report =>
    let keymap := loaded.host.engine.getD (.empty Keymap.standardModes)
    let text :=
      if job.json then (loadedJson report keymap).pretty ++ "\n" else loadedText report keymap
    ⟨files, loaded.events, text, .ok 0⟩

def runCheck (job : Job) (files : FileTree) (s : Settings) : Ran :=
  let fetched := (Folder.mk job.root files).read s.directivePath
  match fetched.outcome with
  | .error e => fail files fetched.events (.sourceFailed e)
  | .ok source =>
    let i := interpret source
    let text := if job.json then i.toJson.pretty ++ "\n" else checkedText s.directivePath i
    ⟨files, fetched.events, text, .ok (if i.problemCount = 0 then 0 else 1)⟩

def runSetPath (files : FileTree) (s : Settings) (file : Option String) (path : String) : Ran :=
  match file with
  | none => ⟨files, [], "", .error .configDirUnknown⟩
  | some file =>
    let (s, saved) := s.change files path file
    match saved.outcome with
    | .error e => ⟨saved.files, saved.events, "", .error e⟩
    | .ok () => ⟨saved.files, saved.events, s!"vimrc path set to {s.directivePath}\n", .ok 0⟩

def runShowConfig (job : Job) (files : FileTree) (s : Settings) (file : Option String) : Ran :=
  ⟨files, [], if job.json then (shownJson file s).pretty ++ "\n" else shownText file s, .ok 0⟩

/-- What a job does once it has its settings and knows their file. -/
def act (job : Job) (files : FileTree) (s : Settings) (file : Option String) : Ran :=
  match job.task with
  | .load => job.runLoad files s
  | .check => job.runCheck files s
  | .setPath path => runSetPath files s file path
  | .showConfig => job.runShowConfig files s file

/-- Runs a job. -/
def run (job : Job) (files : FileTree) (env : Environment) : Ran :=
  let loaded := job.settings files env
  (job.act files loaded.1 (job.settingsFile? env)).after loaded.2

end Job

end ModalKeys
