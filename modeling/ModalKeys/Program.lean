import ModalKeys.CommandLine.Help
import ModalKeys.CommandLine.Reading
import ModalKeys.Job
import ModalKeys.Log.Filter

/-!
# The program

A whole run of the program as a function: from the files, the environment, the log filter and the
words of the command line to the files after it and all that is printed. The directory for logs is
made before anything else; a run without it only warns.
-/

namespace ModalKeys

/-- What a run of the program did. -/
structure Finished where
  files : FileTree
  stdout : String
  /-- The events that the log shows on the console. -/
  shown : List Log.Event
  /-- What the program tells the user besides. -/
  notes : List String
  exitCode : Nat

namespace Program

/-- Runs the program once the directory for logs has been seen to. -/
def finish (files : FileTree) (env : Environment) (filter : Log.Filter) (words : List String) :
    Finished :=
  match Arguments.ofWords words with
  | .error e => ⟨files, e.answer, [], (e.fault?.map fun f => s!"error: {f}").toList, e.exitCode⟩
  | .ok arguments =>
    match arguments.toJob files with
    | .error e => ⟨files, "", [], [s!"Error: {e.message}"], 1⟩
    | .ok job =>
      let ran := job.run files env
      let shown := ran.events.filter filter.shows
      match ran.outcome with
      | .error e => ⟨ran.files, ran.stdout, shown, [s!"Error: {e.message}"], 1⟩
      | .ok code => ⟨ran.files, ran.stdout, shown, [], code⟩

/-- Runs the program. -/
def run (files : FileTree) (env : Environment) (filter : Option String) (words : List String) :
    Finished :=
  let (files, logs) := env.makeLogsDir files
  let finished := finish files env (.ofText filter) words
  match logs with
  | .ok _ => finished
  | .error reason =>
    { finished with
      notes := s!"Warning: Could not initialize file logging: {reason}" :: finished.notes }

end Program

end ModalKeys
