import ModalKeys.Log.Event
import ModalKeys.Settings.Basic
import ModalKeys.Settings.Location

/-!
# Settings on disk

Loading never fails: whatever is wrong with the file, the default settings come back and the log
tells why. Saving makes the directories around the file, then writes it in place: a write that
breaks off leaves neither the old settings nor the new ones.

`change` gives the settings a new directive path, without the blanks around it, and saves them. A
blank path is refused before anything is changed; after that the settings have the new path whether
or not it could be saved.
-/

namespace ModalKeys

namespace Settings

/-- The settings at a path, and what the log tells. -/
def load (files : FileTree) (path : String) : Settings × List Log.Event :=
  if !files.pathExists path then (standard, [.configMissing path])
  else
    match files.readText path with
    | .error e => (standard, [.configUnreadable path e.message])
    | .ok text =>
      match ofYaml text with
      | .error _ => (standard, [.configInvalid path])
      | .ok s => (s.normalized, [.configLoaded path])

/-- The settings of the user. -/
def loadUser (files : FileTree) (env : Environment) : Settings × List Log.Event :=
  match env.configFile? with
  | none => (standard, [.configDirUnknown])
  | some path => load files path

/-- What saving did: the files after it, what the log tells, and whether it succeeded. -/
structure Saved where
  files : FileTree
  events : List Log.Event
  outcome : Except SettingsError Unit

/-- Saves the settings at a path. -/
def save (s : Settings) (files : FileTree) (path : String) : Saved :=
  match files.createParents path with
  | (files, .error e) => ⟨files, [], .error (.parentNotMade e)⟩
  | (files, .ok ()) =>
    match files.writeFile path (.text s.toYaml) with
    | .error (.notOpened e) => ⟨files, [], .error (.notOpened path e)⟩
    | .error (.brokenOff left written reason) =>
      ⟨left, [], .error (.brokenOff path written reason)⟩
    | .ok files => ⟨files, [.configSaved path], .ok ()⟩

/-- Saves the settings of the user. -/
def saveUser (s : Settings) (files : FileTree) (env : Environment) : Saved :=
  match env.configFile? with
  | none => ⟨files, [], .error .configDirUnknown⟩
  | some path => s.save files path

/-- Sets the directive path and saves the settings at a path. -/
def change (s : Settings) (files : FileTree) (directivePath path : String) : Settings × Saved :=
  if blank directivePath then (s, ⟨files, [], .error .blankPath⟩)
  else
    let s : Settings := ⟨trimmed directivePath⟩
    (s, s.save files path)

end Settings

/-- Makes the directory for logs and gives its path, or the reason as a text. -/
def Environment.makeLogsDir (e : Environment) (files : FileTree) :
    FileTree × Except String String :=
  match e.logsDir? with
  | none => (files, .error SettingsError.configDirUnknown.message)
  | some path =>
    match files.createDirectories path with
    | (files, .error cause) =>
      (files, .error s!"Failed to create directory {path}: {cause.message}")
    | (files, .ok ()) => (files, .ok path)

end ModalKeys
