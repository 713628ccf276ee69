import ModalKeys.FileTree
import ModalKeys.Text
import ModalKeys.Yaml.Lexer
import ModalKeys.Yaml.Node
import ModalKeys.Yaml.Printer

/-!
# Settings

The settings hold the path of the directive file, relative to the root of the workspace. They are
kept as a YAML mapping with one key. `ofYaml` reads them: other keys are passed over, a missing key
means the default, and any scalar counts as the text that it is written as. `normalized` puts the
default in the place of a blank path.
-/

namespace ModalKeys

structure Settings where
  directivePath : String
deriving DecidableEq, Repr

/-- Why a text gives no settings. -/
inductive SettingsFault where
  | notYaml (error : Yaml.Error)
  | notMapping
  | keyNotScalar
  | repeatedKey
  | pathNotScalar
deriving DecidableEq, Repr

/-- Why settings could not be changed or saved. -/
inductive SettingsError where
  | blankPath
  | configDirUnknown
  | parentNotMade (cause : FileError)
  | notOpened (path : String) (cause : FileError)
  | brokenOff (path : String) (written : Nat) (reason : String)
deriving DecidableEq, Repr

namespace SettingsError

def message : SettingsError → String
  | blankPath => "Directive file path cannot be empty"
  | configDirUnknown => "No config directory available"
  | parentNotMade cause => s!"Failed to create config directory: {cause.message}"
  | notOpened path cause => s!"Failed to write config to {path}: {cause.message}"
  | brokenOff path _ reason => s!"Failed to write config to {path}: {reason}"

end SettingsError

namespace Settings

/-- The key of the directive path. -/
def pathKey : String := "vimrc_path"

def standard : Settings :=
  ⟨".vimrc"⟩

/-- A blank path falls back to the default. -/
def normalized (s : Settings) : Settings :=
  if blank s.directivePath then standard else s

/-- Reads the entries of a mapping; `path` is what an entry before them gave. -/
def ofEntries (d : Yaml.Document) (path : Option String) :
    List (Yaml.Node × Yaml.Node) → Except SettingsFault Settings
  | [] => .ok (path.elim standard Settings.mk)
  | (key, value) :: rest =>
    match d.text? key with
    | none => .error .keyNotScalar
    | some key =>
      if key != pathKey then ofEntries d path rest
      else if path.isSome then .error .repeatedKey
      else
        match d.text? value with
        | none => .error .pathNotScalar
        | some text => ofEntries d (some text) rest

/-- Reads the settings of a document; a document with nothing in it means the default. -/
def ofDocument (d : Yaml.Document) : Except SettingsFault Settings :=
  match d.root with
  | .mapping entries => ofEntries d none entries
  | .scalar "" true => .ok standard
  | _ => .error .notMapping

/-- Reads the settings of a YAML text. -/
def ofYaml (text : String) : Except SettingsFault Settings :=
  match Yaml.tokenize text >>= Yaml.Document.ofTokens? with
  | .error e => .error (.notYaml e)
  | .ok none => .ok standard
  | .ok (some d) => ofDocument d

/-- Writes the settings as a YAML text. -/
def toYaml (s : Settings) : String :=
  Yaml.writeEntry pathKey s.directivePath

end Settings

end ModalKeys
