/-!
# Arguments of the program

The program is called with options and at most one subcommand. Options may stand before or after
the subcommand; given on both sides, the one after it counts.
-/

namespace ModalKeys

/-- What the program can be asked to do. -/
inductive Subcommand where
  | load
  | check
  | setPath
  | showConfig
deriving DecidableEq, Repr

namespace Subcommand

def name : Subcommand → String
  | load => "load"
  | check => "check"
  | setPath => "set-path"
  | showConfig => "show-config"

def all : List Subcommand :=
  [load, check, setPath, showConfig]

def ofName? (name : String) : Option Subcommand :=
  all.find? fun s => s.name == name

end Subcommand

/-- A subcommand with its operand. -/
inductive Task where
  | load
  | check
  | setPath (path : String)
  | showConfig
deriving DecidableEq, Repr

/-- The options that take a value. -/
inductive ValueOption where
  | root
  | directivePath
  | settingsFile
deriving DecidableEq, Repr

namespace ValueOption

def name : ValueOption → String
  | root => "root"
  | directivePath => "vimrc"
  | settingsFile => "settings"

def all : List ValueOption :=
  [root, directivePath, settingsFile]

def ofName? (name : String) : Option ValueOption :=
  all.find? fun o => o.name == name

/-- Only the directive path may be empty here. -/
def mayBeEmpty : ValueOption → Bool
  | directivePath => true
  | root | settingsFile => false

end ValueOption

/-- The values of the options. -/
structure Options where
  root : Option String
  directivePath : Option String
  settingsFile : Option String
  json : Bool
deriving DecidableEq, Repr

namespace Options

def empty : Options :=
  ⟨none, none, none, false⟩

def value? (o : Options) : ValueOption → Option String
  | .root => o.root
  | .directivePath => o.directivePath
  | .settingsFile => o.settingsFile

def setValue (o : Options) (option : ValueOption) (value : String) : Options :=
  match option with
  | .root => { o with root := some value }
  | .directivePath => { o with directivePath := some value }
  | .settingsFile => { o with settingsFile := some value }

/-- The options of a subcommand over those before it. -/
def merge (inner outer : Options) : Options :=
  ⟨inner.root <|> outer.root, inner.directivePath <|> outer.directivePath,
    inner.settingsFile <|> outer.settingsFile, inner.json || outer.json⟩

end Options

/-- A command line that was understood; without a task the program loads. -/
structure Arguments where
  options : Options
  task : Option Task
deriving DecidableEq, Repr

/-- What help is about. -/
inductive HelpTopic where
  | program
  | subcommand (s : Subcommand)
  | help
deriving DecidableEq, Repr

/-- Why a command line asks for no task: it is faulty, or it asks for help or the version. -/
inductive UsageError where
  | unknownArgument
  | unknownSubcommand
  | operandMissing
  | optionRepeated
  | valueMissing
  | valueNotTaken
  | helpAsked (topic : HelpTopic)
  | versionAsked
deriving DecidableEq, Repr

end ModalKeys
