import ModalKeys.CommandLine.Basic
import ModalKeys.CommandLine.Word

/-!
# Reading a command line

The words are read from left to right, first those of the program and then those of the
subcommand. An option that waits for its value stays pending, and is settled only when the next
option or operand is read, or at the end: so a fault in a later word can come before a fault in the
value. The words of the program are settled last of all, after the subcommand has been read.
-/

namespace ModalKeys

namespace CommandLine

/-- What has been read of the words of the program or of a subcommand. -/
structure Reading where
  options : Options
  /-- The option that was named last, with its value once that is read. -/
  pending : Option (ValueOption × Option String)
  operand : Option String
  /-- The separator was read: all that follows are operands. -/
  operandsOnly : Bool
deriving DecidableEq, Repr

namespace Reading

def empty : Reading :=
  ⟨.empty, none, none, false⟩

/-- The next plain word is the value of an option. -/
def awaitsValue (r : Reading) : Bool :=
  match r.pending with
  | some (_, none) => true
  | _ => false

/-- Gives an option its value. -/
def give (r : Reading) (option : ValueOption) : Option String → Except UsageError Reading
  | none => .error .valueMissing
  | some value =>
    if (r.options.value? option).isSome then .error .optionRepeated
    else if value.isEmpty && !option.mayBeEmpty then .error .valueMissing
    else .ok { r with options := r.options.setValue option value }

/-- Gives the pending option its value. -/
def settle (r : Reading) : Except UsageError Reading :=
  match r.pending with
  | none => .ok r
  | some (option, value) => { r with pending := none }.give option value

/-- Reads an option that takes no value. `level` is the subcommand, if one is being read. -/
def readFlag (level : Option Subcommand) (r : Reading) (name : String) :
    Except UsageError Reading :=
  if name = "json" then do
    let r ← r.settle
    if r.options.json then .error .optionRepeated
    else .ok { r with options := { r.options with json := true } }
  else if name = "help" then do
    let _ ← r.settle
    .error (.helpAsked (level.elim .program .subcommand))
  else if name = "version" && level.isNone then do
    let _ ← r.settle
    .error .versionAsked
  else .error .unknownArgument

/-- The options without a value at a level. -/
def isFlag (level : Option Subcommand) (name : String) : Bool :=
  name == "json" || name == "help" || (name == "version" && level.isNone)

/-- Reads an option by its name. -/
def readLong (level : Option Subcommand) (r : Reading) (name : String) (value : Option String) :
    Except UsageError Reading :=
  match ValueOption.ofName? name with
  | some option => do
    let r ← r.settle
    match value with
    | some v => r.give option (some v)
    | none => .ok { r with pending := some (option, none) }
  | none =>
    if value.isSome && isFlag level name then .error .valueNotTaken
    else r.readFlag level name

/-- Reads an option by its letter. -/
def readLetters (level : Option Subcommand) (r : Reading) (first : Char) :
    Except UsageError Reading :=
  if first = 'h' then r.readFlag level "help"
  else if first = 'V' then r.readFlag level "version"
  else .error .unknownArgument

/-- The name is one that the program takes as a subcommand. -/
def isSubcommand (name : String) : Bool :=
  name == "help" || (Subcommand.ofName? name).isSome

/-- Reads an operand; only one subcommand has one. -/
def readOperand (level : Option Subcommand) (r : Reading) (text : String) :
    Except UsageError Reading :=
  match level with
  | some .setPath =>
    if r.operand.isSome then .error .unknownArgument
    else do
      let r ← r.settle
      .ok { r with operand := some text }
  | some _ => .error .unknownArgument
  | none =>
    if r.operandsOnly && isSubcommand text then .error .unknownArgument
    else .error .unknownSubcommand

/-- Reads one word. -/
def read (level : Option Subcommand) (r : Reading) (s : String) : Except UsageError Reading :=
  if r.operandsOnly then r.readOperand level s
  else
    match Word.ofString s with
    | .separator => .ok { r with operandsOnly := true }
    | .long name value => r.readLong level name value
    | .letters first => r.readLetters level first
    | .plain text =>
      match r.pending with
      | some (option, none) => .ok { r with pending := some (option, some text) }
      | _ => r.readOperand level text

/-- The task of a subcommand whose words have been read. -/
def task (r : Reading) : Subcommand → Except UsageError Task
  | .load => .ok .load
  | .check => .ok .check
  | .showConfig => .ok .showConfig
  | .setPath => r.operand.elim (.error .operandMissing) fun path => .ok (.setPath path)

end Reading

/-- Reads the words of a subcommand. -/
def readSubcommand (s : Subcommand) (words : List String) : Except UsageError (Options × Task) := do
  let r ← words.foldlM (Reading.read (some s)) .empty
  let r ← r.settle
  return (r.options, ← r.task s)

/-- What the words after `help` ask for. -/
def helpOn : List String → UsageError
  | [] => .helpAsked .program
  | name :: rest =>
    if !rest.isEmpty then .unknownSubcommand
    else if name = "help" then .helpAsked .help
    else (Subcommand.ofName? name).elim .unknownSubcommand fun s => .helpAsked (.subcommand s)

/-- Reads the words of the program. -/
def readWords (r : Reading) : List String → Except UsageError Arguments
  | [] => do
    let r ← r.settle
    return ⟨r.options, none⟩
  | word :: rest =>
    if r.operandsOnly || r.awaitsValue then do readWords (← r.read none word) rest
    else if word = "help" then .error (helpOn rest)
    else
      match Subcommand.ofName? word with
      | none => do readWords (← r.read none word) rest
      | some s => do
        let (inner, task) ← readSubcommand s rest
        let r ← r.settle
        return ⟨inner.merge r.options, some task⟩

end CommandLine

/-- Reads a command line. -/
def Arguments.ofWords (words : List String) : Except UsageError Arguments :=
  CommandLine.readWords .empty words

end ModalKeys
