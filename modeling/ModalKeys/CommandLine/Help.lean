import ModalKeys.CommandLine.Basic

/-!
# Help texts

What the program prints about itself: its version, and one page of help for each topic.
-/

namespace ModalKeys

namespace CommandLine

def programName : String := "vimrc-loader"

def version : String := "0.1.0"

/-- What a subcommand does. -/
def about : Subcommand → String
  | .load => "Apply the directive file and print the resulting mappings (default)"
  | .check => "Interpret the directive file and report skipped lines"
  | .setPath => "Save a new directive file path"
  | .showConfig => "Print the effective settings"

def aboutHelp : String :=
  "Print this message or the help of the given subcommand(s)"

/-- Rows of two columns, the second set two blanks after the widest first one. -/
def table (rows : List (String × String)) : List String :=
  let width := (rows.map fun row => row.1.length).foldl max 0
  rows.map fun (left, right) => "  " ++ left.pushn ' ' (width - left.length) ++ "  " ++ right

/-- The options at a level; only the program itself has a version. -/
def optionRows (isProgram : Bool) : List (String × String) :=
  [("    --root <DIR>", "Directory the directive path is relative to (defaults to cwd)"),
   ("    --vimrc <PATH>", "Use this directive file for one run without saving it"),
   ("    --settings <FILE>", "Settings file to read and write instead of the user config"),
   ("    --json", "Print reports as JSON"),
   ("-h, --help", "Print help")] ++
    if isProgram then [("-V, --version", "Print version")] else []

/-- A page with a heading, how the program is called, and sections of rows. -/
def page (heading usage : String) (sections : List (String × List (String × String))) : String :=
  "\n".intercalate ([heading, "", s!"Usage: {programName} {usage}"] ++
    sections.flatMap fun (title, rows) => ["", s!"{title}:"] ++ table rows) ++ "\n"

def helpPage : HelpTopic → String
  | .program =>
    page "Apply vimrc keybinding directives to a modal keymap" "[OPTIONS] [COMMAND]"
      [("Commands", Subcommand.all.map (fun s => (s.name, about s)) ++ [("help", aboutHelp)]),
       ("Options", optionRows true)]
  | .subcommand .setPath =>
    page (about .setPath) "set-path [OPTIONS] <PATH>"
      [("Arguments", [("<PATH>", "Path relative to the root directory")]),
       ("Options", optionRows false)]
  | .subcommand s => page (about s) s!"{s.name} [OPTIONS]" [("Options", optionRows false)]
  | .help =>
    page aboutHelp "help [COMMAND]..."
      [("Arguments", [("[COMMAND]...", "Print help for the subcommand(s)")])]

end CommandLine

namespace UsageError

/-- What is wrong, in a few words; there is nothing wrong with asking for help or the version. -/
def fault? : UsageError → Option String
  | unknownArgument => some "unexpected argument"
  | unknownSubcommand => some "unrecognized subcommand"
  | operandMissing => some "the required argument <PATH> was not provided"
  | optionRepeated => some "an option cannot be used multiple times"
  | valueMissing => some "a value is required for an option"
  | valueNotTaken => some "unexpected value for an option"
  | helpAsked _ | versionAsked => none

/-- What is printed as an answer. -/
def answer : UsageError → String
  | helpAsked topic => CommandLine.helpPage topic
  | versionAsked => s!"{CommandLine.programName} {CommandLine.version}\n"
  | _ => ""

def exitCode (e : UsageError) : Nat :=
  if e.fault?.isSome then 2 else 0

end UsageError

end ModalKeys
