import ModalKeys.Pass

/-!
# The event log

Everything the program does is told by events, in the order in which it happens. An event has a
level, the part of the program that it comes from, and a message.
-/

namespace ModalKeys.Log

/-- How much an event matters, the most serious first. -/
inductive Level where
  | error
  | warn
  | info
  | debug
  | trace
deriving DecidableEq, Repr

namespace Level

def name : Level → String
  | error => "ERROR"
  | warn => "WARN"
  | info => "INFO"
  | debug => "DEBUG"
  | trace => "TRACE"

/-- The number of levels at least as serious. -/
def rank : Level → Nat
  | error => 1
  | warn => 2
  | info => 3
  | debug => 4
  | trace => 5

end Level

inductive Event where
  /-- A file was read whole. -/
  | fileRead (path : String)
  /-- No keymap engine was found. -/
  | engineMissing
  | sourceFailed (path : String) (cause : SourceError)
  | passStarted (path : String) (lineCount : Nat)
  | lineSkipped (diagnostic : Diagnostic)
  | lineMapped (line : String)
  | passDone (applied skipped : Nat)
  | cleared
  | bound (lhs rhs : String) (scope : Scope)
  | unbound (lhs : String) (scope : Scope)
  /-- A bind without keys to bind to was not passed on. -/
  | refused (lhs : String)
  | configDirUnknown
  | configMissing (path : String)
  | configLoaded (path : String)
  | configInvalid (path : String)
  | configUnreadable (path reason : String)
  | configSaved (path : String)
  /-- A run of the program ended because a pass could not begin. -/
  | runFailed (error : PassError)
deriving DecidableEq, Repr

namespace Event

def level : Event → Level
  | runFailed _ => .error
  | engineMissing | sourceFailed _ _ | lineSkipped _ | refused _ | configInvalid _
  | configUnreadable _ _ => .warn
  | passStarted _ _ | passDone _ _ | cleared | configLoaded _ | configSaved _ => .info
  | fileRead _ | lineMapped _ | bound _ _ _ | unbound _ _ | configDirUnknown
  | configMissing _ => .debug

/-- The part of the program that tells the event, as log filters name it. -/
def target : Event → String
  | fileRead _ => "vimrc_loader::source"
  | engineMissing | sourceFailed _ _ | passStarted _ _ | lineSkipped _ | lineMapped _
  | passDone _ _ | cleared => "vimrc_loader::plugin"
  | bound _ _ _ | unbound _ _ | refused _ => "vimrc_loader::keymap::backend"
  | configDirUnknown | configMissing _ | configLoaded _ | configInvalid _ | configUnreadable _ _
  | configSaved _ => "vimrc_loader::config"
  | runFailed _ => "vimrc_loader::runtime::app"

def message : Event → String
  | fileRead path => s!"Read file {path}"
  | engineMissing => "Keymap backend not detected, vimrc will not be applied"
  | sourceFailed path cause => s!"Could not read vimrc at {path}: {cause.message}"
  | passStarted path lineCount => s!"Processing vimrc file {path} ({lineCount} lines)"
  | lineSkipped diagnostic => s!"Could not map {diagnostic.display}"
  | lineMapped line => s!"Successfully mapped! {line}"
  | passDone applied skipped => passNotice applied skipped
  | cleared => "Cleared vimrc mappings"
  | bound lhs rhs scope => s!"Bound {lhs} -> {rhs} in {scope.name} scope"
  | unbound lhs scope => s!"Unbound {lhs} in {scope.name} scope"
  | refused lhs => s!"Refusing to bind {lhs} without a right-hand side"
  | configDirUnknown => "No config directory available, using defaults"
  | configMissing path => s!"Config file not found at {path}, using defaults"
  | configLoaded path => s!"Loaded config from {path}"
  | configInvalid path => s!"Failed to parse config at {path}"
  | configUnreadable path reason => s!"Failed to read config at {path}: {reason}"
  | configSaved path => s!"Saved config to {path}"
  | runFailed error => error.message

end Event

end ModalKeys.Log
