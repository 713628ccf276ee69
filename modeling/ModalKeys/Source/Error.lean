/-!
# Failures to obtain a text
-/

namespace ModalKeys

/-- Why the text at a path could not be had. -/
inductive SourceError where
  | notFound (path : String)
  | unreadable (path reason : String)
deriving DecidableEq, Repr

namespace SourceError

def path : SourceError → String
  | notFound path => path
  | unreadable path _ => path

def message : SourceError → String
  | notFound path => s!"File not found: {path}"
  | unreadable path reason => s!"Failed to read file {path}: {reason}"

end SourceError

end ModalKeys
