import ModalKeys.Directive.Interpretation
import ModalKeys.Source.Error

/-!
# Passes

A pass reads a directive file, interprets it and applies the requests to a keymap engine. It ends
in a report, or in an error when it could not begin; lines that were skipped are part of the
report and no error.
-/

namespace ModalKeys

/-- Summary of one pass. -/
structure Report where
  path : String
  lineCount : Nat
  applied : List Request
  diagnostics : List Diagnostic
deriving DecidableEq, Repr

namespace Report

/-- The number of lines that were skipped. -/
def skipped (r : Report) : Nat :=
  r.diagnostics.countP Diagnostic.isProblem

end Report

/-- Short message on a pass that applied some requests and skipped some lines. -/
def passNotice (applied skipped : Nat) : String :=
  if skipped = 0 then s!"Loaded vimrc ({applied} mappings)"
  else s!"Loaded vimrc ({applied} mappings, {skipped} lines skipped)"

def Report.notice (r : Report) : String :=
  passNotice r.applied.length r.skipped

/-- Why a pass could not begin. -/
inductive PassError where
  | engineMissing
  | sourceFailed (cause : SourceError)
deriving DecidableEq, Repr

namespace PassError

def message : PassError → String
  | engineMissing => "Keymap backend unavailable"
  | sourceFailed e => s!"Source unavailable: {e.message}"

/-- Short message for the user. -/
def notice : PassError → String
  | engineMissing => "Vim keymap engine not available"
  | sourceFailed e => s!"Could not find the file in {e.path}"

/-- The failure behind this one. -/
def cause? : PassError → Option SourceError
  | engineMissing => none
  | sourceFailed e => some e

end PassError

end ModalKeys
