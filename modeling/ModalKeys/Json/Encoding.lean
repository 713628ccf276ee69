import ModalKeys.Json.Basic
import ModalKeys.Keymap
import ModalKeys.Pass
import ModalKeys.Settings.Basic

/-!
# Reports as JSON

How requests, diagnostics, reports, mappings and settings are laid out as objects. A request without
keys to bind to has no field for them; what a diagnostic says besides its kind stands in the same
object as the kind.
-/

namespace ModalKeys

def Request.toJson (r : Request) : Json :=
  .obj ([("operation", .str r.operation.name), ("scope", .str r.scope.name), ("lhs", .str r.lhs)] ++
    match r.rhs with
    | some rhs => [("rhs", .str rhs)]
    | none => [])

/-- The fields that name a fault, or its absence. -/
def Fault.jsonFields : Option Fault → List (String × Json)
  | none => [("kind", .str "mapped")]
  | some (.unrecognized keyword) =>
    [("kind", .str "unrecognized_directive"), ("keyword", .str keyword)]
  | some (.missingOperand expected found) =>
    [("kind", .str "missing_operand"), ("expected", .num expected), ("found", .num found)]
  | some (.unexpectedOperand expected found) =>
    [("kind", .str "unexpected_operand"), ("expected", .num expected), ("found", .num found)]

def Diagnostic.toJson (d : Diagnostic) : Json :=
  .obj ([("line_number", .num d.lineNumber), ("line", .str d.line)] ++ Fault.jsonFields d.fault)

def Interpretation.toJson (i : Interpretation) : Json :=
  .obj [("requests", .arr (i.requests.map Request.toJson)),
    ("diagnostics", .arr (i.diagnostics.map Diagnostic.toJson)),
    ("line_count", .num i.lineCount)]

def Report.toJson (r : Report) : Json :=
  .obj [("path", .str r.path),
    ("line_count", .num r.lineCount),
    ("applied", .arr (r.applied.map Request.toJson)),
    ("diagnostics", .arr (r.diagnostics.map Diagnostic.toJson))]

def Mapping.toJson (m : Mapping) : Json :=
  .obj [("mode", .str m.mode.name), ("lhs", .str m.lhs), ("rhs", .str m.rhs)]

def Settings.toJson (s : Settings) : Json :=
  .obj [(pathKey, .str s.directivePath)]

end ModalKeys
