import ModalKeys.Directive.Keyword
import ModalKeys.Directive.Line

/-!
# Interpreting a directive file

`interpret` reads a whole file and never fails. Each line that is neither blank nor a comment gets
one diagnostic, which says that the line was mapped or why it was skipped; each mapped line adds
one request. Lines are numbered from 1 and blank lines and comments count.
-/

namespace ModalKeys

/-- Why a directive gives no request. -/
inductive Fault where
  | unrecognized (keyword : String)
  | missingOperand (expected found : Nat)
  | unexpectedOperand (expected found : Nat)
deriving DecidableEq, Repr

/-- What became of one directive: `fault` is absent when the line was mapped. -/
structure Diagnostic where
  lineNumber : Nat
  line : String
  fault : Option Fault
deriving DecidableEq, Repr

namespace Diagnostic

/-- The line was skipped. -/
def isProblem (d : Diagnostic) : Bool :=
  d.fault.isSome

/-- One line for the user. -/
def display (d : Diagnostic) : String :=
  s!"line {d.lineNumber}: " ++
    match d.fault with
    | none => s!"mapped `{d.line}`"
    | some (.unrecognized keyword) => s!"unrecognized directive `{keyword}` in `{d.line}`"
    | some (.missingOperand expected found) =>
      s!"missing operand in `{d.line}` (expected {expected}, found {found})"
    | some (.unexpectedOperand expected found) =>
      s!"unexpected operand in `{d.line}` (expected {expected}, found {found})"

end Diagnostic

/-- The request of a directive, or why there is none. -/
def Request.ofDirective (keyword : String) (operands : List String) : Except Fault Request :=
  match Command.ofKeyword? keyword with
  | none => .error (.unrecognized keyword)
  | some c =>
    match c.operation, operands with
    | .bind, [lhs, rhs] => .ok (.bind c.scope lhs rhs)
    | .unbind, [lhs] => .ok (.unbind c.scope lhs)
    | op, _ =>
      if operands.length < op.arity then .error (.missingOperand op.arity operands.length)
      else .error (.unexpectedOperand op.arity operands.length)

/-- What a directive file asks for, and what became of its lines. -/
structure Interpretation where
  requests : List Request
  diagnostics : List Diagnostic
  lineCount : Nat
deriving DecidableEq, Repr

namespace Interpretation

def empty : Interpretation :=
  ⟨[], [], 0⟩

/-- The diagnostics of the lines that were skipped. -/
def problems (i : Interpretation) : List Diagnostic :=
  i.diagnostics.filter Diagnostic.isProblem

def problemCount (i : Interpretation) : Nat :=
  i.problems.length

/-- Puts line `n` before the interpretation of the lines after it. -/
def consLine (n : Nat) (line : List Char) (rest : Interpretation) : Interpretation :=
  match Line.ofChars line with
  | .blank | .comment => { rest with lineCount := rest.lineCount + 1 }
  | .directive keyword operands =>
    let shown := String.ofList (Text.trim line)
    match Request.ofDirective keyword operands with
    | .ok request =>
      ⟨request :: rest.requests, ⟨n, shown, none⟩ :: rest.diagnostics, rest.lineCount + 1⟩
    | .error fault =>
      ⟨rest.requests, ⟨n, shown, some fault⟩ :: rest.diagnostics, rest.lineCount + 1⟩

/-- Interprets lines of which the first has number `n`. -/
def ofLinesFrom (n : Nat) : List (List Char) → Interpretation
  | [] => empty
  | line :: rest => consLine n line (ofLinesFrom (n + 1) rest)

end Interpretation

/-- Interprets a directive file. -/
def interpret (text : String) : Interpretation :=
  .ofLinesFrom 1 (Text.lines text.toList)

end ModalKeys
