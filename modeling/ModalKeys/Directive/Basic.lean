/-!
# Modes, scopes and binding requests

A binding applies in an editing mode. A directive names one mode, or leaves the choice to the
keymap, which has modes of its own for that case; `Scope` keeps the two apart. A `Request` is a
directive that has been understood and is ready for a keymap.
-/

namespace ModalKeys

/-- An editing mode. -/
inductive Mode where
  | normal
  | visual
  | insert
deriving DecidableEq, Repr

namespace Mode

def name : Mode → String
  | normal => "normal"
  | visual => "visual"
  | insert => "insert"

/-- The order in which the modes are listed. -/
def rank : Mode → Nat
  | normal => 0
  | visual => 1
  | insert => 2

end Mode

/-- Where a binding applies: in one mode, or in the modes that the keymap takes by default. -/
inductive Scope where
  | only (mode : Mode)
  | default
deriving DecidableEq, Repr

namespace Scope

/-- The one mode of a scope that has one. -/
def mode? : Scope → Option Mode
  | only m => some m
  | default => none

def name : Scope → String
  | only m => m.name
  | default => "default"

end Scope

/-- What a directive does to a keymap. -/
inductive Operation where
  | bind
  | unbind
deriving DecidableEq, Repr

namespace Operation

/-- The number of operands that a directive with this operation takes. -/
def arity : Operation → Nat
  | bind => 2
  | unbind => 1

def name : Operation → String
  | bind => "bind"
  | unbind => "unbind"

end Operation

/--
An instruction to bind or unbind the keys `lhs`. Interpreting a directive gives the keys `rhs`
exactly to a bind (`bind`, `unbind`); a request from elsewhere may lack or carry them regardless.
-/
structure Request where
  operation : Operation
  scope : Scope
  lhs : String
  rhs : Option String
deriving DecidableEq, Repr

namespace Request

def bind (scope : Scope) (lhs rhs : String) : Request :=
  ⟨.bind, scope, lhs, some rhs⟩

def unbind (scope : Scope) (lhs : String) : Request :=
  ⟨.unbind, scope, lhs, none⟩

/-- One line for the reader of a log. -/
def display (r : Request) : String :=
  match r.operation, r.rhs with
  | .bind, some rhs => s!"bind {r.lhs} -> {rhs} ({r.scope.name})"
  | _, _ => s!"unbind {r.lhs} ({r.scope.name})"

end Request

end ModalKeys
