import ModalKeys.Keymap
import ModalKeys.Log.Event

/-!
# Keymap engines

An engine is whatever keeps the bindings of a host. It is driven by calls alone, so that two
engines that got the same calls were asked for the same thing. `Keymap` is an engine, and so is
the list of the calls themselves.

`dispatch` passes one request on. A request to bind without keys to bind to is refused and reaches
no engine. `applyAll` counts the requests that were passed on and `applyKeeping` keeps them.
-/

namespace ModalKeys

/-- What an engine is asked to do. Without a mode the engine takes its own default modes. -/
inductive Call where
  | bind (lhs rhs : String) (mode : Option Mode)
  | unbind (lhs : String) (mode : Option Mode)
  | clear
deriving DecidableEq, Repr

/-- The states of an engine, and how a call changes them. -/
class Engine (σ : Type) where
  receive : σ → Call → σ

instance : Engine Keymap where
  receive k
    | .bind lhs rhs mode => k.bind lhs rhs mode
    | .unbind lhs mode => k.unbind lhs mode
    | .clear => k.clear

/-- The engine that only remembers its calls, the last at the end. -/
instance : Engine (List Call) where
  receive calls call := calls ++ [call]

/-- The state of an engine after some requests, what was logged, and an answer. -/
structure Dispatched (σ α : Type) where
  engine : σ
  events : List Log.Event
  answer : α

namespace Engine

variable {σ : Type} [Engine σ]

/-- Passes one request on and tells whether it could be. -/
def dispatch (engine : σ) (r : Request) : Dispatched σ Bool :=
  match r.operation, r.rhs with
  | .bind, some rhs =>
    ⟨receive engine (.bind r.lhs rhs r.scope.mode?), [.bound r.lhs rhs r.scope], true⟩
  | .bind, none => ⟨engine, [.refused r.lhs], false⟩
  | .unbind, _ => ⟨receive engine (.unbind r.lhs r.scope.mode?), [.unbound r.lhs r.scope], true⟩

/-- Passes requests on in order and counts those that could be. -/
def applyAll (engine : σ) : List Request → Dispatched σ Nat
  | [] => ⟨engine, [], 0⟩
  | r :: rs =>
    let first := dispatch engine r
    let rest := applyAll first.engine rs
    ⟨rest.engine, first.events ++ rest.events, rest.answer + first.answer.toNat⟩

/-- Passes requests on in order and keeps those that could be. -/
def applyKeeping (engine : σ) : List Request → Dispatched σ (List Request)
  | [] => ⟨engine, [], []⟩
  | r :: rs =>
    let first := dispatch engine r
    let rest := applyKeeping first.engine rs
    ⟨rest.engine, first.events ++ rest.events,
      if first.answer then r :: rest.answer else rest.answer⟩

end Engine

end ModalKeys
