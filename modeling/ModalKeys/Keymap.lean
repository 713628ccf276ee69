import ModalKeys.Directive.Keyword

/-!
# Keymaps

A keymap stores mappings in the order in which their keys were first bound. There is at most one
mapping for the keys `lhs` in a mode: binding them again replaces the mapping where it stands.
`Keymap.render` writes a keymap as a directive file, grouped by mode.
-/

namespace ModalKeys

/-- In `mode`, the keys `lhs` stand for the keys `rhs`. -/
structure Mapping where
  mode : Mode
  lhs : String
  rhs : String
deriving DecidableEq, Repr

namespace Mapping

/-- The mapping is triggered by exactly these keys in this mode. -/
def isFor (m : Mapping) (mode : Mode) (keys : String) : Bool :=
  m.mode == mode && m.lhs == keys

/-- The directive that makes this mapping. -/
def display (m : Mapping) : String :=
  let keyword := Command.keyword ⟨.bind, .only m.mode⟩
  s!"{keyword} {m.lhs} {m.rhs}"

/-- Puts a mapping in the place of the one with its keys, or at the end. -/
def place (m : Mapping) : List Mapping → List Mapping
  | [] => [m]
  | x :: xs => if x.isFor m.mode m.lhs then m :: xs else x :: place m xs

end Mapping

/-- The mappings of all modes, and the modes that a binding without a mode goes to. -/
structure Keymap where
  defaultModes : List Mode
  mappings : List Mapping
deriving DecidableEq, Repr

namespace Keymap

def standardModes : List Mode :=
  [.normal, .visual]

def empty (defaultModes : List Mode) : Keymap :=
  ⟨defaultModes, []⟩

/-- The modes that a binding goes to. -/
def targets (k : Keymap) : Option Mode → List Mode
  | some mode => [mode]
  | none => k.defaultModes

def insert (k : Keymap) (m : Mapping) : Keymap :=
  { k with mappings := m.place k.mappings }

/-- Removes the mapping of some keys in one mode, and tells whether there was one. -/
def remove (k : Keymap) (mode : Mode) (lhs : String) : Keymap × Bool :=
  let rest := k.mappings.filter fun m => !m.isFor mode lhs
  ({ k with mappings := rest }, rest.length != k.mappings.length)

/-- What the keys stand for in a mode. -/
def lookup (k : Keymap) (mode : Mode) (lhs : String) : Option String :=
  (k.mappings.find? fun m => m.isFor mode lhs).map Mapping.rhs

def bind (k : Keymap) (lhs rhs : String) (mode : Option Mode) : Keymap :=
  (k.targets mode).foldl (fun k mode => k.insert ⟨mode, lhs, rhs⟩) k

def unbind (k : Keymap) (lhs : String) (mode : Option Mode) : Keymap :=
  (k.targets mode).foldl (fun k mode => (k.remove mode lhs).1) k

def clear (k : Keymap) : Keymap :=
  { k with mappings := [] }

/-- The mappings of the normal, the visual and the insert mode, each in stored order. -/
def grouped (k : Keymap) : List Mapping :=
  k.mappings.mergeSort fun a b => a.mode.rank ≤ b.mode.rank

/-- The keymap as a directive file. -/
def render (k : Keymap) : String :=
  .join (k.grouped.map fun m => m.display ++ "\n")

end Keymap

end ModalKeys
