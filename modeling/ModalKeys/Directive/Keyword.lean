import ModalKeys.Directive.Basic

/-!
# The keywords

Eight keywords, one for each operation and scope. `Command.ofKeyword?` is exact: case counts and
nothing is abbreviated.
-/

namespace ModalKeys

/-- What a keyword stands for. -/
structure Command where
  operation : Operation
  scope : Scope
deriving DecidableEq, Repr

namespace Command

/-- Every keyword with its command, in the order of the documentation. -/
def table : List (String × Command) :=
  [("nmap", ⟨.bind, .only .normal⟩),
   ("vmap", ⟨.bind, .only .visual⟩),
   ("imap", ⟨.bind, .only .insert⟩),
   ("map", ⟨.bind, .default⟩),
   ("nunmap", ⟨.unbind, .only .normal⟩),
   ("vunmap", ⟨.unbind, .only .visual⟩),
   ("iunmap", ⟨.unbind, .only .insert⟩),
   ("unmap", ⟨.unbind, .default⟩)]

def keywords : List String :=
  table.map Prod.fst

/-- The command of a keyword. -/
def ofKeyword? (keyword : String) : Option Command :=
  table.lookup keyword

/-- The keyword of a command. -/
def keyword : Command → String
  | ⟨.bind, .only .normal⟩ => "nmap"
  | ⟨.bind, .only .visual⟩ => "vmap"
  | ⟨.bind, .only .insert⟩ => "imap"
  | ⟨.bind, .default⟩ => "map"
  | ⟨.unbind, .only .normal⟩ => "nunmap"
  | ⟨.unbind, .only .visual⟩ => "vunmap"
  | ⟨.unbind, .only .insert⟩ => "iunmap"
  | ⟨.unbind, .default⟩ => "unmap"

end Command

end ModalKeys
