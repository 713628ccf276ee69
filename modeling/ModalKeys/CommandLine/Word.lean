/-!
# Words of a command line

A word says by its first characters what it can be. Two hyphens alone part the options from the
operands; two hyphens and a name are an option, with a value after an equals sign; one hyphen
begins letters; everything else is plain, a single hyphen too.
-/

namespace ModalKeys

inductive Word where
  | separator
  | long (name : String) (value : Option String)
  /-- One hyphen and letters, of which only the first is ever looked at. -/
  | letters (first : Char)
  | plain (text : String)
deriving DecidableEq, Repr

namespace Word

/-- Parts the name of an option from the value after the first equals sign. -/
def splitValue (cs : List Char) : String × Option String :=
  match cs.span (· != '=') with
  | (name, []) => (.ofList name, none)
  | (name, _ :: value) => (.ofList name, some (.ofList value))

def ofString (s : String) : Word :=
  match s.toList with
  | ['-', '-'] => separator
  | '-' :: '-' :: cs => long (splitValue cs).1 (splitValue cs).2
  | '-' :: c :: _ => letters c
  | _ => plain s

end Word

end ModalKeys
