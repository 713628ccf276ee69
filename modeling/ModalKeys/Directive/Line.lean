import ModalKeys.Text

/-!
# Lines of a directive file

A line is blank, a comment, or a directive: a keyword and its operands. A double quote begins a
comment only as the first character that is not blank; inside a directive it is a character like
any other.
-/

namespace ModalKeys

/-- What a line of a directive file is. -/
inductive Line where
  | blank
  | comment
  | directive (keyword : String) (operands : List String)
deriving DecidableEq, Repr

namespace Line

/-- The character that makes a line a comment. -/
def commentMarker : Char := '"'

/-- Reads the words of a line. -/
def ofWords : List (List Char) → Line
  | [] => .blank
  | w :: ws =>
    if w.head? = some commentMarker then .comment
    else .directive (.ofList w) (ws.map String.ofList)

/-- Reads one line. -/
def ofChars (cs : List Char) : Line :=
  ofWords (Text.words cs)

end Line

end ModalKeys
