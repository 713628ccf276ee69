/-!
# Blanks, words and lines

A directive file is read as lines, and a line as words with blanks between them. A blank is any
character with the White_Space property, so a no-break space or an ideographic space parts words
as a tab does.

`trim` drops the blanks around a text, `words` gives the maximal runs without a blank, and `lines`
gives the lines of a file, each without its end.
-/

namespace ModalKeys.Text

/-- The characters with the White_Space property. -/
def isBlank (c : Char) : Bool :=
  let n := c.toNat
  (0x09 ≤ n && n ≤ 0x0D) || n == 0x20 || n == 0x85 || n == 0xA0 || n == 0x1680 ||
    (0x2000 ≤ n && n ≤ 0x200A) || n == 0x2028 || n == 0x2029 || n == 0x202F || n == 0x205F ||
    n == 0x3000

/-- Drops the blanks at the end. -/
def trimEnd : List Char → List Char
  | [] => []
  | c :: cs =>
    match trimEnd cs with
    | [] => if isBlank c then [] else [c]
    | kept => c :: kept

/-- Drops the blanks at both ends. -/
def trim (cs : List Char) : List Char :=
  trimEnd (cs.dropWhile isBlank)

/-- The maximal runs of characters that are not blank, in order. -/
def words : List Char → List (List Char)
  | [] => []
  | c :: cs =>
    if isBlank c then words cs
    else if cs.head?.all isBlank then [c] :: words cs
    else
      match words cs with
      | [] => [[c]]
      | w :: ws => (c :: w) :: ws

/--
The lines of a text. A line feed ends a line and takes one carriage return before it along; a last
line without an end is kept as it is, and there is no empty line after the last end.
-/
def lines : List Char → List (List Char)
  | [] => []
  | '\n' :: cs => [] :: lines cs
  | '\r' :: '\n' :: cs => [] :: lines cs
  | c :: cs =>
    match lines cs with
    | [] => [[c]]
    | l :: ls => (c :: l) :: ls

end ModalKeys.Text

namespace ModalKeys

/-- The text without the blanks at both ends. -/
def trimmed (s : String) : String :=
  .ofList (Text.trim s.toList)

/-- A text is blank when it has no character but blanks. -/
def blank (s : String) : Bool :=
  s.toList.all Text.isBlank

end ModalKeys
