/-!
# Characters and where they stand

Indentation decides what a YAML text means, so each character is read together with its place. A
text is a list of placed characters; what is left to read is always the rest of that list.

Besides the line feed there are four other line breaks. A carriage return and a line feed after it
are one break.
-/

namespace ModalKeys.Yaml

def isBreak (c : Char) : Bool :=
  c == '\n' || c == '\r' || c == '\u0085' || c == '\u2028' || c == '\u2029'

def isSpace (c : Char) : Bool :=
  c == ' ' || c == '\t'

/-- The character may occur in a YAML text at all. -/
def isAllowed (c : Char) : Bool :=
  let n := c.toNat
  n == 0x09 || n == 0x0A || n == 0x0D || (0x20 ≤ n && n ≤ 0x7E) || n == 0x85 ||
    (0xA0 ≤ n && n ≤ 0xD7FF) || (0xE000 ≤ n && n ≤ 0xFFFD) || 0x10000 ≤ n

/-- The characters of names: of directives, anchors and tag handles. -/
def isNameChar (c : Char) : Bool :=
  c.isAlphanum || c == '_' || c == '-'

/-- A character, the number of characters before it, its line and its column. -/
structure Placed where
  char : Char
  index : Nat
  line : Nat
  column : Nat
deriving Repr

abbrev Rest := List Placed

/-- Places characters from a point on. -/
def placeFrom (index line column : Nat) : List Char → Rest
  | [] => []
  | c :: cs =>
    let here : Placed := ⟨c, index, line, column⟩
    if c == '\r' && cs.head? == some '\n' then here :: placeFrom (index + 1) line column cs
    else if isBreak c then here :: placeFrom (index + 1) (line + 1) 0 cs
    else here :: placeFrom (index + 1) line (column + 1) cs

namespace Rest

def ofChars (cs : List Char) : Rest :=
  placeFrom 0 0 0 cs

/-- The next character is `c`. -/
def startsWith (c : Char) : Rest → Bool
  | [] => false
  | p :: _ => p.char == c

/-- The next character satisfies `f`; the end satisfies nothing. -/
def startsIn (f : Char → Bool) : Rest → Bool
  | [] => false
  | p :: _ => f p.char

/-- A space, a break or the end comes next. -/
def atGap : Rest → Bool
  | [] => true
  | p :: _ => isSpace p.char || isBreak p.char

/-- A break or the end comes next. -/
def atLineEnd : Rest → Bool
  | [] => true
  | p :: _ => isBreak p.char

/-- Three times `c` and a gap come next. -/
def atTriple (c : Char) : Rest → Bool
  | p :: q :: r :: rest => p.char == c && q.char == c && r.char == c && atGap rest
  | _ => false

/-- The mark of a document's start or end comes next, at the front of its line. -/
def atDocumentMark (rest : Rest) : Bool :=
  match rest with
  | [] => false
  | p :: _ => p.column == 0 && (atTriple '-' rest || atTriple '.' rest)

/-- The longest part from here whose characters all satisfy `f`, and what follows. -/
def span (f : Char → Bool) : Rest → List Char × Rest
  | [] => ([], [])
  | p :: rest =>
    if f p.char then
      let (word, rest) := span f rest
      (p.char :: word, rest)
    else ([], p :: rest)

def skip (f : Char → Bool) (rest : Rest) : Rest :=
  rest.dropWhile fun p => f p.char

/-- What a break means inside a scalar: the two separators stand for themselves. -/
def breakText (c : Char) : Char :=
  if c == '\u2028' || c == '\u2029' then c else '\n'

/-- Reads one break, if there is one. -/
def readBreak : Rest → List Char × Rest
  | [] => ([], [])
  | p :: rest =>
    if p.char == '\r' && startsWith '\n' rest then (['\n'], rest.drop 1)
    else if isBreak p.char then ([breakText p.char], rest)
    else ([], p :: rest)

/-- Skips a comment up to the end of its line. -/
def skipComment (rest : Rest) : Rest :=
  if startsWith '#' rest then skip (fun c => !isBreak c) rest else rest

end Rest

end ModalKeys.Yaml
