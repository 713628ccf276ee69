import ModalKeys.Yaml.Resolve

/-!
# Writing a string

`write` gives the text of a string as the value of a key in a mapping that is not indented. A
string with a line feed is written as a literal block, one that is ambiguous in single quotes, and
any other plain. Where the characters do not allow that, a plain string falls back to single quotes,
and single quotes and blocks fall back to double quotes, which allow everything. Lines are never
folded.
-/

namespace ModalKeys.Yaml

/-- How a string is written. -/
inductive Style where
  | plain
  | singleQuoted
  | doubleQuoted
  | literal
deriving DecidableEq, Repr

/-- The character stands for itself in every style. -/
def isPrintable (c : Char) : Bool :=
  let n := c.toNat
  n == 0x0A || (0x20 ≤ n && n ≤ 0x7E) || (0xA0 ≤ n && n ≤ 0xD7FF) ||
    (0xE000 ≤ n && n ≤ 0xFFFD && n != 0xFEFF) || 0x10000 ≤ n

/-- A space, a break or the end comes next. -/
def gapNext (cs : List Char) : Bool :=
  cs.head?.all fun c => isSpace c || isBreak c || c == '\x00'

/-- A pair of neighbours satisfies `f` and `g`. -/
def neighbours (f g : Char → Bool) (cs : List Char) : Bool :=
  (cs.zip cs.tail).any fun (a, b) => f a && g b

namespace Style

/-- Indicators that a plain string may not begin with. -/
def leadingIndicators : List Char :=
  "#,[]\x7b\x7d&*!|>'\"%@`".toList

/-- The beginning would be taken for something else than a plain string. -/
def badStart : List Char → Bool
  | [] => false
  | c :: cs =>
    leadingIndicators.contains c || ((c == '?' || c == ':' || c == '-') && gapNext cs) ||
      [['-', '-', '-'], ['.', '.', '.']].contains ((c :: cs).take 3)

/-- A colon would end a key, or a number sign would begin a comment. -/
def badMiddle : List Char → Bool
  | c :: d :: cs =>
    (d == ':' && gapNext cs) || (gapNext [c] && d == '#') || badMiddle (d :: cs)
  | _ => false

/-- All characters can be written, and no space comes before a break. -/
def writable (cs : List Char) : Bool :=
  cs.all isPrintable && !neighbours (· == ' ') isBreak cs

def singleAllowed (cs : List Char) : Bool :=
  writable cs && !neighbours isBreak (· == ' ') cs

def literalAllowed (cs : List Char) : Bool :=
  writable cs && cs.getLast?.all (· != ' ')

def plainAllowed (cs : List Char) : Bool :=
  singleAllowed cs && !cs.any isBreak && !badStart cs && !badMiddle cs &&
    cs.head?.all (· != ' ') && cs.getLast?.all (· != ' ')

/-- The style in which a string is written. -/
def of (s : String) : Style :=
  let cs := s.toList
  if cs.contains '\n' then (if literalAllowed cs then literal else doubleQuoted)
  else if plainAllowed cs && !isAmbiguous s then plain
  else if singleAllowed cs then singleQuoted
  else doubleQuoted

end Style

def indentation : List Char :=
  [' ', ' ']

/-- Writes the inside of single quotes; `broken` tells that a break has just been written. -/
def singleQuotedChars (broken : Bool) : List Char → List Char
  | [] => if broken then indentation else []
  | c :: cs =>
    if c == ' ' then c :: singleQuotedChars broken cs
    else if isBreak c then c :: singleQuotedChars true cs
    else
      (if broken then indentation else []) ++ (if c == '\'' then [c, c] else [c]) ++
        singleQuotedChars false cs

/-- The letter of a one-letter escape. -/
def escapeLetter? (c : Char) : Option Char :=
  [('\x00', '0'), ('\x07', 'a'), ('\x08', 'b'), ('\t', 't'), ('\n', 'n'), ('\x0b', 'v'),
    ('\x0c', 'f'), ('\r', 'r'), ('\x1b', 'e'), ('"', '"'), ('\\', '\\'), ('\u0085', 'N'),
    ('\u2028', 'L'), ('\u2029', 'P')].lookup c

/-- The last `count` hexadecimal digits of a number, in capitals. -/
def hexDigits (count n : Nat) : List Char :=
  (List.range count).reverse.map fun k =>
    let d := n / .pow 16 k % 16
    .ofNat (if d < 10 then 48 + d else 55 + d)

/-- What stands for a character inside double quotes. -/
def doubleQuotedChar (c : Char) : List Char :=
  if isPrintable c && !isBreak c && c != '"' && c != '\\' then [c]
  else
    match escapeLetter? c with
    | some letter => ['\\', letter]
    | none =>
      let n := c.toNat
      if n ≤ 0xFF then '\\' :: 'x' :: hexDigits 2 n
      else if n ≤ 0xFFFF then '\\' :: 'u' :: hexDigits 4 n
      else '\\' :: 'U' :: hexDigits 8 n

/-- What the header of a block says: the indentation where the first character hides it, and what
becomes of the breaks at the end. -/
def literalHeader (cs : List Char) : List Char :=
  let hint := if cs.head?.any fun c => c == ' ' || isBreak c then ['2'] else []
  let chomping :=
    match cs.reverse with
    | [] => ['-']
    | [c] => if isBreak c then ['+'] else ['-']
    | c :: d :: _ => if !isBreak c then ['-'] else if isBreak d then ['+'] else []
  '|' :: hint ++ chomping

/-- Writes the lines of a block, from the start of one if `atStart`. -/
def literalChars (atStart : Bool) : List Char → List Char
  | [] => if atStart then [] else ['\n']
  | c :: cs =>
    if isBreak c then c :: literalChars true cs
    else (if atStart then indentation else []) ++ c :: literalChars false cs

/-- Writes a string as the value of a key, to the end of its last line. -/
def writeChars (s : String) : List Char :=
  let cs := s.toList
  match Style.of s with
  | .plain => cs ++ ['\n']
  | .singleQuoted => '\'' :: singleQuotedChars false cs ++ ['\'', '\n']
  | .doubleQuoted => '"' :: cs.flatMap doubleQuotedChar ++ ['"', '\n']
  | .literal => literalHeader cs ++ '\n' :: literalChars true cs

/-- A mapping of one entry; the key is a word that needs no quotes. -/
def writeEntry (key value : String) : String :=
  key ++ ": " ++ .ofList (writeChars value)

end ModalKeys.Yaml
