import ModalKeys.Yaml.Scalar
import ModalKeys.Yaml.Token

/-!
# Cutting a text into tokens

`tokenize` turns a text into its tokens. Two things need memory. The indentation of the open blocks
is kept, so that a line further left closes blocks and one further right may open one. And a key is
known as a key only when its colon comes, so the place where it began is remembered as a candidate:
the colon then puts the token `key` in front of it. A candidate has to end on its line and within
1024 characters. In a block, a candidate at the indentation of its mapping must turn out to be a
key.
-/

namespace ModalKeys.Yaml

open Rest

/-- Where a key may have begun. -/
structure Candidate where
  required : Bool
  /-- The number of tokens before it. -/
  token : Nat
  place : Placed

/-- The longest distance between the beginning of a key and its colon. -/
def keyLimit : Nat := 1024

/--
What has been read and what is left. `level` is one more than the column of the innermost open
block, or zero outside of all blocks; `outer` holds the candidates around the open flow
collections and is empty outside of them.
-/
structure Lexer where
  rest : Rest
  tokens : Array Token
  level : Nat
  levels : List Nat
  candidate : Option Candidate
  outer : List (Option Candidate)
  keyAllowed : Bool

namespace Lexer

def ofRest (rest : Rest) : Lexer :=
  ⟨rest, #[], 0, [], none, [], true⟩

def inFlow (s : Lexer) : Bool :=
  !s.outer.isEmpty

def push (s : Lexer) (t : Token) : Lexer :=
  { s with tokens := s.tokens.push t }

/-- Adds a token of `n` characters. -/
def pushOver (s : Lexer) (t : Token) (n : Nat) : Lexer :=
  { s.push t with rest := s.rest.drop n }

/-! ## Indentation -/

/-- Opens a block at a column, unless one is open there; `opening` goes before the token `index`. -/
def openBlock (s : Lexer) (column : Nat) (opening : Token) (index : Nat) : Lexer :=
  if s.inFlow || column + 1 ≤ s.level then s
  else
    { s with
      level := column + 1
      levels := s.level :: s.levels
      tokens := s.tokens.insertIdxIfInBounds index opening }

/-- Closes open blocks until the level is at most `level`. -/
def closeLevels (level : Nat) : List Nat → Lexer → Lexer
  | [], s => s
  | outer :: levels, s =>
    if s.level ≤ level then s
    else closeLevels level levels { s.push .blockEnd with level := outer, levels := levels }

/-- Closes the blocks that a token at this level is not part of. -/
def closeBlocks (s : Lexer) (level : Nat) : Lexer :=
  if s.inFlow then s else closeLevels level s.levels s

/-! ## Candidates for keys -/

/-- Drops a candidate; one that had to be a key is missing its colon. -/
def dropCandidate (c : Option Candidate) : Except Error (Option Candidate) :=
  if c.any (·.required) then .error .colonExpected else .ok none

def forget (s : Lexer) : Except Error Lexer := do
  return { s with candidate := ← dropCandidate s.candidate }

/-- Drops a candidate that can be no key any more. -/
def expire (here : Placed) (c : Option Candidate) : Except Error (Option Candidate) :=
  if c.any fun c => c.place.line < here.line || c.place.index + keyLimit < here.index then
    dropCandidate c
  else .ok c

def expireAll (s : Lexer) (here : Placed) : Except Error Lexer := do
  return { s with
    candidate := ← expire here s.candidate
    outer := ← s.outer.mapM (expire here) }

/-- Notes that a key may begin here. -/
def note (s : Lexer) (here : Placed) : Except Error Lexer := do
  if !s.keyAllowed then return s
  let s ← s.forget
  let required := !s.inFlow && s.level == here.column + 1
  return { s with candidate := some ⟨required, s.tokens.size, here⟩ }

/-! ## What stands between tokens -/

/--
Skips spaces, breaks and comments. Outside of flow collections a new line may begin a key, and a
tab may not stand where a key may begin. The answer tells whether a key may begin, and the rest.
-/
def skipGap (inFlow keyAllowed inComment : Bool) : Rest → Bool × Rest
  | [] => (keyAllowed, [])
  | p :: rest =>
    if isBreak p.char then skipGap inFlow (keyAllowed || !inFlow) false rest
    else if inComment then skipGap inFlow keyAllowed true rest
    else if p.char == ' ' || (p.char == '\t' && (inFlow || !keyAllowed)) ||
        (p.index == 0 && p.char == '\ufeff') then
      skipGap inFlow keyAllowed false rest
    else if p.char == '#' then skipGap inFlow keyAllowed true rest
    else (keyAllowed, p :: rest)

/-! ## Directives, anchors and tags -/

/-- Reads a number of at most nine digits. -/
def readVersionNumber (rest : Rest) : Except Error (Nat × Rest) := do
  let (digits, rest) := span Char.isDigit rest
  if digits.isEmpty || digits.length > 9 then throw .versionNumber
  return (digits.foldl (fun n c => 10 * n + (c.toNat - '0'.toNat)) 0, rest)

/-- Reads a tag handle: an exclamation mark, a name, and a second mark if there is one. -/
def readHandle (rest : Rest) : Except Error (List Char × Rest) := do
  if !startsWith '!' rest then throw .tagHandle
  let (name, rest) := span isNameChar (rest.drop 1)
  if startsWith '!' rest then return ('!' :: name ++ ['!'], rest.drop 1)
  return ('!' :: name, rest)

/-- The characters of a tag's address besides those of names. -/
def isUriMark (verbatim : Bool) (c : Char) : Bool :=
  ";/?:@&=+$.!~*'()".toList.contains c || (verbatim && ",[]".toList.contains c)

/-- The number of bytes in the encoding of a character, by its first byte. -/
def encodedLength? (first : Nat) : Option Nat :=
  if first < 0x80 then some 1
  else if 0xC0 ≤ first ∧ first < 0xE0 then some 2
  else if 0xE0 ≤ first ∧ first < 0xF0 then some 3
  else if 0xF0 ≤ first ∧ first < 0xF8 then some 4
  else none

/-- Reads a byte written as a percent sign and two hexadecimal digits. -/
def readByte (rest : Rest) : Except Error (Nat × Rest) :=
  match rest with
  | p :: a :: b :: tail =>
    match hexNumber? [a.char, b.char] with
    | some n => if p.char == '%' then .ok (n, tail) else .error .tagUri
    | none => .error .tagUri
  | _ => .error .tagUri

/-- Reads the bytes that follow the first one of a character. -/
def readMoreBytes : Nat → Rest → Except Error Rest
  | 0, rest => .ok rest
  | n + 1, rest => do
    let (byte, rest) ← readByte rest
    if 0x80 ≤ byte ∧ byte < 0xC0 then readMoreBytes n rest else throw .tagUri

/-- Reads the address of a tag; it may be empty only if something of the tag came before it. -/
def readUri (verbatim begun : Bool) : Nat → Rest → Except Error Rest
  | 0, _ => .error .outOfSteps
  | steps + 1, rest => do
    if startsWith '%' rest then
      let (first, rest) ← readByte rest
      match encodedLength? first with
      | none => throw .tagUri
      | some length => readUri verbatim true steps (← readMoreBytes (length - 1) rest)
    else if startsIn (fun c => isNameChar c || isUriMark verbatim c) rest then
      readUri verbatim true steps (rest.drop 1)
    else if begun then return rest
    else throw .tagUri

def readWholeUri (verbatim begun : Bool) (rest : Rest) : Except Error Rest :=
  readUri verbatim begun (rest.length + 1) rest

/-- Reads a directive; the sign before its name comes next. -/
def readDirective (rest : Rest) : Except Error (Token × Rest) := do
  let (name, rest) := span isNameChar (rest.drop 1)
  if name.isEmpty || !atGap rest then throw .directiveName
  let (token, rest) ←
    if name == "YAML".toList then do
      let (major, rest) ← readVersionNumber (skip isSpace rest)
      if !startsWith '.' rest then throw .versionNumber
      let (minor, rest) ← readVersionNumber (rest.drop 1)
      pure (Token.version major minor, rest)
    else if name == "TAG".toList then do
      let (handle, rest) ← readHandle (skip isSpace rest)
      if handle.getLast? != some '!' then throw .tagHandle
      if !startsIn isSpace rest then throw .tagHandle
      let rest ← readWholeUri true false (skip isSpace rest)
      if !atGap rest then throw .tagUri
      pure (Token.handleDeclaration (.ofList handle), rest)
    else throw .directiveName
  let rest := skipComment (skip isSpace rest)
  if !atLineEnd rest then throw .directiveEnd
  return (token, (readBreak rest).2)

/-- Reads the name of an anchor or alias; the indicator before it comes next. -/
def readName (rest : Rest) : Except Error (String × Rest) := do
  let (name, rest) := span isNameChar (rest.drop 1)
  if name.isEmpty || !(atGap rest || startsIn ("?:,]\x7d%@`".toList.contains ·) rest) then
    throw .anchorName
  return (.ofList name, rest)

/-- Reads a tag and gives its handle, which is empty for a tag that has none. -/
def readTag (inFlow : Bool) (rest : Rest) : Except Error (String × Rest) := do
  let (handle, rest) ←
    if startsWith '<' (rest.drop 1) then do
      let rest ← readWholeUri true false (rest.drop 2)
      if !startsWith '>' rest then throw .tagEnd
      pure ("", rest.drop 1)
    else do
      let (handle, after) ← readHandle rest
      if handle.length > 1 && handle.getLast? == some '!' then
        pure (String.ofList handle, ← readWholeUri false false after)
      else
        let rest ← readWholeUri false true after
        let bare := handle.length == 1 && rest.length == after.length
        pure (if bare then "" else "!", rest)
  if !(atGap rest || (inFlow && startsWith ',' rest)) then throw .tagEnd
  return (handle, rest)

/-! ## Tokens -/

/-- Ends all blocks and begins at the outside again. -/
def reset (s : Lexer) : Except Error Lexer := do
  return { ← (s.closeBlocks 0).forget with keyAllowed := false }

def takeDirective (s : Lexer) : Except Error Lexer := do
  let s ← s.reset
  let (token, rest) ← readDirective s.rest
  return { s.push token with rest := rest }

def takeDocumentMark (s : Lexer) (t : Token) : Except Error Lexer := do
  return (← s.reset).pushOver t 3

def openFlow (s : Lexer) (here : Placed) (t : Token) : Except Error Lexer := do
  let s ← s.note here
  return { s.pushOver t 1 with
    outer := s.candidate :: s.outer
    candidate := none
    keyAllowed := true }

def closeFlow (s : Lexer) (t : Token) : Except Error Lexer := do
  let s ← s.forget
  let s := { s.pushOver t 1 with keyAllowed := false }
  match s.outer with
  | [] => return s
  | c :: outer => return { s with candidate := c, outer := outer }

def takeFlowEntry (s : Lexer) : Except Error Lexer := do
  return { (← s.forget).pushOver .flowEntry 1 with keyAllowed := true }

def takeBlockEntry (s : Lexer) (here : Placed) : Except Error Lexer := do
  if !s.inFlow && !s.keyAllowed then throw .entryNotAllowed
  let s ← (s.openBlock here.column .sequenceStart s.tokens.size).forget
  return { s.pushOver .blockEntry 1 with keyAllowed := true }

def takeKey (s : Lexer) (here : Placed) : Except Error Lexer := do
  if !s.inFlow && !s.keyAllowed then throw .keyNotAllowed
  let s ← (s.openBlock here.column .mappingStart s.tokens.size).forget
  return { s.pushOver .key 1 with keyAllowed := !s.inFlow }

/-- A colon makes a key of the candidate; without one it is the value of a longer key. -/
def takeValue (s : Lexer) (here : Placed) : Except Error Lexer := do
  match s.candidate with
  | some c =>
    let s := { s with tokens := s.tokens.insertIdxIfInBounds c.token .key, candidate := none }
    let s := s.openBlock c.place.column .mappingStart c.token
    return { s.pushOver .value 1 with keyAllowed := false }
  | none =>
    if !s.inFlow && !s.keyAllowed then throw .valueNotAllowed
    let s := s.openBlock here.column .mappingStart s.tokens.size
    return { s.pushOver .value 1 with keyAllowed := !s.inFlow }

def takeName (s : Lexer) (here : Placed) (token : String → Token) : Except Error Lexer := do
  let s ← s.note here
  let (name, rest) ← readName s.rest
  return { s.push (token name) with rest := rest, keyAllowed := false }

def takeTag (s : Lexer) (here : Placed) : Except Error Lexer := do
  let s ← s.note here
  let (handle, rest) ← readTag s.inFlow s.rest
  return { s.push (.tag handle) with rest := rest, keyAllowed := false }

def takeBlockScalar (s : Lexer) (folded : Bool) : Except Error Lexer := do
  let s ← s.forget
  let (text, rest) ← blockScalar folded s.level s.rest
  return { s.push (.scalar (.ofList text) false) with rest := rest, keyAllowed := true }

def takeQuoted (s : Lexer) (here : Placed) (quote : Char) : Except Error Lexer := do
  let s ← s.note here
  let (text, rest) ← quotedScalar quote s.rest
  return { s.push (.scalar (.ofList text) false) with rest := rest, keyAllowed := false }

def takePlain (s : Lexer) (here : Placed) : Except Error Lexer := do
  let s ← s.note here
  let scalar ← plainScalar s.inFlow s.level s.rest
  return { s.push (.scalar (.ofList scalar.text) true) with
    rest := scalar.rest
    keyAllowed := scalar.broken }

/-- Characters that begin no plain scalar. -/
def isIndicator (c : Char) : Bool :=
  "-?:,[]\x7b\x7d#&*!|>'\"%@`".toList.contains c

/-- A plain scalar begins with `c`, after which comes `next`. -/
def beginsPlain (inFlow : Bool) (c : Char) (next : Rest) : Bool :=
  !(isSpace c || isBreak c || isIndicator c) ||
    (c == '-' && !startsIn isSpace next) ||
    (!inFlow && (c == '?' || c == ':') && !atGap next)

/-- Takes the token that begins here. -/
def take (s : Lexer) (here : Placed) (next : Rest) : Except Error Lexer :=
  let c := here.char
  if here.column == 0 && c == '%' then s.takeDirective
  else if here.column == 0 && atTriple '-' s.rest then s.takeDocumentMark .documentStart
  else if here.column == 0 && atTriple '.' s.rest then s.takeDocumentMark .documentEnd
  else if c == '[' then s.openFlow here .flowSequenceStart
  else if c == '\x7b' then s.openFlow here .flowMappingStart
  else if c == ']' then s.closeFlow .flowSequenceEnd
  else if c == '\x7d' then s.closeFlow .flowMappingEnd
  else if c == ',' then s.takeFlowEntry
  else if c == '-' && atGap next then s.takeBlockEntry here
  else if c == '?' && (s.inFlow || atGap next) then s.takeKey here
  else if c == ':' && (s.inFlow || atGap next) then s.takeValue here
  else if c == '*' then s.takeName here .alias
  else if c == '&' then s.takeName here .anchor
  else if c == '!' then s.takeTag here
  else if c == '|' && !s.inFlow then s.takeBlockScalar false
  else if c == '>' && !s.inFlow then s.takeBlockScalar true
  else if c == '\'' || c == '"' then s.takeQuoted here c
  else if beginsPlain s.inFlow c next then s.takePlain here
  else .error .noToken

/-- Takes tokens until nothing is left. Each one has a character, so the rest bounds their number. -/
def run : Nat → Lexer → Except Error (List Token)
  | 0, _ => .error .outOfSteps
  | steps + 1, s => do
    let (keyAllowed, rest) := skipGap s.inFlow s.keyAllowed false s.rest
    let s := { s with rest := rest, keyAllowed := keyAllowed }
    match rest with
    | [] => return (← s.reset).tokens.toList
    | here :: next =>
      let s ← s.expireAll here
      run steps (← (s.closeBlocks (here.column + 1)).take here next)

end Lexer

/-- The tokens of a text. -/
def tokenize (text : String) : Except Error (List Token) :=
  let cs := text.toList
  if cs.all isAllowed then Lexer.run (cs.length + 1) (.ofRest (.ofChars cs))
  else .error .controlCharacter

end ModalKeys.Yaml
