import ModalKeys.Yaml.Error
import ModalKeys.Yaml.Placed

/-!
# Reading scalars

A scalar is written plain, in single or double quotes, or as a block below a header. In the first
three a gap with line breaks folds: one break becomes a blank, more of them become all but the
first, and the spaces around them are dropped. In a block scalar the indentation is dropped and
the breaks are kept (`|`) or folded (`>`), and the header says what becomes of those at the end.
-/

namespace ModalKeys.Yaml

open Rest

/-- Spaces and breaks between two words of a scalar. -/
structure Gap where
  /-- The spaces before the first break. -/
  spaces : List Char
  broken : Bool
  /-- The first break, unless it was escaped. -/
  lead : List Char
  /-- The breaks after the first. -/
  more : List Char

namespace Gap

def none : Gap := ⟨[], false, [], []⟩

/-- A gap after an escaped line break. -/
def escaped : Gap := ⟨[], true, [], []⟩

/-- What the gap adds to the scalar. -/
def text (g : Gap) : List Char :=
  if !g.broken then g.spaces
  else if g.lead = ['\n'] then (if g.more.isEmpty then [' '] else g.more)
  else g.lead ++ g.more

def addSpace (g : Gap) (c : Char) : Gap :=
  if g.broken then g else { g with spaces := g.spaces ++ [c] }

def addBreak (g : Gap) (c : Char) : Gap :=
  if g.broken then { g with more := g.more ++ [breakText c] }
  else ⟨[], true, [breakText c], []⟩

/-- Reads a gap. After a break no tab may stand left of the column `least`. -/
def read (least : Nat) (g : Gap) : Rest → Except Error (Gap × Rest)
  | [] => .ok (g, [])
  | p :: rest =>
    if isSpace p.char then
      if g.broken && p.column < least && p.char == '\t' then .error .tabIndentation
      else read least (g.addSpace p.char) rest
    else if p.char == '\r' && startsWith '\n' rest then read least g rest
    else if isBreak p.char then read least (g.addBreak p.char) rest
    else .ok (g, p :: rest)

end Gap

/-! ## Plain scalars -/

def isFlowIndicator (c : Char) : Bool :=
  c == ',' || c == '[' || c == ']' || c == '\x7b' || c == '\x7d'

/-- Reads the part of a plain scalar up to a gap or to an indicator that ends it. -/
def plainWord (inFlow : Bool) : Rest → Except Error (List Char × Rest)
  | [] => .ok ([], [])
  | p :: rest =>
    if isSpace p.char || isBreak p.char then .ok ([], p :: rest)
    else if inFlow && p.char == ':' && startsIn (fun c => isFlowIndicator c || c == '?') rest then
      .error .colonInFlow
    else if (p.char == ':' && atGap rest) || (inFlow && isFlowIndicator p.char) then
      .ok ([], p :: rest)
    else do
      let (word, rest) ← plainWord inFlow rest
      return (p.char :: word, rest)

/-- A scalar that was read: its text, whether line breaks follow it, and the rest. -/
structure PlainScalar where
  text : List Char
  broken : Bool
  rest : Rest

/--
Goes on with a plain scalar after `text` and `gap`. In a block every line after the first has to
reach the column `least`.
-/
def plainFrom (inFlow : Bool) (least : Nat) :
    Nat → List Char → Gap → Rest → Except Error PlainScalar
  | 0, _, _, _ => .error .outOfSteps
  | steps + 1, text, gap, rest => do
    if atDocumentMark rest || startsWith '#' rest then return ⟨text, gap.broken, rest⟩
    let (word, rest) ← plainWord inFlow rest
    let text := if word.isEmpty then text else text ++ gap.text ++ word
    let broken := gap.broken && word.isEmpty
    if rest.isEmpty || !atGap rest then return ⟨text, broken, rest⟩
    let (gap, rest) ← Gap.none.read least rest
    match rest with
    | p :: _ =>
      if !inFlow && p.column < least then return ⟨text, gap.broken, rest⟩
      plainFrom inFlow least steps text gap rest
    | [] => return ⟨text, gap.broken, []⟩

def plainScalar (inFlow : Bool) (least : Nat) (rest : Rest) : Except Error PlainScalar :=
  plainFrom inFlow least (rest.length + 1) [] Gap.none rest

/-! ## Quoted scalars -/

/-- The character that a one-letter escape stands for. -/
def simpleEscape? (c : Char) : Option Char :=
  [('0', '\x00'), ('a', '\x07'), ('b', '\x08'), ('t', '\t'), ('\t', '\t'), ('n', '\n'),
    ('v', '\x0b'), ('f', '\x0c'), ('r', '\r'), ('e', '\x1b'), (' ', ' '), ('"', '"'),
    ('/', '/'), ('\\', '\\'), ('N', '\u0085'), ('_', '\u00a0'), ('L', '\u2028'),
    ('P', '\u2029')].lookup c

/-- The number of digits that an escape with a code takes. -/
def codeLength? (c : Char) : Option Nat :=
  [('x', 2), ('u', 4), ('U', 8)].lookup c

def hexValue? (c : Char) : Option Nat :=
  if c.isDigit then some (c.toNat - '0'.toNat)
  else if 'a' ≤ c ∧ c ≤ 'f' then some (c.toNat - 'a'.toNat + 10)
  else if 'A' ≤ c ∧ c ≤ 'F' then some (c.toNat - 'A'.toNat + 10)
  else none

/-- The number that hexadecimal digits write. -/
def hexNumber? (digits : List Char) : Option Nat :=
  digits.foldl (fun n c => do return 16 * (← n) + (← hexValue? c)) (some 0)

/-- The character with the code that `length` digits write. -/
def codedChar (length : Nat) (rest : Rest) : Except Error Char :=
  let digits := (rest.take length).map Placed.char
  match hexNumber? digits with
  | some n =>
    if digits.length = length ∧ n.isValidChar then .ok (.ofNat n) else .error .escapeCode
  | none => .error .escapeCode

/-- A part of a quoted scalar, and whether an escaped line break ends it. -/
structure QuotedPart where
  text : List Char
  escapedBreak : Bool
  rest : Rest

def QuotedPart.push (c : Char) (part : QuotedPart) : QuotedPart :=
  { part with text := c :: part.text }

/-- Reads single-quoted text up to a gap or to the quote that ends it. -/
def singleQuotedPart : Rest → QuotedPart
  | [] => ⟨[], false, []⟩
  | [p] =>
    if isSpace p.char || isBreak p.char || p.char == '\'' then ⟨[], false, [p]⟩
    else ⟨[p.char], false, []⟩
  | p :: q :: rest =>
    if p.char == '\'' && q.char == '\'' then (singleQuotedPart rest).push '\''
    else if isSpace p.char || isBreak p.char || p.char == '\'' then ⟨[], false, p :: q :: rest⟩
    else (singleQuotedPart (q :: rest)).push p.char

/-- Reads double-quoted text up to a gap, to an escaped line break or to the quote. -/
def doubleQuotedPart : Nat → Rest → Except Error QuotedPart
  | 0, _ => .error .outOfSteps
  | _, [] => .ok ⟨[], false, []⟩
  | steps + 1, p :: rest =>
    if isSpace p.char || isBreak p.char || p.char == '"' then .ok ⟨[], false, p :: rest⟩
    else if p.char != '\\' then do
      return (← doubleQuotedPart steps rest).push p.char
    else
      match rest with
      | [] => .error .unknownEscape
      | e :: rest => do
        if isBreak e.char then return ⟨[], true, (readBreak (e :: rest)).2⟩
        match simpleEscape? e.char, codeLength? e.char with
        | some c, _ => return (← doubleQuotedPart steps rest).push c
        | none, some length =>
          let c ← codedChar length rest
          return (← doubleQuotedPart steps (rest.drop length)).push c
        | none, none => .error .unknownEscape

/-- Goes on with a quoted scalar after `text`. -/
def quotedFrom (quote : Char) : Nat → List Char → Rest → Except Error (List Char × Rest)
  | 0, _, _ => .error .outOfSteps
  | steps + 1, text, rest => do
    if atDocumentMark rest then throw .markerInQuotes
    if rest.isEmpty then throw .quoteNotClosed
    let part ←
      if quote == '\'' then pure (singleQuotedPart rest)
      else doubleQuotedPart (rest.length + 1) rest
    let text := text ++ part.text
    if startsWith quote part.rest then return (text, part.rest.drop 1)
    let (gap, rest) ← (if part.escapedBreak then Gap.escaped else Gap.none).read 0 part.rest
    quotedFrom quote steps (text ++ gap.text) rest

/-- Reads a quoted scalar whose first quote comes next. -/
def quotedScalar (quote : Char) (rest : Rest) : Except Error (List Char × Rest) :=
  quotedFrom quote (rest.length + 1) [] (rest.drop 1)

/-! ## Block scalars -/

/-- What becomes of the breaks at the end of a block scalar. -/
inductive Chomping where
  | strip
  | clip
  | keep
deriving DecidableEq, Repr

def Chomping.ofChar? (c : Char) : Option Chomping :=
  if c == '-' then some .strip else if c == '+' then some .keep else none

/-- The chomping, and by how much the block is indented if the header says so. -/
structure BlockHeader where
  chomping : Chomping
  indentation : Option Nat
  rest : Rest

/-- Reads a chomping indicator. -/
def readChomping (rest : Rest) : Option Chomping × Rest :=
  match rest with
  | p :: tail =>
    match Chomping.ofChar? p.char with
    | some c => (some c, tail)
    | none => (none, rest)
  | [] => (none, [])

/-- Reads an indentation indicator, a digit but not zero. -/
def readIndentation (rest : Rest) : Except Error (Option Nat × Rest) :=
  match rest with
  | p :: tail =>
    if p.char == '0' then .error .blockHeader
    else if p.char.isDigit then .ok (some (p.char.toNat - '0'.toNat), tail)
    else .ok (none, rest)
  | [] => .ok (none, [])

/-- Reads what follows the indicator of a block scalar on its line. -/
def readHeader (rest : Rest) : Except Error BlockHeader := do
  let (before, rest) := readChomping rest
  let (indentation, rest) ← readIndentation rest
  let (after, rest) :=
    if before.isNone && indentation.isSome then readChomping rest else (none, rest)
  let rest := skipComment (skip isSpace rest)
  if !atLineEnd rest then throw .blockHeader
  return ⟨(before <|> after).getD .clip, indentation, (readBreak rest).2⟩

/-- Breaks between the lines of a block scalar, and the rightmost column that they reach. -/
structure BlockBreaks where
  text : List Char
  reach : Nat
  rest : Rest

/-- Skips the indentation and reads the breaks; `indent` is not known at first. -/
def readBreaks (indent : Option Nat) (reach : Nat) : Rest → Except Error BlockBreaks
  | [] => .ok ⟨[], reach, []⟩
  | p :: rest =>
    let inIndent := indent.all (p.column < ·)
    if inIndent && p.char == ' ' then readBreaks indent reach rest
    else if inIndent && p.char == '\t' then .error .tabIndentation
    else if p.char == '\r' && startsWith '\n' rest then
      readBreaks indent (max reach p.column) rest
    else if isBreak p.char then do
      let breaks ← readBreaks indent (max reach p.column) rest
      return { breaks with text := breakText p.char :: breaks.text }
    else .ok ⟨[], max reach p.column, p :: rest⟩

/-- The lines read so far: the text, the break after it, further breaks, and whether the last line
began with a space. -/
structure BlockText where
  text : List Char
  lead : List Char
  more : List Char
  spaced : Bool

/-- Adds a line and the break after it. -/
def BlockText.addLine (folded : Bool) (b : BlockText) (line lead more : List Char) : BlockText :=
  let spaced := line.head?.any isSpace
  let joint :=
    if folded && b.lead = ['\n'] && !b.spaced && !spaced then
      if b.more.isEmpty then [' '] else []
    else b.lead
  ⟨b.text ++ joint ++ b.more ++ line, lead, more, spaced⟩

/-- Reads the lines that begin at the column `indent`. -/
def readLines (folded : Bool) (indent : Nat) : Nat → BlockText → Rest →
    Except Error (BlockText × Rest)
  | 0, _, _ => .error .outOfSteps
  | _, b, [] => .ok (b, [])
  | steps + 1, b, p :: rest =>
    if p.column != indent then .ok (b, p :: rest)
    else do
      let (line, rest) := span (fun c => !isBreak c) (p :: rest)
      let (lead, rest) := readBreak rest
      let breaks ← readBreaks (some indent) 0 rest
      readLines folded indent steps (b.addLine folded line lead breaks.text) breaks.rest

/--
Reads a block scalar whose indicator comes next. `level` is one more than the indentation around
it, or zero.
-/
def blockScalar (folded : Bool) (level : Nat) (rest : Rest) : Except Error (List Char × Rest) := do
  let header ← readHeader (rest.drop 1)
  let stated := header.indentation.map (level - 1 + ·)
  let breaks ← readBreaks stated 0 header.rest
  let indent := stated.getD (max breaks.reach (max level 1))
  let steps := breaks.rest.length + 1
  let (b, rest) ← readLines folded indent steps ⟨[], [], breaks.text, false⟩ breaks.rest
  let ending :=
    match header.chomping with
    | .strip => []
    | .clip => b.lead
    | .keep => b.lead ++ b.more
  return (b.text ++ ending, rest)

end ModalKeys.Yaml
