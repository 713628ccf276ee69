import ModalKeys.Yaml.Error
import ModalKeys.Yaml.Token

/-!
# Nodes and documents

A document is one node: a scalar, a sequence, a mapping, or an alias for a node that has an anchor.
`Document.ofTokens?` reads the one document of a text; a text of comments has none, and a second
document is refused.

An anchor gets the number of names that have been used before it. When a name is used again, the
number it gets may be given once more to the next new name; the later node then has the number, for
the aliases before it too.
-/

namespace ModalKeys.Yaml

inductive Node where
  /-- `plain` tells a scalar without quotes or header; a node that was left out is one too. -/
  | scalar (text : String) (plain : Bool)
  | alias (number : Nat)
  | sequence (items : List Node)
  | mapping (entries : List (Node × Node))

namespace Node

/-- A node that was left out. -/
def empty : Node :=
  scalar "" true

end Node

/-- A node, and the anchored nodes of its document: for a number the text, if it is a scalar. -/
structure Document where
  root : Node
  anchored : List (Nat × Option String)

namespace Document

/-- The text of a scalar, also behind an alias. -/
def text? (d : Document) : Node → Option String
  | .scalar text _ => some text
  | .alias number => (d.anchored.lookup number).join
  | .sequence _ | .mapping _ => none

end Document

/-- What is left to read, the anchors so far, and the tag handles that are declared. -/
structure Reader where
  tokens : List Token
  names : List (String × Nat)
  anchored : List (Nat × Option String)
  handles : List String

/-- A step of reading that may fail. -/
abbrev Reading := StateT Reader (Except Error)

namespace Reading

def peek : Reading (Option Token) :=
  return (← get).tokens.head?

/-- Leaves the next token behind. -/
def advance : Reading Unit :=
  modify fun s => { s with tokens := s.tokens.tail }

/-- The next token is one of these. -/
def atOneOf (ts : List Token) : Reading Bool :=
  return (← peek).any ts.contains

/-- Takes the token if it comes next. -/
def accept (t : Token) : Reading Bool := do
  if (← peek) = some t then
    advance
    return true
  return false

def expect (t : Token) (e : Error) : Reading Unit := do
  if !(← accept t) then throw e

/-- Gives an anchor to the node that begins here. -/
def register (anchor : Option String) (text : Option String) : Reading Unit :=
  match anchor with
  | none => return
  | some name =>
    modify fun s =>
      let number := s.names.length
      { s with
        names := (name, number) :: s.names.filter fun n => n.1 != name
        anchored := (number, text) :: s.anchored }

def acceptAnchor : Reading (Option String) := do
  match ← peek with
  | some (.anchor name) =>
    advance
    return some name
  | _ => return none

def acceptTag : Reading (Option String) := do
  match ← peek with
  | some (.tag handle) =>
    advance
    return some handle
  | _ => return none

/-- Reads the anchor and the tag before a node, in either order; tells whether there was any. -/
def properties : Reading (Option String × Bool) := do
  let before ← acceptAnchor
  let tag ← acceptTag
  let after ← if before.isNone && tag.isSome then acceptAnchor else pure none
  if let some handle := tag then
    if !(handle.isEmpty || (← get).handles.contains handle) then throw .undeclaredHandle
  let anchor := before <|> after
  return (anchor, anchor.isSome || tag.isSome)

/-- A node with nothing but an anchor or a tag. -/
def leftOut (anchor : Option String) (marked : Bool) : Reading Node := do
  if !marked then throw .contentExpected
  register anchor (some "")
  return Node.empty

mutual

/-- Reads a node; `block` allows block collections and `indentless` a sequence without indentation. -/
def node (block indentless : Bool) : Nat → Reading Node
  | 0 => throw .outOfSteps
  | steps + 1 => do
    if let some (.alias name) ← peek then
      advance
      match (← get).names.lookup name with
      | some number => return .alias number
      | none => throw .unknownAnchor
    let (anchor, marked) ← properties
    match ← peek with
    | some .blockEntry =>
      if indentless then
        register anchor none
        return .sequence (← indentlessItems steps)
      else leftOut anchor marked
    | some (.scalar text plain) =>
      advance
      register anchor (some text)
      return .scalar text plain
    | some .flowSequenceStart =>
      advance
      register anchor none
      return .sequence (← flowItems true steps)
    | some .flowMappingStart =>
      advance
      register anchor none
      return .mapping (← flowEntries true steps)
    | some .sequenceStart =>
      if block then
        advance
        register anchor none
        return .sequence (← blockItems steps)
      else leftOut anchor marked
    | some .mappingStart =>
      if block then
        advance
        register anchor none
        return .mapping (← blockEntries steps)
      else leftOut anchor marked
    | _ => leftOut anchor marked

/-- Reads a node unless one of the tokens `ends` comes next. -/
def nodeBefore (ends : List Token) (block indentless : Bool) : Nat → Reading Node
  | 0 => throw .outOfSteps
  | steps + 1 => do
    if ← atOneOf ends then return Node.empty
    node block indentless steps

def blockItems : Nat → Reading (List Node)
  | 0 => throw .outOfSteps
  | steps + 1 => do
    if ← accept .blockEnd then return []
    expect .blockEntry .entryExpected
    let item ← nodeBefore [.blockEntry, .blockEnd] true false steps
    return item :: (← blockItems steps)

def indentlessItems : Nat → Reading (List Node)
  | 0 => throw .outOfSteps
  | steps + 1 => do
    if !(← accept .blockEntry) then return []
    let item ← nodeBefore [.blockEntry, .key, .value, .blockEnd] true false steps
    return item :: (← indentlessItems steps)

def blockEntries : Nat → Reading (List (Node × Node))
  | 0 => throw .outOfSteps
  | steps + 1 => do
    if ← accept .blockEnd then return []
    expect .key .keyExpected
    let key ← nodeBefore [.key, .value, .blockEnd] true true steps
    let value ←
      if ← accept .value then nodeBefore [.key, .value, .blockEnd] true true steps
      else pure Node.empty
    return (key, value) :: (← blockEntries steps)

def flowItems (first : Bool) : Nat → Reading (List Node)
  | 0 => throw .outOfSteps
  | steps + 1 => do
    if ← accept .flowSequenceEnd then return []
    if !first then expect .flowEntry .commaExpected
    if ← accept .flowSequenceEnd then return []
    if ← accept .key then
      let pair ← flowPair steps
      return .mapping [pair] :: (← flowItems false steps)
    let item ← node false false steps
    return item :: (← flowItems false steps)

/-- A mapping of one entry that stands in a flow sequence. Where its key was left out, the token in
its place is passed over. -/
def flowPair : Nat → Reading (Node × Node)
  | 0 => throw .outOfSteps
  | steps + 1 => do
    let key ←
      if ← atOneOf [.value, .flowEntry, .flowSequenceEnd] then do
        advance
        pure Node.empty
      else node false false steps
    let value ←
      if ← accept .value then nodeBefore [.flowEntry, .flowSequenceEnd] false false steps
      else pure Node.empty
    return (key, value)

def flowEntries (first : Bool) : Nat → Reading (List (Node × Node))
  | 0 => throw .outOfSteps
  | steps + 1 => do
    if ← accept .flowMappingEnd then return []
    if !first then expect .flowEntry .commaExpected
    if ← accept .flowMappingEnd then return []
    if ← accept .key then
      let key ← nodeBefore [.value, .flowEntry, .flowMappingEnd] false false steps
      let value ←
        if ← accept .value then nodeBefore [.flowEntry, .flowMappingEnd] false false steps
        else pure Node.empty
      return (key, value) :: (← flowEntries false steps)
    let key ← node false false steps
    return (key, Node.empty) :: (← flowEntries false steps)

end

/-- The handles that need no declaration. -/
def standardHandles : List String :=
  ["!", "!!"]

/-- Reads the directives before a document. -/
def directives (versionSeen : Bool) : Nat → Reading Unit
  | 0 => throw .outOfSteps
  | steps + 1 => do
    match ← peek with
    | some (.version major minor) =>
      advance
      if versionSeen then throw .repeatedDirective
      if !(major = 1 && (minor = 1 || minor = 2)) then throw .unknownVersion
      directives true steps
    | some (.handleDeclaration handle) =>
      advance
      if (← get).handles.contains handle then throw .repeatedDirective
      modify fun s => { s with handles := handle :: s.handles }
      directives versionSeen steps
    | _ => return

/-- A directive comes next. -/
def atDirective : Reading Bool := do
  match ← peek with
  | some (.version _ _) | some (.handleDeclaration _) => return true
  | _ => return false

/-- Reads the node of a document whose start was marked. -/
def markedContent (steps : Nat) : Reading Node := do
  if (← peek).isNone || (← atDirective) || (← atOneOf [.documentStart, .documentEnd]) then
    return Node.empty
  node true false steps

/-- Reads a whole text, which has at most one document. -/
def onlyDocument (steps : Nat) : Reading (Option Document) := do
  if (← peek).isNone then return none
  let root ←
    if (← atDirective) || (← atOneOf [.documentStart]) then do
      directives false steps
      expect .documentStart .documentStartExpected
      modify fun s => { s with handles := s.handles ++ standardHandles }
      markedContent steps
    else do
      modify fun s => { s with handles := standardHandles }
      node true false steps
  modify fun s => { s with tokens := s.tokens.dropWhile (· == .documentEnd) }
  if (← peek).isSome then throw .severalDocuments
  return some ⟨root, (← get).anchored⟩

end Reading

/-- The document of a list of tokens, if there is one. -/
def Document.ofTokens? (tokens : List Token) : Except Error (Option Document) :=
  (·.1) <$> (Reading.onlyDocument (4 * tokens.length + 4)).run ⟨tokens, [], [], []⟩

end ModalKeys.Yaml
