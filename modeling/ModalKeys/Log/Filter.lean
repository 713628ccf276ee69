import ModalKeys.Log.Event

/-!
# Log filters

A filter is a text of rules with commas between them. A rule is a level, for every event; or the
beginning of a target, for its events of every level; or both with an equals sign between them. Of
the rules that know an event the one with the longest target decides, and of two with the same
target the later. A filter that cannot be read stands for `warn`.

Rules about spans, in square brackets, are read as well; no event of this program is in a span.
-/

namespace ModalKeys.Log

/-- The first `limit` levels are shown of the events whose target begins with `target`. -/
structure Rule where
  target : List Char
  limit : Nat
deriving DecidableEq, Repr

abbrev Filter := List Rule

/-- Reads how many levels are to be shown. -/
def readLimit? (cs : List Char) : Option Nat :=
  let name := String.ofList (cs.map Char.toLower)
  [("off", 0), ("error", 1), ("warn", 2), ("info", 3), ("debug", 4), ("trace", 5),
   ("0", 0), ("1", 1), ("2", 2), ("3", 3), ("4", 4), ("5", 5)].lookup name

namespace Rule

/-- The number of levels when a rule names none. -/
def fullLimit : Nat := 5

/-- The characters of targets: letters, digits and three marks; beyond ASCII all are letters. -/
def isTargetChar (c : Char) : Bool :=
  c.isAlphanum || c == '-' || c == ':' || c == '_' || 0x80 ≤ c.toNat

/-- Reads what follows the equals sign. -/
def readLevel? (target cs : List Char) : Option (List Rule) :=
  if cs.isEmpty then some [⟨target, fullLimit⟩]
  else (readLimit? cs).map fun limit => [⟨target, limit⟩]

/-- Reads what follows the opening bracket of a span; it has to be well formed and gives no rule. -/
def readSpan? (cs : List Char) : Option (List Rule) :=
  match (cs.span (· != ']')).2 with
  | [_] => some []
  | _ :: '=' :: level => (readLevel? [] level).map fun _ => []
  | _ => none

/-- Reads one rule; a rule about spans is none. -/
def read? (cs : List Char) : Option (List Rule) :=
  match cs.span isTargetChar with
  | (_, '[' :: span) => readSpan? span
  | ([], _) => none
  | (target, '=' :: level) => readLevel? target level
  | (target, []) =>
    match readLimit? target with
    | some limit => some [⟨[], limit⟩]
    | none => some [⟨target, fullLimit⟩]
  | _ => none

/-- The rule knows the event. -/
def knows (r : Rule) (e : Event) : Bool :=
  r.target.isPrefixOf e.target.toList

end Rule

namespace Filter

/-- Shows errors and warnings. -/
def standard : Filter := [⟨[], 2⟩]

/-- The texts between the commas that are not empty. -/
def pieces (cs : List Char) : List (List Char) :=
  (cs.splitOn ',').filter fun piece => !piece.isEmpty

/-- Reads a filter; one without any rule shows errors. -/
def read? (text : String) : Option Filter :=
  match pieces text.toList with
  | [] => some [⟨[], 1⟩]
  | rules => (rules.mapM Rule.read?).map List.flatten

/-- The filter that a text asks for, if there is one. -/
def ofText (text : Option String) : Filter :=
  (text.bind read?).getD standard

/-- The rule that decides on an event. -/
def deciding? (f : Filter) (e : Event) : Option Rule :=
  (f.filter fun r => r.knows e).foldl (fun best r =>
    match best with
    | some b => if b.target.length ≤ r.target.length then some r else best
    | none => some r) none

/-- The event is shown. -/
def shows (f : Filter) (e : Event) : Bool :=
  (f.deciding? e).any fun r => e.level.rank ≤ r.limit

end Filter

/-- The character as a console is sent it: what could steer the console is spelled out. -/
def consoleChar (c : Char) : List Char :=
  if c == '\x07' || c == '\x08' || c == '\x0c' || c == '\x1b' || c == '\x7f' then
    ['\\', 'x'] ++ hexPair c.toNat
  else if 0x80 ≤ c.toNat && c.toNat ≤ 0x9F then ['\\', 'u', '\x7b'] ++ hexPair c.toNat ++ ['\x7d']
  else [c]
where
  /-- Two hexadecimal digits. -/
  hexPair (n : Nat) : List Char :=
    [Nat.digitChar (n / 16), Nat.digitChar (n % 16)]

/-- The message of an event as it stands on the console. -/
def Event.consoleText (e : Event) : String :=
  .ofList (e.message.toList.flatMap consoleChar)

end ModalKeys.Log
