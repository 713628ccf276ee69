import ModalKeys.FileTree
import ModalKeys.Log.Event

/-!
# Text sources

A source supplies the whole text at a path or says why it cannot. Reading may change the source, so
that a source can remember that it was read.

A `Folder` reads files under a root directory. A `Shelf` holds its texts itself and counts the
reads.
-/

namespace ModalKeys

/-- What reading gave: the source after it, what the log tells, and the text. -/
structure Fetched (ρ : Type) where
  source : ρ
  events : List Log.Event
  outcome : Except SourceError String

class TextSource (ρ : Type) where
  read : ρ → String → Fetched ρ

/-- The files under a root directory. -/
structure Folder where
  root : String
  files : FileTree

namespace Folder

/-- Where a path of this source is. -/
def resolve (f : Folder) (path : String) : String :=
  Path.join f.root path

def read (f : Folder) (path : String) : Fetched Folder :=
  match f.files.readText (f.resolve path) with
  | .ok text => ⟨f, [.fileRead (f.resolve path)], .ok text⟩
  | .error .missing => ⟨f, [], .error (.notFound path)⟩
  | .error e => ⟨f, [], .error (.unreadable path e.message)⟩

instance : TextSource Folder := ⟨read⟩

end Folder

/-- Texts, or reasons why there is none, by their exact paths. -/
structure Shelf where
  items : List (String × Except String String)
  reads : Nat

namespace Shelf

def put (s : Shelf) (path : String) (item : Except String String) : Shelf :=
  { s with items := (path, item) :: s.items.filter (·.1 != path) }

def drop (s : Shelf) (path : String) : Shelf :=
  { s with items := s.items.filter (·.1 != path) }

def read (s : Shelf) (path : String) : Fetched Shelf :=
  let s' : Shelf := { s with reads := s.reads + 1 }
  match s.items.lookup path with
  | none => ⟨s', [], .error (.notFound path)⟩
  | some (.error reason) => ⟨s', [], .error (.unreadable path reason)⟩
  | some (.ok text) => ⟨s', [], .ok text⟩

instance : TextSource Shelf := ⟨read⟩

end Shelf

end ModalKeys
