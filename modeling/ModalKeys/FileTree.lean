import ModalKeys.Path

/-!
# Files and directories

A `FileTree` is what a program sees of its files as a value: the directories, the files with what
they hold, the working directory from which relative paths are walked, and the device that it is all
kept on. A path is walked step by step; every step but the last has to be a directory, and `..`
leads back along the way that was taken. There are no links and no special files, and whatever is
there can be read: of the refusals of a device, those to make or to overwrite something are told,
not those to read.

Reading leaves the tree alone. `createDirectory` gives a new tree or says why not;
`createDirectories` may have made some of the directories before it fails. `writeFile` first opens
the file, which empties it, and then writes. A write that breaks off leaves what it has written by
then, so this error comes with a tree of its own.
-/

namespace ModalKeys

/-- What a file holds: a text, or bytes that are the encoding of no text. -/
inductive Contents where
  | text (s : String)
  | binary (bytes : List UInt8)
deriving DecidableEq, Repr

namespace Contents

/-- What a file with these bytes holds. -/
def ofBytes (bytes : ByteArray) : Contents :=
  (String.fromUTF8? bytes).elim (binary bytes.toList) text

def bytes : Contents → List UInt8
  | text s => s.toUTF8.data.toList
  | binary bytes => bytes

/-- What a file holds of this when no more than the first bytes were written. -/
def cut (c : Contents) (written : Nat) : Contents :=
  ofBytes ⟨(c.bytes.take written).toArray⟩

end Contents

inductive Entry where
  | directory
  | file (contents : Contents)
deriving DecidableEq, Repr

/-- Why a file operation failed. -/
inductive FileError where
  | missing
  | alreadyExists
  | notDirectory
  | isDirectory
  | nameTooLong
  | nulInName
  | notText
  /-- The device does not let it be made or overwritten. -/
  | refused (reason : String)
deriving DecidableEq, Repr

namespace FileError

def message : FileError → String
  | missing => "No such file or directory (os error 2)"
  | alreadyExists => "File exists (os error 17)"
  | notDirectory => "Not a directory (os error 20)"
  | isDirectory => "Is a directory (os error 21)"
  | nameTooLong => "File name too long (os error 36)"
  | nulInName => "file name contained an unexpected NUL byte"
  | notText => "stream did not contain valid UTF-8"
  | refused reason => reason

end FileError

/-- The names that lead to a file or directory, the innermost first; the root has none. -/
abbrev Place := List String

/-- What files are kept on, as far as it can fail: how much room there is, what may be written. -/
class Device where
  /-- Why nothing can be made or overwritten at a place, if that is so. -/
  refusal? : Place → Option String
  /-- After how many bytes a write of these breaks off, and why, if it does. -/
  breakOff? : Place → (bytes : List UInt8) → Option (Fin bytes.length × String)

/-- A device on which nothing fails; files are kept on this one if no other is named. -/
instance Device.sound : Device :=
  ⟨fun _ => none, fun _ _ => none⟩

/-- The entries at their places, the working directory, and what they are kept on. -/
structure FileTree where
  entries : List (Place × Entry)
  here : Place
  [device : Device]

/-- Why a file was not written as a whole. -/
inductive WriteError where
  /-- It could not be opened: all is as it was. -/
  | notOpened (cause : FileError)
  /-- It was opened, and no more than its first bytes were written: this tree is left. -/
  | brokenOff (left : FileTree) (written : Nat) (reason : String)

namespace FileTree

/-- The longest name and the longest path, in bytes. -/
def nameLimit : Nat := 255
def pathLimit : Nat := 4095

/-- The entry at a place; the root is always a directory. -/
def entry? (t : FileTree) (place : Place) : Option Entry :=
  if place.isEmpty then some .directory else t.entries.lookup place

/-- Puts an entry at a place, over the one that is there. -/
def set (t : FileTree) (place : Place) (entry : Entry) : FileTree :=
  { t with entries := (place, entry) :: t.entries.filter fun e => e.1 != place }

/-- Leaves a place empty. -/
def erase (t : FileTree) (place : Place) : FileTree :=
  { t with entries := t.entries.filter fun e => e.1 != place }

/-- A path that no walk can take. -/
def checkPath (path : String) : Except FileError Unit :=
  if path.toList.contains (Char.ofNat 0) then .error .nulInName
  else if path.isEmpty then .error .missing
  else if path.utf8ByteSize > pathLimit then .error .nameTooLong
  else .ok ()

/-- Where a path begins. -/
def start (t : FileTree) (path : String) : Place :=
  if Path.isAbsolute path then [] else t.here

/-- The place has to be a directory. -/
def requireDirectory (t : FileTree) (place : Place) : Except FileError Unit :=
  match t.entry? place with
  | none => .error .missing
  | some (.file _) => .error .notDirectory
  | some .directory => .ok ()

/-- Takes steps from a place. -/
def walk (t : FileTree) (place : Place) : List String → Except FileError Place
  | [] => .ok place
  | step :: rest => do
    t.requireDirectory place
    if step = "." then t.walk place rest
    else if step = ".." then t.walk place.tail rest
    else if step.utf8ByteSize > nameLimit then .error .nameTooLong
    else if (t.entry? (step :: place)).isNone then .error .missing
    else t.walk (step :: place) rest

/-- The place that a path leads to. -/
def find (t : FileTree) (path : String) : Except FileError Place := do
  checkPath path
  let place ← t.walk (t.start path) (Path.steps path)
  if Path.endsInSlash path then t.requireDirectory place
  return place

/-- Something is at the path. -/
def pathExists (t : FileTree) (path : String) : Bool :=
  match t.find path with
  | .ok place => (t.entry? place).isSome
  | .error _ => false

def isDirectory (t : FileTree) (path : String) : Bool :=
  match t.find path with
  | .ok place => t.entry? place == some .directory
  | .error _ => false

/-- What the file at a path holds. -/
def contents (t : FileTree) (path : String) : Except FileError Contents := do
  let place ← t.find path
  match t.entry? place with
  | none => .error .missing
  | some .directory => .error .isDirectory
  | some (.file c) => .ok c

/-- The text of the file at a path. -/
def readText (t : FileTree) (path : String) : Except FileError String := do
  match ← t.contents path with
  | .text s => .ok s
  | .binary _ => .error .notText

/--
The directory and the name that a path gives to a new entry; there is no name when the path ends in
`.` or `..` or is the root.
-/
def spot (t : FileTree) (path : String) : Except FileError (Option (Place × String)) := do
  checkPath path
  match (Path.steps path).reverse with
  | [] => return none
  | last :: outer =>
    let place ← t.walk (t.start path) outer.reverse
    t.requireDirectory place
    return if last = "." || last = ".." then none else some (place, last)

/-- Makes one directory. -/
def createDirectory (t : FileTree) (path : String) : Except FileError FileTree := do
  match ← t.spot path with
  | none => .error .alreadyExists
  | some (place, name) =>
    if name.utf8ByteSize > nameLimit then .error .nameTooLong
    else if (t.entry? (name :: place)).isSome then .error .alreadyExists
    else
      match t.device.refusal? (name :: place) with
      | some reason => .error (.refused reason)
      | none => .ok (t.set (name :: place) .directory)

/-- The place of the file that is opened to be written. -/
def openFile (t : FileTree) (path : String) : Except FileError Place := do
  match ← t.spot path with
  | none => .error .isDirectory
  | some (place, name) =>
    if Path.endsInSlash path then .error .isDirectory
    else if name.utf8ByteSize > nameLimit then .error .nameTooLong
    else if t.entry? (name :: place) = some .directory then .error .isDirectory
    else
      match t.device.refusal? (name :: place) with
      | some reason => .error (.refused reason)
      | none => .ok (name :: place)

/-- Writes a file, over the one that is there. -/
def writeFile (t : FileTree) (path : String) (c : Contents) : Except WriteError FileTree :=
  match t.openFile path with
  | .error e => .error (.notOpened e)
  | .ok place =>
    match t.device.breakOff? place c.bytes with
    | some (written, reason) =>
      .error (.brokenOff (t.set place (.file (c.cut written))) written reason)
    | none => .ok (t.set place (.file c))

/--
Makes a directory and those around it that are missing; `parts` are the components of its path, the
innermost first. A directory that is there already is as good as a new one.
-/
def createParts (t : FileTree) : List String → FileTree × Except FileError Unit
  | [] => (t, .ok ())
  | part :: outer =>
    let path := Path.ofParts (part :: outer).reverse
    let settle (t : FileTree) (e : FileError) : FileTree × Except FileError Unit :=
      (t, if t.isDirectory path then .ok () else .error e)
    match t.createDirectory path with
    | .ok made => (made, .ok ())
    | .error .missing =>
      match t.createParts outer with
      | (t, .error e) => (t, .error e)
      | (t, .ok ()) =>
        match t.createDirectory path with
        | .ok made => (made, .ok ())
        | .error e => settle t e
    | .error e => settle t e

def createDirectories (t : FileTree) (path : String) : FileTree × Except FileError Unit :=
  t.createParts (Path.parts path).reverse

/-- Makes the directories around a path. -/
def createParents (t : FileTree) (path : String) : FileTree × Except FileError Unit :=
  match Path.parent? path with
  | none => (t, .ok ())
  | some outer => t.createParts outer.reverse

/-- Removes a file. -/
def removeFile (t : FileTree) (path : String) : Except FileError FileTree := do
  let place ← t.find path
  match t.entry? place with
  | none => .error .missing
  | some .directory => .error .isDirectory
  | some (.file _) => .ok (t.erase place)

end FileTree

end ModalKeys
