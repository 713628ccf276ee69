/-!
# Paths

A path is a text; a slash parts its components. Joining is textual: nothing is looked up and
nothing is cleaned. `parts` is the reading under which `a//b`, `a/./b` and `a/b/` have the same
components, and the parent of a path is all its parts but the last.
-/

namespace ModalKeys.Path

/-- The texts between the slashes. -/
def segments : List Char → List (List Char)
  | [] => [[]]
  | c :: cs =>
    if c = '/' then [] :: segments cs
    else
      match segments cs with
      | [] => [[c]]
      | s :: rest => (c :: s) :: rest

def isAbsolute (path : String) : Bool :=
  path.toList.head? == some '/'

/-- The path is meant to be a directory. -/
def endsInSlash (path : String) : Bool :=
  path.toList.getLast? == some '/'

/-- `path` as seen from `root`; an absolute path is seen as it is. -/
def join (root path : String) : String :=
  if isAbsolute path then path
  else if root.isEmpty || endsInSlash root then root ++ path
  else root ++ "/" ++ path

/-- The segments that are not empty. -/
def steps (path : String) : List String :=
  ((segments path.toList).filter fun s => !s.isEmpty).map String.ofList

/--
The components of a path. An absolute path begins with the part `/`; the part `.` stands only at
the front of a relative path.
-/
def parts (path : String) : List String :=
  if isAbsolute path then "/" :: (steps path).filter (· != ".")
  else
    match (segments path.toList).map String.ofList with
    | "." :: _ => "." :: (steps path).filter (· != ".")
    | _ => (steps path).filter (· != ".")

/-- The path with the given components. -/
def ofParts : List String → String
  | "/" :: rest => "/" ++ "/".intercalate rest
  | parts => "/".intercalate parts

/-- The components of the parent; the root and the empty path have none. -/
def parent? (path : String) : Option (List String) :=
  match (parts path).reverse with
  | [] => none
  | "/" :: _ => none
  | _ :: outer => some outer.reverse

end ModalKeys.Path
