import BlockData.Text.Blank

/-!
# File trees

Directories, files and symbolic links as data, and the paths that lead through them.

* `FileTree.locate?` follows a path, links included;
* `FileTree.locateEntry?` stops at a link that the path ends with.
-/

namespace BlockData

/-- What a name in a directory stands for. -/
inductive FileTree where
  | file (content : ByteArray)
  | link (target : String)
  | directory (entries : List (String × FileTree))

namespace FileTree

/-- The entry of a directory. -/
def entry? (name : String) : FileTree → Option FileTree
  | directory entries => entries.lookup name
  | _ => none

/-! ## Paths -/

/-- How many bytes a path may have. -/
def pathLimit : Nat := 4095

/-- Whether a path is short enough to be followed, whatever it leads to. -/
def isFollowable (path : String) : Bool :=
  decide (path.utf8ByteSize ≤ pathLimit)

/-- The parts of a relative path.  A path that ends with a slash means the directory
itself; an absolute or empty path has no parts, and one that is too long has none. -/
def pathParts? (path : String) : Option (List String) :=
  if isFollowable path then
    match (Text.splitAt '/' path.toList).map String.ofList with
    | "" :: _ => none
    | parts =>
      let last := if parts.getLast? = some "" then ["."] else []
      some (parts.filter (· ≠ "") ++ last)
  else
    none

/-- What lies at names from the top, no link being followed. -/
def at? : FileTree → List String → Option FileTree
  | tree, [] => some tree
  | tree, name :: rest =>
    match tree.entry? name with
    | some inner => inner.at? rest
    | none => none

/-- How many links may be followed on the way. -/
def linkLimit : Nat := 40

/-- The names from the top that a path leads to from the place `here`, links followed.
There need not be anything under the last name, but a directory under all before it.  A
link that the path ends with is followed if `toTheEnd`, and is the place otherwise. -/
def resolve? (toTheEnd : Bool) (links : Nat) (top : FileTree) (here parts : List String) :
    Option (List String) :=
  match parts with
  | [] => some here
  | part :: rest =>
    if part = "." then
      resolve? toTheEnd links top here rest
    else if part = ".." then
      if here = [] then none else resolve? toTheEnd links top here.dropLast rest
    else
      match top.at? (here ++ [part]) with
      -- a link is followed from the directory that holds it
      | some (.link target) =>
        if rest = [] ∧ !toTheEnd then
          some (here ++ [part])
        else
          match links, pathParts? target with
          | links + 1, some targetParts =>
            resolve? toTheEnd links top here (targetParts ++ rest)
          | _, _ => none
      | some (.directory _) => resolve? toTheEnd links top (here ++ [part]) rest
      | _ => if rest = [] then some (here ++ [part]) else none
  termination_by (links, parts.length)

/-- What lies at a path below a directory, links followed. -/
def locate? (top : FileTree) (path : String) : Option FileTree :=
  ((pathParts? path).bind (resolve? true linkLimit top [])).bind top.at?

/-- What lies at a path below a directory, a link at its end not being followed. -/
def locateEntry? (top : FileTree) (path : String) : Option FileTree :=
  ((pathParts? path).bind (resolve? false linkLimit top [])).bind top.at?

/-- The text of a file, if it is one and its bytes are text. -/
def text? : FileTree → Option String
  | file content => String.fromUTF8? content
  | _ => none

/-- The text of the file at a path. -/
def readText? (top : FileTree) (path : String) : Option String :=
  (top.locate? path).bind text?

end FileTree
end BlockData
