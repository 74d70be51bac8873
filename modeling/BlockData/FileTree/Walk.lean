import BlockData.FileTree

/-!
# Walks

A walk lists what lies below a directory, depth first and siblings in the order of their
names.  It follows no links but one at the root, and meets files and the directories that
it cannot enter: a path grows with every name below the root, and one that is too long
opens nothing.
-/

namespace BlockData.FileTree

/-- A file that a walk has met.  It has no content if its path is too long to open it. -/
structure Found where
  path : String
  name : String
  content : Option ByteArray

/-- The text of a file that has been met, if it can be opened and its bytes are text. -/
def Found.text? (found : Found) : Option String :=
  found.content.bind String.fromUTF8?

/-- What a walk meets. -/
inductive Visit where
  | file (found : Found)
  /-- A directory that cannot be entered. -/
  | closed (path : String)

/-- The path of an entry. -/
def join (directory name : String) : String :=
  if directory.endsWith "/" then directory ++ name else directory ++ "/" ++ name

/-- Whether an entry with what is met in it may stand before another one. -/
def inOrder (a b : String × List Visit) : Bool :=
  decide (a.1 ≤ b.1)

mutual

/-- What is met in an entry called `name` that lies at `path`. -/
def visits (path name : String) : FileTree → List Visit
  | .file content => [.file ⟨path, name, if isFollowable path then some content else none⟩]
  | .link _ => []
  | .directory entries =>
    if isFollowable path then
      ((visitsOfEntries path entries).mergeSort inOrder).flatMap (·.2)
    else
      [.closed path]

/-- What is met in each entry of a directory at `path`. -/
def visitsOfEntries (path : String) : List (String × FileTree) → List (String × List Visit)
  | [] => []
  | (name, tree) :: rest =>
    (name, visits (join path name) name tree) :: visitsOfEntries path rest

end

/-- The name that a path ends with. -/
def lastName (path : String) : String :=
  String.ofList (((Text.splitAt '/' path.toList).getLast?).getD [])

/-- What is met from `root` on.  If `root` is a link, it is followed to a directory, but
not to a file.  There is no walk if there is nothing at `root`. -/
def walk? (top : FileTree) (root : String) : Option (List Visit) :=
  match top.locateEntry? root with
  | none => none
  -- only a directory is worth following a link for
  | some (.link _) =>
    match top.locate? root with
    | none => none
    | some (.directory entries) => some (visits root "" (.directory entries))
    | some _ => some []
  | some tree => some (visits root (lastName root) tree)

end BlockData.FileTree
