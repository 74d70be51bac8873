import BlockData.CommandLine.Run

/-!
# The program

Reads what the arguments ask for, prints what the library answers, and ends with its
status.  Only this module looks at files.
-/

namespace BlockData.Main

/-- A file's text, or nothing if there is no file or its bytes are no text. -/
def readText? (path : String) : IO (Option String) := do
  try
    return some (← IO.FS.readFile path)
  catch _ =>
    return none

/-- All of the input, or nothing if its bytes are no text. -/
def readInput? : IO (Option String) := do
  try
    return some (← (← IO.getStdin).readToEnd)
  catch _ =>
    return none

/-- What lies at a path: a file, a directory with all it holds, or a link. -/
partial def readTree (entry : IO.FS.DirEntry) : IO FileTree := do
  match (← entry.path.symlinkMetadata).type with
  | .file => return .file (← IO.FS.readBinFile entry.path)
  | .dir =>
    let entries ← entry.path.readDir
    let trees ← entries.toList.mapM fun inner => do
      return (inner.fileName, ← readTree inner)
    return .directory trees
  | _ => return .link ""

/-- What a walk from a root meets, or nothing if it cannot be read.  A root that is a link
is followed to a directory. -/
def readWalk? (root : String) : IO (Option (List FileTree.Visit)) := do
  if root = "" then
    return none
  try
    let entry : IO.FS.DirEntry := ⟨⟨root⟩, "."⟩
    if ← entry.root.isDir then
      return some (FileTree.visits root "" (← readTree entry))
    else if (← entry.root.symlinkMetadata).type == .file then
      let content ← IO.FS.readBinFile root
      return some (FileTree.visits root (FileTree.lastName root) (.file content))
    else if ← entry.root.pathExists then
      return some []
    else
      return none
  catch _ =>
    return none

/-- The texts and files that a request is about. -/
def surroundings (request : CommandLine.Request) : IO CommandLine.Surroundings := do
  let (sources, items) : List String × List String :=
    match request with
    | .run _ (.upgrade input _) => ([input], [])
    | .run _ (.convert _ input items) => ([input], items.toList)
    | _ => ([], [])
  let found ← (sources ++ items).mapM fun path => do return (path, ← readText? path)
  let walk ← match request with
    | .run options .schemas => readWalk? options.config.directory
    | .run options (.upgrade ..) => readWalk? options.config.directory
    | _ => pure none
  let input ← if sources.contains "-" then readInput? else pure none
  return {
    text? := fun path => (found.lookup path).join
    walk? := fun _ => walk
    input? := input }

end BlockData.Main

open BlockData BlockData.CommandLine in
/-- Run the program on its arguments. -/
def main (arguments : List String) : IO UInt32 := do
  let names := [Config.directoryVariable, Config.limitVariable]
  let settings ← names.mapM fun name => do return (name, ← IO.getEnv name)
  let environment := fun name => (settings.lookup name).join
  let outcome : Outcome ←
    match Request.read? environment arguments with
    | none => pure .misused
    | some request => pure (respond (← BlockData.Main.surroundings request) request)
  match outcome with
  | .printed text => IO.print text
  | .failed failure => IO.eprintln ("Error: " ++ failure.message)
  | .misused => IO.eprint usageText
  return outcome.exitCode
