import Cookbook.Session

/-!
# The command line

Answers its arguments with the recipe files and directories found below the
working directory.  Listing, planning, checking and dry runs work in full.  No
process can be started from here: each start is answered as unavailable, so a
real run stops at its first external command.
-/

namespace Cookbook.Main

/-- The page that help prints. -/
def usage : String :=
  "Usage: reciperun [--debug] [--file FILE] [COMMAND]\n\n" ++
    "Run named recipes and their dependencies, in order.\n\n" ++
    "Commands:\n" ++
    "  run [TARGET] [--dry-run]  Run TARGET (the default recipe if omitted).\n" ++
    "  list                      List recipes with their aliases.\n" ++
    "  plan [TARGET]             Show the execution plan for TARGET.\n" ++
    "  check                     Validate every recipe.\n"

/-- The outcome of every process start. -/
def noProcesses : Processes :=
  fun _ _ => .unavailable "processes cannot be started"

/-- Lists the directories at and below a place; links are not followed. -/
partial def addDirectories (place : Location) (shelf : Shelf) : IO Shelf := do
  let directory := (← IO.currentDir) / ("/" ++ "/".intercalate place)
  let entries ← try directory.readDir catch _ => pure #[]
  let mut found := shelf.addDirectory place
  for entry in entries do
    let metadata ← entry.path.symlinkMetadata
    if metadata.type == .dir then
      found ← addDirectories (place ++ [entry.fileName]) found
  return found

/-- Adds the file at a path, if there is one. -/
def addFile (shelf : Shelf) (path : Path) : IO Shelf := do
  let file := (← IO.currentDir) / path.toString
  let place := (shelf.absolute path).names
  if ← file.isDir then
    return shelf.addDirectory place
  else if ← file.pathExists then
    return shelf.addFile place (.octets (← IO.FS.readBinFile file).toList)
  else
    return shelf

/-- The files that a request may read, as they are stated and in their home directory. -/
def wantedFiles (shelf : Shelf) (request : Request) : List Path :=
  let stated :=
    match request.file with
    | some file => [file]
    | none => Shelf.recipeFileNames
  stated.flatMap fun file =>
    let path := Path.ofString file
    path :: (shelf.expanded path).toOption.toList

/-- The home directory of the user, under its name. -/
def homes : IO (List (String × String)) := do
  let home ← IO.getEnv "HOME"
  return home.toList.map fun home => ("~", home)

/-- The files and directories that a request may look at. -/
def shelf (request : Request) : IO Shelf := do
  let working := (Path.ofString (← IO.currentDir).toString).names
  let directories ← addDirectories working ⟨working, [], [], ← homes⟩
  (wantedFiles directories request).foldlM addFile directories

def write (reply : Reply) : IO UInt32 := do
  IO.print reply.output.out
  IO.eprint reply.output.err
  return reply.exitCode.toUInt32

/-- What debugging shows for a stop. -/
def trace (stop : Stop) : String :=
  "Stopped: " ++ stop.message ++ "\n"

end Cookbook.Main

open Cookbook in
/-- Answers one command line. -/
def main (arguments : List String) : IO UInt32 := do
  match Arguments.read arguments with
  | .help =>
    IO.print Main.usage
    return 0
  | .misuse =>
    IO.eprint Main.usage
    return 2
  | .request request =>
    let world := World.mk (← Main.shelf request) Main.noProcesses
    Main.write (Session.answer Main.trace world request)
