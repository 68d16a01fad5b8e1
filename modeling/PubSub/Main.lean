import PubSub.CommandLine
import PubSub.Snapshot

/-!
# The program

Reads the files that a run needs, runs it, and writes the store back. Output
goes to standard output, the log and complaints to standard error.
-/

namespace PubSub.Main

/-- What stands at a path. What cannot be read as a text is taken for a folder. -/
def node? (path : String) : IO (Option Node) := do
  try
    return some (Snapshot.node (← IO.FS.readFile path))
  catch
    | .noFileOrDirectory .. => return none
    | _ => return some .folder

def withFile (files : Files) (path : String) : IO Files := do
  match ← node? path with
  | some node => return (files.writeDeep (Text.points path) node).1
  | none => return files

/-- The name of the file that a store is kept in. A store in memory has none. -/
def fileOf? (path : List Text.Point) : Option String := do
  let bytes ← (Files.bytesOf path).toOption
  let address ← (Address.ofBytes bytes).toOption
  match address.keeping with
  | .file name => Text.ofBytes? name
  | _ => none

def filesOf (request : Request) : IO (Files × List Text.Point) := do
  let some path := request.settings | return ([], [])
  let files ← withFile [] path
  match Settings.load files path with
  | .error _ => return (files, [])
  | .ok settings =>
    match fileOf? settings.path with
    | some file => return (← withFile files file, settings.path)
    | none => return (files, settings.path)

def save (files : Files) (path : List Text.Point) : IO Unit := do
  match fileOf? path with
  | none => return ()
  | some file =>
    match files.found? (Text.points file) with
    | some (.database db) =>
      IO.FS.createDirAll (Text.written (Path.folderText path))
      IO.FS.writeFile file (Snapshot.text db)
    | _ => return ()

def report (outcome : Outcome) : IO UInt32 := do
  for event in outcome.log do
    IO.eprintln (Json.text event.document)
  if let some complaint := outcome.complaint then
    IO.eprintln complaint.message
  IO.print outcome.output
  match outcome.status with
  | .ok status => return status.toUInt32
  | .error failure =>
    IO.eprintln failure.message
    return 1

def run (words : List String) : IO UInt32 := do
  match Request.ofWords words with
  | .error _ => report (World.empty.runCommandLine words).2
  | .ok request =>
    let (files, store) ← filesOf request
    let (world, outcome) := { World.empty with files := files }.runCommandLine words
    save world.files store
    report outcome

end PubSub.Main

def main (words : List String) : IO UInt32 := PubSub.Main.run words
