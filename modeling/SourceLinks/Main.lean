import SourceLinks.CommandLine.Program
import SourceLinks.Java.Unit
import SourceLinks.Zip.Reader

namespace SourceLinks.Main
open CommandLine

abbrev Found := List (List String × FileEntry)

/-- A file as the program sees it. -/
def fileEntry (bytes : ByteArray) : FileEntry :=
  match Zip.read? bytes with
  | some entries => .jar entries
  | none => .file bytes.toList

def render (place : List String) : String :=
  "/" ++ "/".intercalate place

/-- What stands at a place; with all that stands below it if that is asked for. -/
partial def survey (whole : Bool) (place : List String) : IO Found := do
  let path := (← IO.currentDir) / render place
  if ← path.isDir then
    let below ←
      if whole then (← path.readDir).toList.mapM fun e => survey true (place ++ [e.fileName])
      else pure []
    return (place, .directory) :: below.flatten
  else if ← path.pathExists then
    return [(place, fileEntry (← IO.FS.readBinFile path))]
  else return []

/-- The places on the way to a place, and the place itself. -/
def waypoints (place : List String) : List (List String) :=
  (List.range (place.length + 1)).map fun n => place.take n

def surveyPath (files : FileTree) (whole : Bool) (path : Path) : IO Found := do
  let place := (files.resolve path).parts
  let way ← (waypoints place).dropLast.mapM (survey false)
  return way.flatten ++ (← survey whole place)

/-- The files with those that stand at some paths. -/
def look (files : FileTree) (whole : Bool) (paths : List Path) : IO FileTree := do
  let found ← paths.mapM (surveyPath files whole)
  return found.flatten.foldl (fun t e => t.put e.1 e.2) files

/-- The variables that matter to a run. -/
def settingNames : List String :=
  ["XREF_LINK_IMPORTS", "XREF_MAX_CHAIN_DEPTH", "XREF_WORKERS", "XREF_TRACE_PATH", "HOME"]

def environment : IO Environment := do
  let pairs ← settingNames.filterMapM fun key => do
    return (← IO.getEnv key).map fun value => (key, value)
  return Keyed.ofList pairs

def machine : IO Machine := do
  let n ← IO.rand 0 0xFFFFFFFFFFFF
  return {
    runId := String.ofList (Text.hex 12 n)
    scratch := ⟨"/", ["tmp", "source-links"]⟩
    -- no other program is started from here
    execute := fun _ _ => .error .absent
    parse := Java.parse }

/-- Everything that a run with these options may ask for. -/
def gather (m : Machine) (o : Options) (desk : Desk) : IO Desk := do
  let settings := Environment.candidates desk.files (some o.dotenv)
  let desk := { desk with
    files := ← look desk.files false (settings.filterMap (desk.env.expandHome? desk.files)) }
  let files ← look desk.files true (o.archives.map Path.ofString)
  let outputs := (o.source.toList ++ o.out.toList ++ o.graph.toList).map Path.ofString
  let trace :=
    match ((Session.configure o).run desk).1 with
    | .ok config => [Session.tracePath m config]
    | .error _ => []
  return { desk with files := ← look files false (outputs ++ trace) }

/-- Writes what a run made. -/
def store (before after : FileTree) : IO Unit := do
  for (place, e) in after.entries do
    if before.entries.lookup place = some e then continue
    match e with
    | .directory => IO.FS.createDirAll (render place)
    | .file bytes => IO.FS.writeBinFile (render place) ⟨bytes.toArray⟩
    | .jar _ => pure ()

def finish (ending : Ending) : IO UInt32 := do
  match ending with
  | .done | .help => return 0
  | .usage why =>
    IO.eprintln s!"error: {why.message}"
    return 2
  | .failed why =>
    IO.eprintln s!"error: {why.message}"
    return 1

end SourceLinks.Main

open SourceLinks CommandLine in
/-- Resolves the references of one class and reports its links. -/
def main (args : List String) : IO UInt32 := do
  let here := (Path.ofString (← IO.currentDir).toString).parts
  let desk : Desk := { files := { here }, env := ← Main.environment }
  let m ← Main.machine
  let desk ←
    match Options.parse args with
    | .ok o => Main.gather m o desk
    | .error _ => pure desk
  let (ending, after) := CommandLine.run m desk args
  Main.store desk.files after.files
  IO.print (String.ofList after.printed)
  Main.finish ending
