import SourceLinks.CommandLine.Decompiler
import SourceLinks.CommandLine.Options
import SourceLinks.Graph.Xml
import SourceLinks.Json.Writer
import SourceLinks.Settings.Loading
import SourceLinks.Task

namespace SourceLinks

/-- The archive of the class files below a directory. -/
def Archive.ofDirectory (id : String) (files : FileTree) (place : List String) : Archive :=
  { id, entries := Keyed.ofList (files.filesBelow place) }

namespace CommandLine

/-- Why a run broke off. -/
inductive Failure where
  | settings (why : LoadError)
  | config (why : ConfigError)
  | file (why : FileError)
  | notArchive
  | loaded (why : AlreadyLoaded)
  | task (why : TaskError DecompilerError)
deriving Repr, DecidableEq, Inhabited

def Failure.message : Failure → String
  | .settings why => why.message
  | .config why => why.message
  | .file why => why.message
  | .notArchive => "File is not a zip file"
  | .loaded why => why.message
  | .task (.missing name archive) => missingMessage name archive
  | .task (.transformer why) => why.message

/-- How a run ended. -/
inductive Ending where
  | done
  | help
  | usage (why : UsageError)
  | failed (why : Failure)
deriving Repr, DecidableEq, Inhabited

/-- Where the source of a class comes from: a file that has been read, or a decompiler. -/
inductive Origin where
  | file (name : String) (text : RawText)
  | decompiler (d : Decompiler)

def Origin.name : Origin → String
  | .file name _ => "file:" ++ name
  | .decompiler _ => "command"

def Origin.ask (origin : Origin) (name : String) (bytes : List UInt8) :
    Except DecompilerError Decompiled :=
  match origin with
  | .file _ text => .ok (.source text)
  | .decompiler d => d.ask name bytes

/-- What a run needs besides files and settings. -/
structure Machine where
  runId : String
  /-- A directory that is gone after the run. -/
  scratch : Path
  execute : FileTree → List String → Except FileError Outcome
  parse : Document → Node

/-- What a run changes. -/
structure Desk where
  files : FileTree
  env : Environment := {}
  printed : List Char := []

/-- A part of a run; it may break off, and what it did until then stays. -/
abbrev Session := ExceptT Ending (StateM Desk)

namespace Session
variable {α : Type}

def fail (why : Failure) : Session α :=
  throw (.failed why)

/-- A result, or why there is none. -/
def take {ε : Type} (wrap : ε → Failure) : Except ε α → Session α
  | .ok a => pure a
  | .error e => fail (wrap e)

def print (line : List Char) : Session Unit :=
  modify fun d => { d with printed := d.printed ++ line ++ ['\n'] }

/-- Changes the files, if that can be done. -/
def change (f : FileTree → Except FileError FileTree) : Session Unit := do
  let files ← take .file (f (← get).files)
  modify fun d => { d with files }

def options (args : List String) : Session Options :=
  match Options.parse args with
  | .ok o => pure o
  | .error .help => do
    print helpText
    throw .help
  | .error (.usage why) => throw (.usage why)

/-- The configuration after the files of settings have been taken over. -/
def configure (o : Options) : Session Config := do
  let desk ← get
  let (env, found) := desk.env.autoLoad desk.files (some o.dotenv)
  set { desk with env }
  let _ ← take .settings found
  take .config env.config

/-- The archive at a path: a directory of class files, or a jar. -/
def archive (path : Path) : Session Archive := do
  let files := (← get).files
  if ← take .file (files.isDirectory path) then
    return .ofDirectory path.name files (← take .file (files.place path))
  else
    match ← take .file (files.find path) with
    | .jar entries => return .ofJar path.name entries
    | _ => fail .notArchive

def corpus : Corpus → List String → Session Corpus
  | c, [] => pure c
  | c, path :: rest => do
    let a ← archive (Path.ofString path)
    corpus (← take .loaded (c.add a)) rest

/-- The archive of the class: the one that was named, or the first that has it. -/
def owner (o : Options) (c : Corpus) : Session String :=
  match o.owner.or (c.lookup? o.className none) with
  | some id => pure id
  | none => throw (.usage (.classNotFound o.className))

def origin (m : Machine) (o : Options) : Session Origin := do
  let files := (← get).files
  match o.source with
  | some path =>
    let p := Path.ofString path
    let bytes ← take .file (files.read p)
    return .file p.name (RawText.ofChars (Text.withFeeds (Utf8.decodeReplacing bytes)))
  | none =>
    return .decompiler ⟨o.command.getD "", m.scratch, files, m.execute⟩

def tracePath (m : Machine) (c : Config) : Path :=
  match c.tracePath with
  | some path => Path.ofString path
  | none => ⟨"", ["runs", m.runId, "trace.jsonl"]⟩

/-- The line of a trace file. -/
def traceLine (t : Tracer) (s : Stage) : List UInt8 :=
  Utf8.encode (Json.write false (t.row s) ++ ['\n'])

/-- Runs the request. A decompiler that gave up is reported, and the stages go to the trace. -/
def view (m : Machine) (config : Config) (c : Corpus) (origin : Origin) (r : Request)
    (trace : Path) : Session View := do
  if let some bytes := r.classBytes? c then
    if let .ok (.gaveUp notice) := origin.ask r.name bytes then print notice
  let workshop : Workshop DecompilerError :=
    { transform := fun name bytes => (origin.ask name bytes).map Decompiled.source?
      parse := m.parse
      cancelled := fun _ => false }
  let ((result, stages), _, _) := (r.run c config workshop).run c
  let tracer : Tracer := ⟨m.runId, [("class", .str r.name)]⟩
  for s in stages do
    change fun files => files.append trace (traceLine tracer s)
  take .task result

/-- The links of a view as the run reports them. -/
def payload (v : View) : Json :=
  .object [
    ("class", .str v.request.name),
    ("archive", .str v.request.archive),
    ("parse_error", Json.ofOption (fun faults => .list (faults.map .str)) v.parseError),
    ("links", .list (v.links.map Link.toJson))]

/-- A line that says where something was written. -/
def written (what : String) (p : Path) (more : String) : Session Unit := do
  let place := ((← get).files.resolve p).toString
  print s!"✅ {what}: {place}{more}".toList

def report (o : Options) (v : View) (trace : Path) : Session Unit := do
  let text := (payload v).writeLines 0
  match o.out with
  | some path =>
    let p := Path.ofString path
    change fun files => files.write p (Utf8.encode text)
    written "links" p ""
  | none => print text
  if let some path := o.graph then
    let g := ClassGraph.addLinks {} v.request.archive v.request.name v.links
    let p := Path.ofString path
    change fun files => files.write p (Utf8.encode g.graphml)
    written "graph" p (" " ++ g.summaryText)
  written "trace" trace ""

end Session

/-- Resolves the references of one class and reports its links. -/
def session (m : Machine) (args : List String) : Session Unit := do
  let o ← Session.options args
  let config ← Session.configure o
  let c ← Session.corpus {} o.archives
  let owner ← Session.owner o c
  let origin ← Session.origin m o
  let trace := Session.tracePath m config
  Session.change fun files => files.makeDirectories trace.parent
  let r : Request := ⟨owner, o.className, ⟨origin.name, .decompiler⟩, none⟩
  let v ← Session.view m config c origin r trace
  Session.report o v trace

/-- Runs the program; says how it ended, and what became of files and output. -/
def run (m : Machine) (desk : Desk) (args : List String) : Ending × Desk :=
  match (session m args).run desk with
  | (.ok (), desk) => (.done, desk)
  | (.error ending, desk) => (ending, desk)

end CommandLine
end SourceLinks
