import SourceLinks.Json.Basic
import SourceLinks.Resolver.Walk
import SourceLinks.Trace
import SourceLinks.Tree.Fault

namespace SourceLinks

def Link.toJson (l : Link) : Json :=
  .object [
    ("start_offset", .int l.start),
    ("end_offset", .int l.stop),
    ("source_line", .int l.line),
    ("source_column", .int l.column),
    ("target_archive_id", .str l.archive),
    ("target_internal_class_name", .str l.name),
    ("target_anchor", Json.ofOption .str l.anchor),
    ("kind", .str l.kind),
    ("target_entry_name", .str l.entry)]

/-- The counters that some reference touched. -/
def Tally.toJson (t : Tally) : Json :=
  let counts := [("links", t.links), ("unresolved", t.unresolved), ("ambiguous", t.ambiguous),
    ("unsupported", t.unsupported), ("errors", t.errors), ("out_of_range", t.outOfRange)]
  .object ((counts.filter fun c => c.2 != 0).map fun (name, n) => (name, .int n))

/-- What a transformer makes of a class: source, or a listing that is shown as it is. -/
inductive TransformerKind where
  | decompiler
  | disassembler
deriving Repr, DecidableEq, Inhabited

def TransformerKind.name : TransformerKind → String
  | .decompiler => "decompiler"
  | .disassembler => "disassembler"

structure Transformer where
  name : String
  kind : TransformerKind
deriving Repr, DecidableEq, Inhabited

/-- A class to be shown. -/
structure Request where
  archive : String
  name : String
  transformer : Transformer
  jumpTo : Option String := none
deriving Repr, DecidableEq, Inhabited

/-- Requests with equal keys show the same view. -/
structure ViewKey where
  archive : String
  name : String
  transformer : String
deriving Repr, DecidableEq, Inhabited

def Request.key (r : Request) : ViewKey :=
  ⟨r.archive, r.name, r.transformer.name⟩

/-- The text of a view and its links. -/
structure View where
  request : Request
  text : RawText
  links : LinkTable := []
  parseError : Option (List String) := none
  cancelled : Bool := false
deriving Repr, Inhabited

/-- Why a request gives no view; `ε` is how its transformer can fail. -/
inductive TaskError (ε : Type) where
  | missing (name archive : String)
  | transformer (why : ε)
deriving Repr, DecidableEq, Inhabited

def missingMessage (name archive : String) : String :=
  s!"{name} not found in {archive}"

/-- How the outside world serves a task. -/
structure Workshop (ε : Type) where
  /-- What the transformer makes of a class, if anything. -/
  transform : String → List UInt8 → Except ε (Option RawText)
  parse : Document → Node
  /-- The answer to the cancellation check before each top-level node. -/
  cancelled : Nat → Bool

namespace Request
variable {ε : Type}

def classBytes? (r : Request) (c : Corpus) : Option (List UInt8) :=
  (c.get? r.archive).bind fun a => a.classBytes? r.name

def taskLine (message : String) : LogLine := ⟨"task", message⟩

/-- A stage of the request, as traces show it. -/
def stage (r : Request) (name tool : String) (output : Json) : Stage :=
  { name, tool, output, input := .object [("archive", .str r.archive), ("class", .str r.name)] }

def parseStage (r : Request) (s : Source) : Stage :=
  r.stage "parse" "JavaSourceParser.parse" (.object [
    ("ok", .bool s.isSound),
    ("errors", .int s.faults.length),
    ("lines", .int s.document.lines.length)])

def resolveStage (r : Request) (t : Tally) : Stage :=
  r.stage "resolve" "ReferenceResolver.resolve" t.toJson

/-- What the parser makes of a text that is shown for a request. -/
def sourceOf (r : Request) (w : Workshop ε) (text : RawText) : Source :=
  let document := Document.ofRaw text r.name r.archive
  { document, root := w.parse document }

/-- Parses a decompiled text and resolves its references; a text that does not parse is shown with
what is wrong with it. -/
def resolveText (r : Request) (c : Corpus) (config : Config) (w : Workshop ε) (text : RawText) :
    Inquiry (View × List Stage) := do
  let source := r.sourceOf w text
  match source.faults with
  | first :: rest =>
    Inquiry.log (taskLine s!"could not parse {r.name}: {first}")
    let faults := first :: rest
    return ({ request := r, text := RawText.ofChars (source.document.withDiagnostic faults)
              parseError := some faults }, [r.parseStage source])
  | [] =>
    let (p, cancelled) ← ({ corpus := c, source, config } : Setting).resolve w.cancelled
    return ({ request := r, text := RawText.ofChars source.document.text, links := p.links, cancelled },
      [r.parseStage source, r.resolveStage p.tally])

/-- The view of a request, and the stages that it took. -/
def run (r : Request) (c : Corpus) (config : Config) (w : Workshop ε) :
    Inquiry (Except (TaskError ε) View × List Stage) := do
  match r.classBytes? c with
  | none => return (.error (.missing r.name r.archive), [])
  | some bytes =>
    match w.transform r.name bytes with
    | .error why => return (.error (.transformer why), [])
    | .ok none =>
      Inquiry.log (taskLine s!"{r.transformer.name} produced no output for {r.name}")
      return (.ok { request := r, text := [] }, [])
    | .ok (some text) =>
      match r.transformer.kind with
      | .disassembler => return (.ok { request := r, text }, [])
      | .decompiler =>
        let (view, stages) ← r.resolveText c config w text
        return (.ok view, stages)

end Request
end SourceLinks
