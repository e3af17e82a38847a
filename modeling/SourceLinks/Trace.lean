import SourceLinks.Digest

namespace SourceLinks

/-- Writes the rows of one run; every row carries the same extra members. -/
structure Tracer where
  runId : String
  extra : List (String × Json) := []
deriving Inhabited

/-- A finished stage. -/
structure Stage where
  name : String
  tool : String
  input : Json := .null
  output : Json := .null
  /-- The kind of error that ended the stage. -/
  error : Option String := none
  extra : List (String × Json) := []
deriving Inhabited

namespace Stage

/-- The longest written form of an output that a row repeats. -/
def summaryLimit : Nat := 2000

/-- Small objects are kept as they are, beside their digest. -/
def summary (s : Stage) : Json :=
  match s.output with
  | .object members =>
    if (Json.write true (.object members)).length ≤ summaryLimit then .object members else .null
  | _ => .null

end Stage

/-- The row of a stage. -/
def Tracer.row (t : Tracer) (s : Stage) : Json :=
  .object [
    ("run_id", .str t.runId),
    ("stage", .str s.name),
    ("tool", .str s.tool),
    ("input_digest", .str (Digest.ofJson Digest.defaultLimit s.input)),
    ("output_digest", .str (Digest.ofJson Digest.defaultLimit s.output)),
    ("output", s.summary),
    ("ok", .bool s.error.isNone),
    ("error_type", .str (s.error.getD "")),
    ("extra", .object (Json.merge t.extra s.extra))]

end SourceLinks
