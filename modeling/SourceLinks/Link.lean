import SourceLinks.ClassName
import SourceLinks.Text.Split

namespace SourceLinks

/-- A span of a document and the class that a click on it opens. -/
structure Link where
  start : Int
  stop : Int
  line : Int
  column : Int
  archive : String
  name : String
  anchor : Option String
  kind : String
deriving Repr, DecidableEq, Inhabited

namespace Link

def entry (l : Link) : String :=
  ClassName.entry l.name

def covers (l : Link) (offset : Int) : Bool :=
  l.start ≤ offset && offset < l.stop

def width (l : Link) : Int :=
  l.stop - l.start

end Link

/-- Links in the order in which they were found. -/
abbrev LinkTable := List Link

namespace LinkTable

/-- Of two numbered links the narrower; of two equally wide the first. -/
def narrower (a b : Link × Nat) : Link × Nat :=
  if b.1.width < a.1.width then b else a

/-- The link that a click at an offset follows, with its place in the table: of those that cover the
offset the narrowest, and of several such the first. -/
def at? (t : LinkTable) (offset : Int) : Option (Link × Nat) :=
  match (t.zipIdx).filter fun l => l.1.covers offset with
  | [] => none
  | first :: rest => some (rest.foldl narrower first)

/-- The link at an index that may count from the end. -/
def get? (t : LinkTable) (i : Int) : Option Link :=
  (Text.place? t.length i).bind fun j => t[j]?

end LinkTable
end SourceLinks
