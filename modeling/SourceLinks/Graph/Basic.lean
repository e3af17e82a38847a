import SourceLinks.Graph.Multigraph
import SourceLinks.Keyed
import SourceLinks.Link
import SourceLinks.Log
import SourceLinks.Text.Quoted

namespace SourceLinks

/-- A class as a node of the graph. -/
structure ClassNode where
  id : String
  archive : String
  name : String
  internal : String
deriving Repr, DecidableEq, Inhabited

/-- All links of one relation and anchor from one class to another. -/
structure Bundle where
  relation : String
  anchor : String
  /-- The lines of the links in the order of arrival. -/
  lines : List Int
deriving Repr, DecidableEq, Inhabited

abbrev ClassEdge := Joined Bundle

namespace ClassEdge

def relation (e : ClassEdge) : String :=
  e.data.relation

def anchor (e : ClassEdge) : String :=
  e.data.anchor

def lines (e : ClassEdge) : List Int :=
  e.data.lines

end ClassEdge

namespace LinkFold

def nodeId (archive internal : String) : String :=
  archive ++ "!" ++ internal

def relation (kind : String) : String :=
  match kind with
  | "import" => "IMPORTS"
  | "method" => "CALLS"
  | _ => "REFERENCES"

/-- The key of the edge for a relation and an anchor. -/
def edgeKey (relation anchor : String) : String :=
  relation ++ ":" ++ anchor

section Library
variable {γ : Type} [Multigraph γ ClassNode Bundle]

/-- The graph with a node for the class; one that is there stays as it is. -/
def ensure (g : γ) (archive internal : String) : γ :=
  let id := nodeId archive internal
  if Multigraph.hasNode g id then g
  else Multigraph.addNode g id ⟨id, archive, ClassName.simple internal, internal⟩

/-- Adds the line of a link to the edge that it belongs to, or the edge itself. -/
def addLink (source : String) (g : γ) (l : Link) : γ :=
  let g := ensure g l.archive l.name
  let target := nodeId l.archive l.name
  let relation := relation l.kind
  let anchor := l.anchor.getD ""
  let key := edgeKey relation anchor
  if Multigraph.hasEdge g source target key then
    Multigraph.changeEdge g source target key fun b => { b with lines := b.lines ++ [l.line] }
  else Multigraph.addEdge g ⟨source, target, key, ⟨relation, anchor, [l.line]⟩⟩

/-- Folds the links of one class into the graph. -/
def addLinks (g : γ) (archive internal : String) (links : LinkTable) : γ :=
  links.foldl (addLink (nodeId archive internal)) (ensure g archive internal)

/-- The number of classes, then of the edges of each relation. -/
def summary (g : γ) : List (String × Nat) :=
  let count := fun (t : Keyed Nat) (e : ClassEdge) =>
    t.set e.relation ((t.get? e.relation).getD 0 + 1)
  ((Multigraph.edges g).foldl count ⟨[("classes", Multigraph.nodeCount g)]⟩).entries

end Library
end LinkFold

/-- Which classes refer to which, in a graph that is kept in lists. -/
abbrev ClassGraph := PlainGraph ClassNode Bundle

namespace ClassGraph

def nodes (g : ClassGraph) : List ClassNode :=
  g.rows.map PlainNode.data

def orderedEdges (g : ClassGraph) : List ClassEdge :=
  Multigraph.edges g

def addLinks (g : ClassGraph) (archive internal : String) (links : LinkTable) : ClassGraph :=
  LinkFold.addLinks g archive internal links

def summary (g : ClassGraph) : List (String × Nat) :=
  LinkFold.summary g

def summaryText (g : ClassGraph) : String :=
  let parts := g.summary.map fun (name, n) => Text.quoted name ++ s!": {n}"
  "\x7b" ++ ", ".intercalate parts ++ "\x7d"

def summaryLine (g : ClassGraph) : LogLine :=
  ⟨"graph_builder", "[XrefGraph] " ++ g.summaryText⟩

end ClassGraph
end SourceLinks
