namespace SourceLinks

/-- An edge with the nodes that it joins, its key among the edges between them, and its data. -/
structure Joined (ε : Type) where
  source : String
  target : String
  key : String
  data : ε
deriving Repr, DecidableEq, Inhabited

namespace Joined
variable {ε : Type}

/-- The edge joins these nodes under this key. -/
def joins (e : Joined ε) (source target key : String) : Bool :=
  e.source == source && e.target == target && e.key == key

/-- The edge, with other data if it joins these nodes under this key. -/
def changeAt (source target key : String) (change : ε → ε) (e : Joined ε) : Joined ε :=
  if e.joins source target key then { e with data := change e.data } else e

end Joined

/-- What a library of directed graphs offers. Nodes and edges carry data; between two nodes there is
an edge for each key. -/
class Multigraph (γ : Type) (ν ε : outParam Type) where
  empty : γ
  hasNode (g : γ) (id : String) : Bool
  addNode (g : γ) (id : String) (data : ν) : γ
  hasEdge (g : γ) (source target key : String) : Bool
  addEdge (g : γ) (e : Joined ε) : γ
  changeEdge (g : γ) (source target key : String) (change : ε → ε) : γ
  nodeCount (g : γ) : Nat
  nodes (g : γ) : List (String × ν)
  edges (g : γ) : List (Joined ε)

open Multigraph in
/-- What the library promises. Nodes are listed in the order in which they were added; in which order
edges are listed is left open. -/
class LawfulMultigraph (γ : Type) {ν ε : outParam Type} [Multigraph γ ν ε] : Prop where
  nodes_empty : nodes (empty : γ) = []
  edges_empty : edges (empty : γ) = []
  nodeCount_eq (g : γ) : nodeCount g = (nodes g).length
  hasNode_iff (g : γ) (id : String) : hasNode g id = true ↔ id ∈ (nodes g).map Prod.fst
  hasEdge_iff (g : γ) (source target key : String) :
    hasEdge g source target key = true ↔ ∃ e ∈ edges g, e.joins source target key = true
  nodes_addNode {g : γ} {id : String} (new : hasNode g id = false) (data : ν) :
    nodes (addNode g id data) = nodes g ++ [(id, data)]
  edges_addNode {g : γ} {id : String} (new : hasNode g id = false) (data : ν) :
    (edges (addNode g id data)).Perm (edges g)
  nodes_addEdge {g : γ} {e : Joined ε} (source : hasNode g e.source = true)
    (target : hasNode g e.target = true) : nodes (addEdge g e) = nodes g
  edges_addEdge {g : γ} {e : Joined ε} (source : hasNode g e.source = true)
    (target : hasNode g e.target = true) (new : hasEdge g e.source e.target e.key = false) :
    (edges (addEdge g e)).Perm (edges g ++ [e])
  nodes_changeEdge {g : γ} {source target key : String}
    (there : hasEdge g source target key = true) (change : ε → ε) :
    nodes (changeEdge g source target key change) = nodes g
  edges_changeEdge {g : γ} {source target key : String}
    (there : hasEdge g source target key = true) (change : ε → ε) :
    (edges (changeEdge g source target key change)).Perm
      ((edges g).map (Joined.changeAt source target key change))

/-- A node with its data and the edges that start from it. -/
structure PlainNode (ν ε : Type) where
  id : String
  data : ν
  out : List (Joined ε) := []
deriving Repr, DecidableEq

/-- A graph that is kept in lists, each in the order of arrival. -/
structure PlainGraph (ν ε : Type) where
  rows : List (PlainNode ν ε) := []
deriving Repr, DecidableEq, Inhabited

namespace PlainGraph
variable {ν ε : Type}

/-- Edges by source, then by target in the order of first mention. -/
def edges (g : PlainGraph ν ε) : List (Joined ε) :=
  g.rows.flatMap fun n =>
    (n.out.map Joined.target).eraseDups.flatMap fun t => n.out.filter fun e => e.target == t

/-- Puts an edge to the node that it starts from. -/
def place (e : Joined ε) : List (PlainNode ν ε) → List (PlainNode ν ε)
  | [] => []
  | n :: rest =>
    if n.id = e.source then { n with out := n.out ++ [e] } :: rest else n :: place e rest

instance : Multigraph (PlainGraph ν ε) ν ε where
  empty := {}
  hasNode g id := g.rows.any fun n => n.id == id
  addNode g id data := ⟨g.rows ++ [⟨id, data, []⟩]⟩
  hasEdge g source target key := g.edges.any fun e => e.joins source target key
  addEdge g e := ⟨place e g.rows⟩
  changeEdge g source target key change :=
    ⟨g.rows.map fun n => { n with out := n.out.map (Joined.changeAt source target key change) }⟩
  nodeCount g := g.rows.length
  nodes g := g.rows.map fun n => (n.id, n.data)
  edges := edges

end PlainGraph
end SourceLinks
