import SourceLinks.Tree.Source

namespace SourceLinks

/-- The most faults a parse reports. -/
def maxFaults : Int := 20

namespace Node

/-- The node is missing or could not be parsed. -/
def isFaulty (n : Node) : Bool :=
  n.missing || n.kind == "ERROR"

theorem sizeOf_append (a b : List Node) : sizeOf (a ++ b) + 1 = sizeOf a + sizeOf b := by
  induction a with
  | nil => simp [Nat.add_comm]
  | cons n rest ih =>
    simp only [List.cons_append, List.cons.sizeOf_spec]
    omega

/-- The children of a node are less to search than the node. -/
theorem sizeOf_children_append (n : Node) (rest : List Node) :
    sizeOf (n.children ++ rest) < sizeOf (n :: rest) := by
  obtain ⟨kind, field, named, missing, start, stop, children⟩ := n
  have happend := sizeOf_append children rest
  simp only [List.cons.sizeOf_spec, Node.mk.sizeOf_spec]
  omega

end Node

namespace Source

/-- What a node that is missing or could not be parsed is reported as. -/
def faultText (s : Source) (n : Node) : String :=
  let p := s.startPosition n
  if n.missing then s!"missing `{n.kind}` at line {p.line}, column {p.column}"
  else
    let snippet := String.ofList (excerpt (s.text n).toList 40)
    s!"syntax error at line {p.line}, column {p.column}: `{snippet}`"

/-- Searches a stack of nodes in document order until there are `room` faults. A faulty node is
reported as a whole, and only a node that holds a fault is looked into. -/
def collectFaults (s : Source) : (room : Nat) → (stack : List Node) → List String
  | 0, _ => []
  | _ + 1, [] => []
  | room + 1, n :: rest =>
    if n.isFaulty then s.faultText n :: s.collectFaults room rest
    else if n.hasError then s.collectFaults (room + 1) (n.children ++ rest)
    else s.collectFaults (room + 1) rest
termination_by _ stack => sizeOf stack
decreasing_by
  · exact Nat.lt_add_of_pos_left (by omega)
  · exact Node.sizeOf_children_append n rest
  · exact Nat.lt_add_of_pos_left (by omega)

/-- What a faulty tree is reported as if no node of it is. -/
def unknownFault : String := "syntax error (location unknown)"

/-- The first `limit` faults of the tree. A faulty tree always has something to report. -/
def faultsUpTo (s : Source) (limit : Int) : List String :=
  let faults := s.collectFaults limit.toNat [s.root]
  if faults.isEmpty && s.root.hasError then [unknownFault] else faults

def faults (s : Source) : List String :=
  if s.root.hasError then s.faultsUpTo maxFaults else []

/-- The source parsed without faults. -/
def isSound (s : Source) : Bool :=
  s.faults.isEmpty

end Source
end SourceLinks
