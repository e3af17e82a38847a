namespace SourceLinks

/-- A node of a parsed source: what it is, its role in its parent, the octets it covers. A missing
node has no octets; the parser put it where the grammar wants one. -/
structure Node where
  kind : String
  /-- Empty if the parent does not name this child. -/
  field : String
  named : Bool
  missing : Bool
  start : Nat
  stop : Nat
  children : List Node
deriving Repr, Inhabited

namespace Node

def namedChildren (n : Node) : List Node :=
  n.children.filter Node.named

/-- The first child that the node calls `field`. -/
def child? (n : Node) (field : String) : Option Node :=
  n.children.find? fun c => c.field == field

/-- The first named child of one of these kinds. -/
def namedChild? (n : Node) (kinds : List String) : Option Node :=
  n.namedChildren.find? fun c => kinds.contains c.kind

mutual
/-- The node is missing, could not be parsed, or holds such a node. -/
def hasError : Node → Bool
  | ⟨kind, _, _, missing, _, _, children⟩ => missing || kind == "ERROR" || anyError children

def anyError : List Node → Bool
  | [] => false
  | c :: rest => c.hasError || anyError rest
end

/-- Parentheses around an expression, taken off; those around nothing stay. -/
def unwrapped : Node → Node
  | ⟨kind, field, named, missing, start, stop, children⟩ =>
    if kind = "parenthesized_expression" then
      firstUnwrapped ⟨kind, field, named, missing, start, stop, children⟩ children
    else ⟨kind, field, named, missing, start, stop, children⟩
where
  firstUnwrapped (whole : Node) : List Node → Node
    | [] => whole
    | c :: rest => if c.named then unwrapped c else firstUnwrapped whole rest

end Node
end SourceLinks
