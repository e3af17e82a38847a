import SourceLinks.Graph.Basic

namespace SourceLinks

/-- An element with its attributes and either text or elements inside. -/
inductive Xml where
  | text (name : String) (attributes : List (String × String)) (content : String)
  | nested (name : String) (attributes : List (String × String)) (content : List Xml)

namespace Xml

def escapeText (c : Char) : List Char :=
  match c with
  | '&' => "&amp;".toList
  | '<' => "&lt;".toList
  | '>' => "&gt;".toList
  | c => [c]

def escapeAttribute (c : Char) : List Char :=
  match c with
  | '"' => "&quot;".toList
  | '\r' => "&#13;".toList
  | '\n' => "&#10;".toList
  | '\t' => "&#09;".toList
  | c => escapeText c

def opening (name : String) (attributes : List (String × String)) : List Char :=
  '<' :: name.toList ++ attributes.flatMap fun (key, value) =>
    ' ' :: key.toList ++ '=' :: '"' :: value.toList.flatMap escapeAttribute ++ ['"']

def closing (name : String) : List Char :=
  "</".toList ++ name.toList ++ ['>']

def indent (depth : Nat) : List Char :=
  List.replicate (2 * depth) ' '

mutual
/-- Each element on lines of its own, two blanks further in for each level. -/
def write (depth : Nat) : Xml → List Char
  | .text name attributes content =>
    let first := indent depth ++ opening name attributes
    if content.isEmpty then first ++ " />\n".toList
    else first ++ '>' :: content.toList.flatMap escapeText ++ closing name ++ ['\n']
  | .nested name attributes content =>
    let first := indent depth ++ opening name attributes
    if content.isEmpty then first ++ " />\n".toList
    else first ++ ">\n".toList ++ writeAll (depth + 1) content ++ indent depth ++ closing name ++ ['\n']

def writeAll (depth : Nat) : List Xml → List Char
  | [] => []
  | x :: rest => write depth x ++ writeAll depth rest
end

end Xml

namespace ClassGraph

/-- The declaration of a data key. -/
def keyElement (owner : String) (declared : Nat × String) : Xml :=
  .text "key" [("id", s!"d{declared.1}"), ("for", owner), ("attr.name", declared.2),
    ("attr.type", "string")] ""

def dataElement (key : Nat) (value : String) : Xml :=
  .text "data" [("key", s!"d{key}")] value

def nodeElement (n : ClassNode) : Xml :=
  .nested "node" [("id", n.id)] [dataElement 0 n.id, dataElement 1 "Class",
    dataElement 2 n.archive, dataElement 3 n.name, dataElement 4 n.internal]

def edgeElement (e : ClassEdge) : Xml :=
  .nested "edge" [("source", e.source), ("target", e.target), ("id", e.key)]
    [dataElement 5 e.relation, dataElement 6 e.relation, dataElement 7 e.anchor,
      dataElement 8 (",".intercalate (e.lines.map toString))]

def edgeKeys : List (Nat × String) :=
  [(8, "lines"), (7, "anchor"), (6, "type"), (5, "relation")]

def nodeKeys : List (Nat × String) :=
  [(4, "internal_name"), (3, "name"), (2, "archive"), (1, "type"), (0, "id")]

/-- The graph as a GraphML file; keys are declared only for what the graph has. -/
def graphml (g : ClassGraph) : List Char :=
  let space := "http://graphml.graphdrawing.org/xmlns"
  let keys := (if g.orderedEdges.isEmpty then [] else edgeKeys.map (keyElement "edge"))
    ++ (if g.nodes.isEmpty then [] else nodeKeys.map (keyElement "node"))
  let body := g.nodes.map nodeElement ++ g.orderedEdges.map edgeElement
  let root := Xml.nested "graphml" [("xmlns", space),
    ("xmlns:xsi", "http://www.w3.org/2001/XMLSchema-instance"),
    ("xsi:schemaLocation", space ++ " " ++ space ++ "/1.0/graphml.xsd")]
    (keys ++ [.nested "graph" [("edgedefault", "directed")] body])
  "<?xml version='1.0' encoding='utf-8'?>\n".toList ++ root.write 0

end ClassGraph
end SourceLinks
