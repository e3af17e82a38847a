import SourceLinks.Document
import SourceLinks.Tree.Node
import SourceLinks.TypeName

namespace SourceLinks

/-- A document with its tree. The tree's octets are those of the document. -/
structure Source where
  document : Document
  root : Node
  code : Array UInt8 := document.encoded.toArray
  code_eq : code = document.encoded.toArray := by rfl

/-- One octet further: a line feed starts the next row. -/
def Point.after (p : Point) (b : UInt8) : Point :=
  if b = 10 then ⟨p.row + 1, 0⟩ else ⟨p.row, p.column + 1⟩

/-- The point of an octet. Past the end of the text the last row goes on. -/
def Point.ofByte (code : Array UInt8) (b : Nat) : Point :=
  let p := (code.toList.take b).foldl Point.after ⟨0, 0⟩
  ⟨p.row, p.column + (b - code.size : Nat)⟩

namespace Source

def text (s : Source) (n : Node) : String :=
  String.ofList (Utf8.decodeDropping (s.code.extract n.start n.stop).toList)

def startPoint (s : Source) (n : Node) : Point :=
  Point.ofByte s.code n.start

def startPosition (s : Source) (n : Node) : Position :=
  s.document.charPosition (s.startPoint n)

/-- The position just past the node. -/
def stopPosition (s : Source) (n : Node) : Position :=
  s.document.charPosition (Point.ofByte s.code n.stop)

mutual
/-- The identifiers of a type's name in order, without type arguments. -/
def segments (s : Source) : Node → List String
  | ⟨kind, field, named, missing, start, stop, children⟩ =>
    if kind = "type_identifier" then [s.text ⟨kind, field, named, missing, start, stop, children⟩]
    else if kind = "generic_type" then s.firstSegments children
    else if kind = "scoped_type_identifier" then s.allSegments children
    else []

def firstSegments (s : Source) : List Node → List String
  | [] => []
  | c :: rest =>
    if c.named && (c.kind == "type_identifier" || c.kind == "scoped_type_identifier") then
      s.segments c
    else s.firstSegments rest

def allSegments (s : Source) : List Node → List String
  | [] => []
  | c :: rest =>
    if c.named && (c.kind == "type_identifier" || c.kind == "scoped_type_identifier"
        || c.kind == "generic_type") then
      s.segments c ++ s.allSegments rest
    else s.allSegments rest
end

mutual
/-- The name of a class type. Primitive types, arrays and inferred types have none. -/
def typeName? (s : Source) : Node → Option TypeName
  | ⟨kind, field, named, missing, start, stop, children⟩ =>
    if kind = "annotated_type" then s.lastTypeName? children
    else
      match s.segments ⟨kind, field, named, missing, start, stop, children⟩ with
      | [] => none
      | ["var"] => none
      | segments => some ⟨segments⟩

/-- The name of the type that annotations stand before. -/
def lastTypeName? (s : Source) : List Node → Option TypeName
  | [] => none
  | c :: rest =>
    if rest.any Node.named then s.lastTypeName? rest
    else if c.named then s.typeName? c
    else none
end

end Source
end SourceLinks
