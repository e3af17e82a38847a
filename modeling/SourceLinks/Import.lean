import SourceLinks.ClassName
import SourceLinks.Keyed
import SourceLinks.Text.Blank
import SourceLinks.Tree.Source

namespace SourceLinks

structure Import where
  /-- The imported name as written, without blanks. -/
  dotted : String
  /-- Where the name stands. -/
  node : Node
  isStatic : Bool
  isWildcard : Bool
deriving Repr, Inhabited

namespace Import

def internal (d : Import) : String :=
  String.ofList (d.dotted.toList.map fun c => if c = '.' then '/' else c)

def simple (d : Import) : String :=
  String.ofList (Text.afterLast '.' d.dotted.toList)

/-- The class that a static import takes its member from. -/
def memberOwner (d : Import) : String :=
  String.ofList (Text.beforeLast '/' d.internal.toList)

/-- The import of one class. -/
def isSingleType (d : Import) : Bool :=
  !d.isStatic && !d.isWildcard

/-- The import of one static member. -/
def isSingleMember (d : Import) : Bool :=
  d.isStatic && !d.isWildcard

def ofNode? (s : Source) (n : Node) : Option Import := do
  guard (n.kind == "import_declaration")
  let name ← n.namedChild? ["scoped_identifier", "identifier"]
  return {
    dotted := String.ofList (Text.words (s.text name).toList).flatten
    node := name
    isStatic := n.children.any fun c => c.kind == "static"
    isWildcard := n.children.any fun c => c.kind == "asterisk" }

end Import

/-- A name that an import lets stand for a class. -/
structure ImportBinding where
  simple : String
  internal : String
deriving Repr, DecidableEq, Inhabited

def ImportBinding.candidates (b : ImportBinding) : List String :=
  ClassName.nestedForms b.internal

/-- The imports of one document in source order. -/
structure ImportTable where
  declarations : List Import
deriving Repr, Inhabited

namespace ImportTable

def ofSource (s : Source) : ImportTable :=
  ⟨s.root.namedChildren.filterMap (Import.ofNode? s)⟩

/-- Only imports of one class bind a name to a class. -/
def bindings (t : ImportTable) : List ImportBinding :=
  (t.declarations.filter Import.isSingleType).map fun d => ⟨d.simple, d.internal⟩

def bindingsFor (t : ImportTable) (simple : String) : List ImportBinding :=
  t.bindings.filter fun b => b.simple == simple

/-- The classes that static imports take the member from, if there are any. -/
def ownersOf (t : ImportTable) (member : String) : List String :=
  ((t.declarations.filter Import.isSingleMember).filter fun d => d.simple == member).map
    Import.memberOwner

/-- Every statically imported member with its classes, in the order of first mention. -/
def staticMembers (t : ImportTable) : List (String × List String) :=
  let names := (t.declarations.filter Import.isSingleMember).map Import.simple
  (Keyed.ofList (names.map fun n => (n, ()))).keys.map fun n => (n, t.ownersOf n)

end ImportTable
end SourceLinks
