import SourceLinks.Text.Split

namespace SourceLinks.ClassName

/-- The name under which an archive holds a class. -/
def entry (name : String) : String :=
  name ++ ".class"

/-- The class at the root of every chain of superclasses. -/
def object : String := "java/lang/Object"

def string : String := "java/lang/String"

/-- The package whose classes need no import. -/
def language : String := "java/lang/"

/-- The parts of a name with the last `members` separators written as those of member classes. -/
def reading (parts : List (List Char)) (members : Nat) : List Char :=
  let outer := parts.length - members
  if members = 0 then Text.joinWith ['/'] parts
  else Text.joinWith ['/'] (parts.take outer) ++ '$' :: Text.joinWith ['$'] (parts.drop outer)

/-- A name followed by its readings in which ever more trailing segments are member classes. -/
def nestedForms (name : String) : List String :=
  let parts := Text.splitAt '/' name.toList
  (List.range parts.length).map fun members => String.ofList (reading parts members)

def simple (name : String) : String :=
  String.ofList (Text.afterLast '/' name.toList)

end SourceLinks.ClassName
