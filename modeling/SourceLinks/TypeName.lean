import SourceLinks.Text.Split

namespace SourceLinks

/-- A type as the source writes it, one segment for each identifier of its dotted name. -/
structure TypeName where
  segments : List String
deriving Repr, DecidableEq, Inhabited, BEq

namespace TypeName

def simple (t : TypeName) : String :=
  t.segments.getLastD ""

def root (t : TypeName) : String :=
  t.segments.headD ""

def isDotted (t : TypeName) : Bool :=
  1 < t.segments.length

/-- The segments joined as the name of a member class. -/
def nested (t : TypeName) : String :=
  "$".intercalate t.segments

def toString (t : TypeName) : String :=
  ".".intercalate t.segments

end TypeName
end SourceLinks
