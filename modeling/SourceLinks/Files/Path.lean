import SourceLinks.Text.Split

namespace SourceLinks

/-- A path without the components that say nothing. -/
structure Path where
  /-- The slashes it starts with: none, one, or exactly two. -/
  anchor : String := ""
  parts : List String := []
deriving Repr, DecidableEq, Inhabited

namespace Path

/-- Two leading slashes are kept; three or more are as good as one. -/
def anchorOf : List Char → String
  | '/' :: '/' :: '/' :: _ => "/"
  | '/' :: '/' :: _ => "//"
  | '/' :: _ => "/"
  | _ => ""

def ofString (s : String) : Path :=
  let parts := (Text.splitAt '/' s.toList).map String.ofList
  { anchor := anchorOf s.toList, parts := parts.filter fun p => p != "" && p != "." }

def isAbsolute (p : Path) : Bool :=
  p.anchor != ""

def toString (p : Path) : String :=
  if p.anchor = "" ∧ p.parts = [] then "." else p.anchor ++ "/".intercalate p.parts

/-- The last component. -/
def name (p : Path) : String :=
  p.parts.getLastD ""

/-- The directory of the last component; the root is its own. -/
def parent (p : Path) : Path :=
  { p with parts := p.parts.dropLast }

/-- What the second path names from inside the first. -/
def append (p q : Path) : Path :=
  if q.isAbsolute then q else { p with parts := p.parts ++ q.parts }

instance : Append Path := ⟨append⟩

def child (p : Path) (name : String) : Path :=
  p ++ ofString name

/-- Where the components lead from a place. A step up takes the last component away; the root has
none above it. `follow` says where a link leads. -/
def climb (follow : List String → List String) : (walked parts : List String) → List String
  | walked, [] => walked
  | walked, ".." :: rest => climb follow walked.dropLast rest
  | walked, part :: rest => climb follow (follow (walked ++ [part])) rest

end Path
end SourceLinks
