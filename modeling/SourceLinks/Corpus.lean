import SourceLinks.Archive

namespace SourceLinks

/-- The loaded archives in load order; no two have the same id. -/
structure Corpus where
  archives : List Archive := []
deriving Repr, Inhabited

/-- An archive of this id is loaded already. -/
structure AlreadyLoaded where
  id : String
deriving Repr, DecidableEq

def AlreadyLoaded.message (e : AlreadyLoaded) : String :=
  "archive already loaded: " ++ e.id

namespace Corpus

def get? (c : Corpus) (id : String) : Option Archive :=
  c.archives.find? fun a => a.id == id

def add (c : Corpus) (a : Archive) : Except AlreadyLoaded Corpus :=
  if (c.get? a.id).isSome then .error ⟨a.id⟩ else .ok ⟨c.archives ++ [a]⟩

def ofList (archives : List Archive) : Except AlreadyLoaded Corpus :=
  archives.foldlM Corpus.add {}

/-- The preferred archive comes first if it is loaded; the others follow in load order. -/
def searchOrder (c : Corpus) (prefer : Option String) : List Archive :=
  match prefer with
  | none | some "" => c.archives
  | some id =>
    match c.get? id with
    | none => c.archives
    | some first => first :: c.archives.filter fun a => a.id != id

/-- The id of the first archive that holds a class. -/
def lookup? (c : Corpus) (name : String) (prefer : Option String) : Option String :=
  ((c.searchOrder prefer).find? fun a => a.hasClass name).map Archive.id

/-- The first archive that holds a class, and the class's octets. -/
def find? (c : Corpus) (name : String) (prefer : Option String) : Option (String × List UInt8) :=
  (c.searchOrder prefer).findSome? fun a => (a.classBytes? name).map fun bytes => (a.id, bytes)

/-- Puts an archive in the place of the one with its id. -/
def replace (c : Corpus) (a : Archive) : Corpus :=
  ⟨c.archives.map fun b => if b.id == a.id then a else b⟩

/-- The structure of a class in one archive; none if the archive is not loaded. -/
def structureOf (c : Corpus) (id name : String) :
    Except ReaderCrash (Option ClassStructure) × Corpus × List LogLine :=
  match c.get? id with
  | none => (.ok none, c, [])
  | some a =>
    let (answer, a, lines) := a.structureOf name
    (answer, c.replace a, lines)

end Corpus
end SourceLinks
