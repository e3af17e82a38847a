import SourceLinks.ClassFile.Reader
import SourceLinks.ClassName
import SourceLinks.Keyed
import SourceLinks.Log

namespace SourceLinks

/-- The class reader failed in a way it does not report. -/
structure ReaderCrash where
deriving Repr, DecidableEq, Inhabited

def ReaderCrash.message (_ : ReaderCrash) : String := "reader crashed"

/-- How an archive turns octets into a class structure. -/
inductive ClassReader where
  | standard
  | crashing
deriving Repr, DecidableEq, Inhabited

/-- What comes of reading the class of a name. -/
inductive Reading where
  | absent
  | unreadable (why : ClassFormatError)
  | readable (s : ClassStructure)
deriving Repr, DecidableEq, Inhabited

def Reading.structure? : Reading → Option ClassStructure
  | .readable s => some s
  | _ => none

/-- A jar or class directory. Structures once asked for are kept, also those that are not there. -/
structure Archive where
  id : String
  entries : Keyed (List UInt8) := {}
  reader : ClassReader := .standard
  structures : Keyed (Option ClassStructure) := {}
deriving Repr, Inhabited

namespace Archive

def add (a : Archive) (entry : String) (bytes : List UInt8) : Archive :=
  { a with entries := a.entries.set entry bytes }

def entryNames (a : Archive) : List String :=
  a.entries.keys

def classBytes? (a : Archive) (name : String) : Option (List UInt8) :=
  a.entries.get? (ClassName.entry name)

def hasClass (a : Archive) (name : String) : Bool :=
  (a.classBytes? name).isSome

def describe (a : Archive) : String :=
  "Archive(" ++ Text.quoted a.id ++ s!", entries={a.entries.size})"

/-- Reads a class from the octets that the archive holds now. -/
def readClass (a : Archive) (name : String) : Except ReaderCrash Reading :=
  match a.classBytes? name with
  | none => .ok .absent
  | some bytes =>
    match a.reader with
    | .crashing => .error ⟨⟩
    | .standard =>
      match ClassFile.read bytes with
      | .ok s => .ok (.readable s)
      | .error why => .ok (.unreadable why)

def unreadableLine (a : Archive) (name : String) : Reading → List LogLine
  | .unreadable why => [⟨"corpus", s!"cannot read {name} in {a.id}: {why.message}"⟩]
  | _ => []

/-- The structure of a class, read the first time it is asked for. A crash is not kept. -/
def structureOf (a : Archive) (name : String) :
    Except ReaderCrash (Option ClassStructure) × Archive × List LogLine :=
  match a.structures.get? name with
  | some kept => (.ok kept, a, [])
  | none =>
    match a.readClass name with
    | .error crash => (.error crash, a, [])
    | .ok reading =>
      let s := reading.structure?
      (.ok s, { a with structures := a.structures.set name s }, a.unreadableLine name reading)

/-- The archive of a jar's entries in order; those of directories end in a slash. -/
def ofJar (id : String) (entries : List (String × List UInt8)) : Archive :=
  { id, entries := Keyed.ofList (entries.filter fun e => e.1.toList.getLast? != some '/') }

end Archive
end SourceLinks
