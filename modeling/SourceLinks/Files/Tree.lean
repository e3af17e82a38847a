import SourceLinks.Files.Path
import SourceLinks.Text.Utf8

namespace SourceLinks

/-- What stands at a path. -/
inductive FileEntry where
  | directory
  | file (bytes : List UInt8)
  /-- A file that is an archive of these entries. -/
  | jar (entries : List (String × List UInt8))
deriving Repr, DecidableEq, Inhabited

def FileEntry.isDirectory : FileEntry → Bool
  | .directory => true
  | _ => false

/-- Why a path cannot be used. -/
inductive FileError where
  | absent
  | notDirectory
  | directory
  | taken
  | tooLong
  | embeddedNull
deriving Repr, DecidableEq, Inhabited

def FileError.message : FileError → String
  | .absent => "No such file or directory"
  | .notDirectory => "Not a directory"
  | .directory => "Is a directory"
  | .taken => "File exists"
  | .tooLong => "File name too long"
  | .embeddedNull => "embedded null byte"

/-- The files that a run can see, by their components from the root. A directory need not be listed
if something stands in it. -/
structure FileTree where
  entries : List (List String × FileEntry) := []
  /-- The current directory. -/
  here : List String := []
  /-- The home directories of the users. The current user has no name here. -/
  homes : List (String × String) := []
deriving Repr, DecidableEq, Inhabited

namespace FileTree

/-- The longest component and the first length of a whole path that are refused, in octets. -/
def longestName : Nat := 255

def pathLimit : Nat := 4096

def octets (s : String) : Nat :=
  (Utf8.encode s.toList).length

/-- The system's own name for the current directory. It is a link that leads there. -/
def currentLink : List String := ["proc", "self", "cwd"]

/-- Where a place leads that is reached: a link to what it links to, any other place to itself. -/
def follow (t : FileTree) (place : List String) : List String :=
  if place = currentLink then t.here else place

def entry? (t : FileTree) (place : List String) : Option FileEntry :=
  match t.entries.lookup place with
  | some e => some e
  | none =>
    if place.isPrefixOf t.here ∨ place.isPrefixOf currentLink
        ∨ t.entries.any fun e => place.isPrefixOf e.1 then
      some .directory
    else none

/-- The place of a component in a directory that was reached. -/
def step (t : FileTree) (place : List String) (part : String) : Except FileError (List String) :=
  match t.entry? place with
  | none => .error .absent
  | some .directory =>
    if part = ".." then .ok place.dropLast
    else if longestName < octets part then .error .tooLong
    else .ok (t.follow (place ++ [part]))
  | some _ => .error .notDirectory

/-- Where a path leads; nothing has to stand there, but all that leads to it has to be there. -/
def place (t : FileTree) (p : Path) : Except FileError (List String) :=
  if p.parts.any fun part => '\x00' ∈ part.toList then .error .embeddedNull
  else if pathLimit ≤ octets p.toString then .error .tooLong
  else p.parts.foldlM t.step (if p.isAbsolute then [] else t.here)

/-- What stands at a path. -/
def find (t : FileTree) (p : Path) : Except FileError FileEntry := do
  let place ← t.place p
  match t.entry? place with
  | some e => .ok e
  | none => .error .absent

/-- Whether what stands at a path passes a test. A path that is too long has no answer. -/
def test (t : FileTree) (p : Path) (f : FileEntry → Bool) : Except FileError Bool :=
  match t.find p with
  | .ok e => .ok (f e)
  | .error .tooLong => .error .tooLong
  | .error _ => .ok false

def isDirectory (t : FileTree) (p : Path) : Except FileError Bool :=
  t.test p FileEntry.isDirectory

def isFile (t : FileTree) (p : Path) : Except FileError Bool :=
  t.test p fun e => !e.isDirectory

/-- The octets of a file. Those of an archive are not kept. -/
def read (t : FileTree) (p : Path) : Except FileError (List UInt8) := do
  match ← t.find p with
  | .directory => .error .directory
  | .file bytes => .ok bytes
  | .jar _ => .ok []

def put (t : FileTree) (place : List String) (e : FileEntry) : FileTree :=
  { t with entries := t.entries.filter (fun f => f.1 != place) ++ [(place, e)] }

/-- Gives a file its content, which may depend on what it was. -/
def update (t : FileTree) (p : Path) (f : List UInt8 → List UInt8) : Except FileError FileTree := do
  let place ← t.place p
  match t.entry? place with
  | some .directory => .error .directory
  | some (.file bytes) => .ok (t.put place (.file (f bytes)))
  | some (.jar _) => .ok (t.put place (.file (f [])))
  | none => .ok (t.put place (.file (f [])))

def write (t : FileTree) (p : Path) (bytes : List UInt8) : Except FileError FileTree :=
  t.update p fun _ => bytes

def append (t : FileTree) (p : Path) (bytes : List UInt8) : Except FileError FileTree :=
  t.update p fun old => old ++ bytes

/-- A new directory in one that is there. -/
def makeDirectory (t : FileTree) (p : Path) : Except FileError FileTree := do
  let place ← t.place p
  match t.entry? place with
  | some _ => .error .taken
  | none => .ok (t.put place .directory)

/-- A directory that is there is as good as a new one. -/
def unlessThere (t : FileTree) (p : Path) : Except FileError FileTree → Except FileError FileTree
  | .ok new => .ok new
  | .error e =>
    match t.isDirectory p with
    | .ok true => .ok t
    | _ => .error e

/-- A directory with all that leads to it; the components are given from the last to the first. -/
def makePath (anchor : String) : (parts : List String) → FileTree → Except FileError FileTree
  | [], t => t.unlessThere ⟨anchor, []⟩ (t.makeDirectory ⟨anchor, []⟩)
  | part :: above, t => do
    let p : Path := ⟨anchor, (part :: above).reverse⟩
    match t.makeDirectory p with
    | .error .absent =>
      let t ← makePath anchor above t
      t.unlessThere p (t.makeDirectory p)
    | made => t.unlessThere p made

def makeDirectories (t : FileTree) (p : Path) : Except FileError FileTree :=
  makePath p.anchor p.parts.reverse t

/-- A path from the root, with every step up taken and every link followed. -/
def resolve (t : FileTree) (p : Path) : Path :=
  ⟨"/", Path.climb t.follow (if p.isAbsolute then [] else t.here) p.parts⟩

/-- The files below a place, named from there. -/
def filesBelow (t : FileTree) (place : List String) : List (String × List UInt8) :=
  t.entries.filterMap fun (found, e) =>
    if place.isPrefixOf found then
      let name := "/".intercalate (found.drop place.length)
      match e with
      | .directory => none
      | .file bytes => some (name, bytes)
      | .jar _ => some (name, [])
    else none

end FileTree
end SourceLinks
