import SourceLinks.ClassFile.Basic
import SourceLinks.Text.Utf8

namespace SourceLinks.ClassFile

/-- The octets not yet read and how many were. -/
structure Cursor where
  position : Nat
  rest : List UInt8
deriving Repr, DecidableEq

abbrev Reader := StateT Cursor (Except ClassFormatError)

/-- The next `n` octets. -/
def take (n : Nat) : Reader (List UInt8) := fun c =>
  let bytes := c.rest.take n
  if bytes.length < n then .error (.truncated c.position)
  else .ok (bytes, ⟨c.position + n, c.rest.drop n⟩)

def skip (n : Nat) : Reader Unit := do
  let _ ← take n

/-- A number with its highest octet first. -/
def bigEndian (bytes : List UInt8) : Nat :=
  bytes.foldl (fun n b => n * 256 + b.toNat) 0

def number (width : Nat) : Reader Nat := do
  return bigEndian (← take width)

/-- A slot of the constant pool, as far as names need it. -/
inductive Constant where
  | text (value : String)
  | classRef (name : Nat)
  | other
deriving Repr, DecidableEq, Inhabited

/-- The payload size of a constant that holds no name. -/
def payload? : Nat → Option Nat
  | 3 | 4 | 9 | 10 | 11 | 12 | 17 | 18 => some 4
  | 5 | 6 => some 8
  | 8 | 16 | 19 | 20 => some 2
  | 15 => some 3
  | _ => none

/-- These constants take two slots. -/
def isWide (tag : Nat) : Bool :=
  tag == 5 || tag == 6

def constant (tag index : Nat) : Reader Constant := do
  if tag = 1 then
    let length ← number 2
    return .text (String.ofList (Utf8.decodeReplacing (← take length)))
  else if tag = 7 then
    return .classRef (← number 2)
  else
    match payload? tag with
    | some size =>
      skip size
      return .other
    | none => throw (.unknownTag tag index)

/-- The next `left` slots, of which the first has this index. The slot after a wide constant holds
nothing. -/
def slots : (left index : Nat) → (covered : Bool) → Reader (List Constant)
  | 0, _, _ => return []
  | left + 1, index, true => do
    return .other :: (← slots left (index + 1) false)
  | left + 1, index, false => do
    let tag ← number 1
    let c ← constant tag index
    return c :: (← slots left (index + 1) (isWide tag))

/-- The slots of a constant pool, the first of which has index one. -/
structure Pool where
  slots : List Constant
deriving Repr, DecidableEq

namespace Pool

def get? (p : Pool) : Nat → Option Constant
  | 0 => none
  | i + 1 => p.slots[i]?

def text? (p : Pool) (index : Nat) : Option String :=
  match p.get? index with
  | some (.text value) => some value
  | _ => none

def className? (p : Pool) (index : Nat) : Option String :=
  match p.get? index with
  | some (.classRef name) => p.text? name
  | _ => none

end Pool

def pool : Reader Pool := do
  let count ← number 2
  return ⟨← slots (count - 1) 1 false⟩

def text (p : Pool) (index : Nat) : Reader String :=
  match p.text? index with
  | some value => return value
  | none => throw (.badTextReference index)

/-- The class at an index; index zero stands for no class. -/
def className (p : Pool) (index : Nat) : Reader (Option String) :=
  if index = 0 then return none
  else
    match p.className? index with
    | some name => return some name
    | none => throw (.badClassReference index)

def times {α : Type} (r : Reader α) : Nat → Reader (List α)
  | 0 => return []
  | n + 1 => do
    let a ← r
    return a :: (← times r n)

def skipAttribute : Reader Unit := do
  skip 2
  skip (← number 4)

def skipAttributes : Reader Unit := do
  let _ ← times skipAttribute (← number 2)

def skipField : Reader Unit := do
  skip 6
  skipAttributes

def method (p : Pool) : Reader Method := do
  let header ← take 6
  let name ← text p (bigEndian ((header.drop 2).take 2))
  let descriptor ← text p (bigEndian (header.drop 4))
  skipAttributes
  return ⟨name, descriptor⟩

def magic : Nat := 0xCAFEBABE

def classStructure : Reader ClassStructure := do
  if (← number 4) ≠ magic then throw .badMagic
  skip 4
  let p ← pool
  skip 2
  let name ← className p (← number 2)
  let super ← className p (← number 2)
  skip (2 * (← number 2))
  let _ ← times skipField (← number 2)
  let methods ← times (method p) (← number 2)
  match name with
  | none | some "" => throw .missingName
  | some name => return ⟨name, super, methods⟩

/-- Reads a class file; what follows the class is ignored. -/
def read (bytes : List UInt8) : Except ClassFormatError ClassStructure :=
  (classStructure.run ⟨0, bytes⟩).map Prod.fst

end SourceLinks.ClassFile
