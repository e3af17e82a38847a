import SourceLinks.Text.Utf8
import SourceLinks.Zip.Inflate

namespace SourceLinks.Zip

/-- The number in `size` octets, the lowest first. -/
def number (bytes : ByteArray) (start : Nat) : Nat → Option Nat
  | 0 => some 0
  | size + 1 => do
    let high ← number bytes (start + 1) size
    let low ← bytes[start]?
    return low.toNat + 256 * high

/-- An entry as the list at the end of an archive describes it. -/
structure Entry where
  name : String
  method : Nat
  size : Nat
  /-- Where the entry itself starts. -/
  start : Nat

def entryMark : Nat := 0x02014B50

def endMark : Nat := 0x06054B50

def endSize : Nat := 22

def nameAt (bytes : ByteArray) (start size : Nat) : String :=
  String.ofList (Utf8.decodeReplacing (bytes.extract start (start + size)).toList)

/-- So many entries of the list. -/
def entries (bytes : ByteArray) : (count start : Nat) → Option (List Entry)
  | 0, _ => some []
  | count + 1, start => do
    if (← number bytes start 4) ≠ entryMark then none
    let method ← number bytes (start + 10) 2
    let size ← number bytes (start + 20) 4
    let nameSize ← number bytes (start + 28) 2
    let extra ← number bytes (start + 30) 2
    let comment ← number bytes (start + 32) 2
    let place ← number bytes (start + 42) 4
    let rest ← entries bytes count (start + 46 + nameSize + extra + comment)
    return ⟨nameAt bytes (start + 46) nameSize, method, size, place⟩ :: rest

/-- The last place up to here where the list's end is marked. -/
def endBefore? (bytes : ByteArray) : Nat → Option Nat
  | 0 => none
  | start + 1 =>
    if number bytes start 4 = some endMark then some start else endBefore? bytes start

def content? (bytes : ByteArray) (e : Entry) : Option (List UInt8) := do
  let nameSize ← number bytes (e.start + 26) 2
  let extra ← number bytes (e.start + 28) 2
  let start := e.start + 30 + nameSize + extra
  if bytes.size < start + e.size then none
  let packed := bytes.extract start (start + e.size)
  match e.method with
  | 0 => some packed.toList
  | 8 => inflate? packed
  | _ => none

/-- The entries of an archive in the order of its list. -/
def read? (bytes : ByteArray) : Option (List (String × List UInt8)) := do
  let tail ← endBefore? bytes (bytes.size + 1 - endSize)
  let count ← number bytes (tail + 10) 2
  let start ← number bytes (tail + 16) 4
  (← entries bytes count start).mapM fun e => (content? bytes e).map fun c => (e.name, c)

end SourceLinks.Zip
