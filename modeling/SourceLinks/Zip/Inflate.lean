namespace SourceLinks.Zip

/-- Octets read bit by bit, the lowest bit of each first. -/
structure BitReader where
  bytes : ByteArray
  /-- The number of bits read. -/
  place : Nat := 0

/-- What an inflater has read and written. -/
structure Inflater where
  input : BitReader
  output : Array UInt8 := #[]

abbrev Inflate := StateT Inflater Option

namespace Inflate

def bit : Inflate Nat := do
  let s ← get
  let b ← s.input.bytes[s.input.place / 8]?
  set { s with input := { s.input with place := s.input.place + 1 } }
  return (b.toNat >>> (s.input.place % 8)) % 2

/-- A number of so many bits, the lowest first. -/
def bits : Nat → Inflate Nat
  | 0 => pure 0
  | n + 1 => do
    let low ← bit
    return low + 2 * (← bits n)

def emit (b : UInt8) : Inflate Unit :=
  modify fun s => { s with output := s.output.push b }

/-- Repeats octets from some way back; a stretch may run into what it writes. -/
def repeatBack (distance : Nat) : Nat → Inflate Unit
  | 0 => pure ()
  | n + 1 => do
    let out := (← get).output
    if out.size < distance then failure
    emit (← out[out.size - distance]?)
    repeatBack distance n

/-- A prefix code: how many words there are of each length from one on, and the symbols in the
order of their words. -/
structure Code where
  counts : List Nat
  symbols : Array Nat

def longestWord : Nat := 15

/-- The code in which symbol `i` has a word of length `lengths[i]`, or none. -/
def Code.ofLengths (lengths : List Nat) : Code :=
  let sizes := (List.range longestWord).map (· + 1)
  { counts := sizes.map fun n => (lengths.filter (· == n)).length
    symbols := (sizes.flatMap fun n =>
      lengths.zipIdx.filterMap fun (l, i) => if l == n then some i else none).toArray }

/-- Reads a word bit by bit. The words of one length are consecutive numbers from `first` on, and
`index` symbols have shorter ones. -/
def symbolFrom (symbols : Array Nat) : List Nat → (word first index : Nat) → Inflate Nat
  | [], _, _, _ => failure
  | count :: rest, word, first, index => do
    let word := word + (← bit)
    if word < first + count then symbols[index + (word - first)]?
    else symbolFrom symbols rest (word * 2) ((first + count) * 2) (index + count)

def symbol (c : Code) : Inflate Nat :=
  symbolFrom c.symbols c.counts 0 0 0

/-- The least number and the further bits of each symbol for a length. -/
def lengthTable : List (Nat × Nat) :=
  [(3, 0), (4, 0), (5, 0), (6, 0), (7, 0), (8, 0), (9, 0), (10, 0), (11, 1), (13, 1), (15, 1),
    (17, 1), (19, 2), (23, 2), (27, 2), (31, 2), (35, 3), (43, 3), (51, 3), (59, 3), (67, 4),
    (83, 4), (99, 4), (115, 4), (131, 5), (163, 5), (195, 5), (227, 5), (258, 0)]

/-- The same for distances. -/
def distanceTable : List (Nat × Nat) :=
  [(1, 0), (2, 0), (3, 0), (4, 0), (5, 1), (7, 1), (9, 2), (13, 2), (17, 3), (25, 3), (33, 4),
    (49, 4), (65, 5), (97, 5), (129, 6), (193, 6), (257, 7), (385, 7), (513, 8), (769, 8), (1025, 9),
    (1537, 9), (2049, 10), (3073, 10), (4097, 11), (6145, 11), (8193, 12), (12289, 12), (16385, 13),
    (24577, 13)]

def scaled (table : List (Nat × Nat)) (i : Nat) : Inflate Nat := do
  let (least, more) ← table[i]?
  return least + (← bits more)

/-- The symbols of a block up to the one that ends it. -/
def symbols (literals distances : Code) : (fuel : Nat) → Inflate Unit
  | 0 => failure
  | fuel + 1 => do
    let s ← symbol literals
    if s < 256 then
      emit (UInt8.ofNat s)
      symbols literals distances fuel
    else if s = 256 then pure ()
    else
      let length ← scaled lengthTable (s - 257)
      let distance ← scaled distanceTable (← symbol distances)
      repeatBack distance length
      symbols literals distances fuel

def copy : Nat → Inflate Unit
  | 0 => pure ()
  | n + 1 => do
    emit (UInt8.ofNat (← bits 8))
    copy n

/-- A block that is not compressed starts at an octet. -/
def stored : Inflate Unit := do
  modify fun s => { s with input := { s.input with place := (s.input.place + 7) / 8 * 8 } }
  let size ← bits 16
  let check ← bits 16
  if size + check ≠ 65535 then failure
  copy size

def fixedLiterals : Code :=
  .ofLengths (List.replicate 144 8 ++ List.replicate 112 9 ++ List.replicate 24 7
    ++ List.replicate 8 8)

def fixedDistances : Code :=
  .ofLengths (List.replicate 30 5)

/-- The order in which the lengths of the words for lengths are given. -/
def lengthOrder : List Nat :=
  [16, 17, 18, 0, 8, 7, 9, 6, 10, 5, 11, 4, 12, 3, 13, 2, 14, 1, 15]

/-- Lengths, the last one first, until there are enough. -/
def lengthsFrom (c : Code) (need : Nat) : (fuel : Nat) → List Nat → Inflate (List Nat)
  | 0, _ => failure
  | fuel + 1, read =>
    if need ≤ read.length then pure read
    else do
      let s ← symbol c
      if s < 16 then lengthsFrom c need fuel (s :: read)
      else if s = 16 then
        let last ← read.head?
        let n ← bits 2
        lengthsFrom c need fuel (List.replicate (3 + n) last ++ read)
      else if s = 17 then
        let n ← bits 3
        lengthsFrom c need fuel (List.replicate (3 + n) 0 ++ read)
      else
        let n ← bits 7
        lengthsFrom c need fuel (List.replicate (11 + n) 0 ++ read)

def sequence : List (Inflate Nat) → Inflate (List Nat)
  | [] => pure []
  | x :: rest => do
    let n ← x
    return n :: (← sequence rest)

/-- The two codes of a block that brings its own. -/
def codes : Inflate (Code × Code) := do
  let literals := 257 + (← bits 5)
  let distances := 1 + (← bits 5)
  let given := 4 + (← bits 4)
  let sizes ← sequence (List.replicate given (bits 3))
  let known := lengthOrder.zip sizes
  let c := Code.ofLengths ((List.range 19).map fun i => (known.lookup i).getD 0)
  let read ← lengthsFrom c (literals + distances) (literals + distances + 1) []
  let lengths := read.reverse
  return (.ofLengths (lengths.take literals), .ofLengths ((lengths.drop literals).take distances))

def blocks : (fuel : Nat) → Inflate Unit
  | 0 => failure
  | fuel + 1 => do
    let last ← bit
    let kind ← bits 2
    if kind = 0 then stored
    else if kind = 1 then symbols fixedLiterals fixedDistances (fuel + 1)
    else if kind = 2 then
      let (literals, distances) ← codes
      symbols literals distances (fuel + 1)
    else failure
    if last = 1 then pure () else blocks fuel

end Inflate

/-- The octets that deflated data stands for. Every step reads a bit, so the bits bound the steps. -/
def inflate? (bytes : ByteArray) : Option (List UInt8) :=
  ((Inflate.blocks (8 * bytes.size + 1)).run { input := { bytes } }).map fun s => s.2.output.toList

end SourceLinks.Zip
