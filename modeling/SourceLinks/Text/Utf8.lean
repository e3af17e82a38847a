namespace SourceLinks.Utf8

/-- The octets of one character. -/
def encodeChar (c : Char) : List UInt8 :=
  let n := c.toNat
  if n < 0x80 then [UInt8.ofNat n]
  else if n < 0x800 then
    [UInt8.ofNat (0xC0 + n / 64), UInt8.ofNat (0x80 + n % 64)]
  else if n < 0x10000 then
    [UInt8.ofNat (0xE0 + n / 4096), UInt8.ofNat (0x80 + n / 64 % 64), UInt8.ofNat (0x80 + n % 64)]
  else
    [UInt8.ofNat (0xF0 + n / 262144), UInt8.ofNat (0x80 + n / 4096 % 64),
      UInt8.ofNat (0x80 + n / 64 % 64), UInt8.ofNat (0x80 + n % 64)]

def encode (cs : List Char) : List UInt8 :=
  cs.flatMap encodeChar

/-- What a reader knows between two octets: nothing is open, or a character is, with the number of
octets it still needs, its value so far and the range of its next octet. -/
inductive Pending where
  | idle
  | within (need value low high : Nat)
deriving Repr, DecidableEq

/-- A character, or `none` for a part that no character starts with. -/
abbrev Decoded := Option Char

/-- What an octet means where a character may start. -/
def start (b : UInt8) : Pending × List Decoded :=
  let n := b.toNat
  if n < 0x80 then (.idle, [some (Char.ofNat n)])
  else if n < 0xC2 then (.idle, [none])
  else if n < 0xE0 then (.within 1 (n - 0xC0) 0x80 0xBF, [])
  else if n = 0xE0 then (.within 2 0 0xA0 0xBF, [])
  else if n = 0xED then (.within 2 13 0x80 0x9F, [])
  else if n < 0xF0 then (.within 2 (n - 0xE0) 0x80 0xBF, [])
  else if n = 0xF0 then (.within 3 0 0x90 0xBF, [])
  else if n < 0xF4 then (.within 3 (n - 0xF0) 0x80 0xBF, [])
  else if n = 0xF4 then (.within 3 4 0x80 0x8F, [])
  else (.idle, [none])

/-- An octet outside the expected range ends the open character as one invalid part and is then
read as a start. -/
def step : Pending → UInt8 → Pending × List Decoded
  | .idle, b => start b
  | .within need value low high, b =>
    if low ≤ b.toNat ∧ b.toNat ≤ high then
      let value := value * 64 + (b.toNat - 0x80)
      if need ≤ 1 then (.idle, [some (Char.ofNat value)])
      else (.within (need - 1) value 0x80 0xBF, [])
    else
      let (next, out) := start b
      (next, none :: out)

def decodeFrom : Pending → List UInt8 → List Decoded
  | .idle, [] => []
  | .within .., [] => [none]
  | p, b :: rest =>
    let (next, out) := step p b
    out ++ decodeFrom next rest

/-- Characters in order, with one `none` for each maximal invalid part. -/
def decode (bytes : List UInt8) : List Decoded :=
  decodeFrom .idle bytes

/-- Invalid parts are left out. -/
def decodeDropping (bytes : List UInt8) : List Char :=
  (decode bytes).filterMap id

/-- U+FFFD stands for each invalid part. -/
def decodeReplacing (bytes : List UInt8) : List Char :=
  (decode bytes).map (fun u => u.getD (Char.ofNat 0xFFFD))

end SourceLinks.Utf8
