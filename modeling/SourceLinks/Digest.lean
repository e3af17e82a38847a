import SourceLinks.Json.Writer
import SourceLinks.Text.Utf8

namespace SourceLinks.Digest

/-- The five words of a running digest. -/
structure Words where
  a : UInt32
  b : UInt32
  c : UInt32
  d : UInt32
  e : UInt32
deriving Repr, DecidableEq

def Words.init : Words :=
  ⟨0x67452301, 0xEFCDAB89, 0x98BADCFE, 0x10325476, 0xC3D2E1F0⟩

def Words.add (x y : Words) : Words :=
  ⟨x.a + y.a, x.b + y.b, x.c + y.c, x.d + y.d, x.e + y.e⟩

def rotate (x : UInt32) (n : UInt32) : UInt32 :=
  (x <<< n) ||| (x >>> (32 - n))

/-- The octets followed by a one bit, zero bits, and the length in bits as the last eight octets of
a block. -/
def padded (bytes : List UInt8) : List UInt8 :=
  let zeros := (119 - bytes.length % 64) % 64
  let bits := 8 * bytes.length
  let length := (List.range 8).map fun i => UInt8.ofNat (bits >>> (8 * (7 - i)))
  bytes ++ 0x80 :: List.replicate zeros 0 ++ length

def words : List UInt8 → List UInt32
  | a :: b :: c :: d :: rest =>
    (a.toUInt32 <<< 24 ||| b.toUInt32 <<< 16 ||| c.toUInt32 <<< 8 ||| d.toUInt32) :: words rest
  | _ => []

/-- Appends `n` words, each made of four earlier ones. -/
def schedule : (n : Nat) → Array UInt32 → Array UInt32
  | 0, w => w
  | n + 1, w =>
    let earlier := fun back => w.getD (w.size - back) 0
    schedule n (w.push (rotate (earlier 3 ^^^ earlier 8 ^^^ earlier 14 ^^^ earlier 16) 1))

def round (s : Words) (t : Nat) (w : UInt32) : Words :=
  let (f, k) :=
    if t < 20 then ((s.b &&& s.c) ||| (~~~s.b &&& s.d), 0x5A827999)
    else if t < 40 then (s.b ^^^ s.c ^^^ s.d, 0x6ED9EBA1)
    else if t < 60 then ((s.b &&& s.c) ||| (s.b &&& s.d) ||| (s.c &&& s.d), 0x8F1BBCDC)
    else (s.b ^^^ s.c ^^^ s.d, 0xCA62C1D6)
  ⟨rotate s.a 5 + f + s.e + k + w, s.a, rotate s.b 30, s.c, s.d⟩

def block (s : Words) (ws : List UInt32) : Words :=
  let w := schedule 64 ws.toArray
  s.add (w.toList.zipIdx.foldl (fun s x => round s x.2 x.1) s)

/-- The words of a message, sixteen at a time; `n` bounds the number of blocks. -/
def blocks : (n : Nat) → Words → List UInt32 → Words
  | 0, s, _ => s
  | n + 1, s, ws => if ws.isEmpty then s else blocks n (block s (ws.take 16)) (ws.drop 16)

/-- The SHA-1 digest in hexadecimal. -/
def sha1 (bytes : List UInt8) : List Char :=
  let ws := words (padded bytes)
  let s := blocks ws.length .init ws
  [s.a, s.b, s.c, s.d, s.e].flatMap fun w => Text.hex 8 w.toNat

/-- The digest of the first `limit` characters of a text. -/
def ofText (limit : Int) (text : List Char) : String :=
  let cut := if limit < text.length then Text.upTo limit text else text
  String.ofList (sha1 (Utf8.encode cut))

/-- The digest of a value's written form with sorted keys; the null value has an empty one. -/
def ofJson (limit : Int) : Json → String
  | .null => ""
  | j => ofText limit (j.sorted.write false)

def defaultLimit : Int := 20000

end SourceLinks.Digest
