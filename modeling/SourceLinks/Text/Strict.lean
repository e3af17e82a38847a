import SourceLinks.Text.Hex
import SourceLinks.Text.Utf8

namespace SourceLinks.Utf8

/-- Why octets are no text: the first part that no character starts with, and where it starts. -/
structure DecodeError where
  start : Nat
  part : List UInt8
  reason : String
deriving Repr, DecidableEq, Inhabited

def DecodeError.message (e : DecodeError) : String :=
  let place :=
    match e.part with
    | [b] => "byte 0x" ++ String.ofList (Text.hex 2 b.toNat) ++ s!" in position {e.start}"
    | _ => s!"bytes in position {e.start}-{e.start + e.part.length - 1}"
  "'utf-8' codec can't decode " ++ place ++ ": " ++ e.reason

/-- `count` octets have been read; the last of them, from the last to the first, are those of the
character that is open. -/
def strictFrom (count : Nat) (part : List UInt8) :
    Pending → List UInt8 → Except DecodeError (List Char)
  | .idle, [] => .ok []
  | .within .., [] => .error ⟨count - part.length, part.reverse, "unexpected end of data"⟩
  | .idle, b :: rest =>
    match start b with
    | (.idle, [some c]) => (strictFrom (count + 1) [] .idle rest).map (c :: ·)
    | (.idle, _) => .error ⟨count, [b], "invalid start byte"⟩
    | (next, _) => strictFrom (count + 1) [b] next rest
  | .within need value low high, b :: rest =>
    match step (.within need value low high) b with
    | (.idle, [some c]) => (strictFrom (count + 1) [] .idle rest).map (c :: ·)
    | (next, []) => strictFrom (count + 1) (b :: part) next rest
    | _ => .error ⟨count - part.length, part.reverse, "invalid continuation byte"⟩

/-- The characters of octets that have no invalid part. -/
def decodeStrict (bytes : List UInt8) : Except DecodeError (List Char) :=
  strictFrom 0 [] .idle bytes

end SourceLinks.Utf8
