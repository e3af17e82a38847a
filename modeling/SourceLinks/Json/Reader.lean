import SourceLinks.Json.Basic

namespace SourceLinks.Json

def skipBlanks (cs : List Char) : List Char :=
  cs.dropWhile fun c => c == ' ' || c == '\n' || c == '\r' || c == '\t'

def unit? (a b c d : Char) : Option Nat :=
  [a, b, c, d].foldlM (fun n c => (Text.hexValue? c).map (n * 16 + ·)) 0

/-- The character after a backslash. -/
def unescape : Char → Char
  | 'n' => '\n'
  | 'r' => '\r'
  | 't' => '\t'
  | 'b' => Char.ofNat 8
  | 'f' => Char.ofNat 12
  | c => c

/-- Half a pair that stands alone reads as U+FFFD. -/
def closeHalf (half : Option Nat) (out : List Char) : List Char :=
  if half.isSome then Char.ofNat 0xFFFD :: out else out

/-- The rest of a string. `out` holds what was read, the last character first, and `half` the first
half of a pair whose second may follow. -/
def stringFrom (half : Option Nat) (out : List Char) : List Char → Option (String × List Char)
  | [] => none
  | '"' :: rest => some (String.ofList (closeHalf half out).reverse, rest)
  | '\\' :: 'u' :: a :: b :: c :: d :: rest =>
    match unit? a b c d with
    | none => none
    | some n =>
      if 0xD800 ≤ n ∧ n < 0xDC00 then stringFrom (some n) (closeHalf half out) rest
      else if 0xDC00 ≤ n ∧ n < 0xE000 then
        match half with
        | some high =>
          let pair := 0x10000 + (high - 0xD800) * 0x400 + (n - 0xDC00)
          stringFrom none (Char.ofNat pair :: out) rest
        | none => stringFrom none (Char.ofNat 0xFFFD :: out) rest
      else stringFrom none (Char.ofNat n :: closeHalf half out) rest
  | '\\' :: c :: rest => stringFrom none (unescape c :: closeHalf half out) rest
  | c :: rest => stringFrom none (c :: closeHalf half out) rest

def digits (cs : List Char) : Option (Nat × List Char) :=
  match cs.takeWhile Char.isDigit with
  | [] => none
  | ds => some (ds.foldl (fun n c => n * 10 + (c.toNat - 48)) 0, cs.dropWhile Char.isDigit)

mutual
/-- The first value of a text; each level of nesting and each item takes one unit of fuel. -/
def valueFrom : (fuel : Nat) → List Char → Option (Json × List Char)
  | 0, _ => none
  | fuel + 1, cs =>
    match skipBlanks cs with
    | 'n' :: 'u' :: 'l' :: 'l' :: rest => some (.null, rest)
    | 't' :: 'r' :: 'u' :: 'e' :: rest => some (.bool true, rest)
    | 'f' :: 'a' :: 'l' :: 's' :: 'e' :: rest => some (.bool false, rest)
    | '"' :: rest => (stringFrom none [] rest).map fun (s, rest) => (.str s, rest)
    | '-' :: rest => (digits rest).map fun (n, rest) => (.int (-n), rest)
    | '[' :: rest =>
      match skipBlanks rest with
      | ']' :: rest => some (.list [], rest)
      | rest => (itemsFrom fuel [] rest).map fun (items, rest) => (.list items, rest)
    | '\x7b' :: rest =>
      match skipBlanks rest with
      | '\x7d' :: rest => some (.object [], rest)
      | rest =>
        (membersFrom fuel [] rest).map fun (members, rest) =>
          (.object (Keyed.ofList members).entries, rest)
    | rest => (digits rest).map fun (n, rest) => (.int n, rest)

def itemsFrom : (fuel : Nat) → (out : List Json) → List Char → Option (List Json × List Char)
  | 0, _, _ => none
  | fuel + 1, out, cs => do
    let (j, rest) ← valueFrom fuel cs
    match skipBlanks rest with
    | ',' :: rest => itemsFrom fuel (j :: out) rest
    | ']' :: rest => some ((j :: out).reverse, rest)
    | _ => none

def membersFrom : (fuel : Nat) → (out : List (String × Json)) → List Char →
    Option (List (String × Json) × List Char)
  | 0, _, _ => none
  | fuel + 1, out, cs =>
    match skipBlanks cs with
    | '"' :: rest => do
      let (key, rest) ← stringFrom none [] rest
      match skipBlanks rest with
      | ':' :: rest =>
        let (j, rest) ← valueFrom fuel rest
        match skipBlanks rest with
        | ',' :: rest => membersFrom fuel ((key, j) :: out) rest
        | '\x7d' :: rest => some (((key, j) :: out).reverse, rest)
        | _ => none
      | _ => none
    | _ => none
end

/-- The value that a text holds and nothing else. -/
def read? (text : String) : Option Json := do
  let cs := text.toList
  let (j, rest) ← valueFrom (cs.length + 1) cs
  guard (skipBlanks rest).isEmpty
  return j

end SourceLinks.Json
