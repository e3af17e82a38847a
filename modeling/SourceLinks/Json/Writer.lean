import SourceLinks.Json.Basic

namespace SourceLinks.Json

def escapeUnit (n : Nat) : List Char :=
  '\\' :: 'u' :: Text.hex 4 n

/-- A character inside quotes; those above U+FFFF take two escapes if only ASCII may be written. -/
def escapeChar (ascii : Bool) (c : Char) : List Char :=
  let n := c.toNat
  if c = '"' ∨ c = '\\' then ['\\', c]
  else if c = '\n' then ['\\', 'n']
  else if c = '\r' then ['\\', 'r']
  else if c = '\t' then ['\\', 't']
  else if n = 8 then ['\\', 'b']
  else if n = 12 then ['\\', 'f']
  else if n < 0x20 then escapeUnit n
  else if n < 0x7F ∨ ¬ ascii then [c]
  else if n < 0x10000 then escapeUnit n
  else escapeUnit (0xD800 + (n - 0x10000) / 0x400) ++ escapeUnit (0xDC00 + (n - 0x10000) % 0x400)

def writeString (ascii : Bool) (s : String) : List Char :=
  '"' :: s.toList.flatMap (escapeChar ascii) ++ ['"']

mutual
/-- On one line, with a blank after each comma and colon. -/
def write (ascii : Bool) : Json → List Char
  | .null => "null".toList
  | .bool b => (if b then "true" else "false").toList
  | .int n => (toString n).toList
  | .str s => writeString ascii s
  | .list items => '[' :: Text.joinWith [',', ' '] (writeAll ascii items) ++ [']']
  | .object members => '\x7b' :: Text.joinWith [',', ' '] (writeMembers ascii members) ++ ['\x7d']

def writeAll (ascii : Bool) : List Json → List (List Char)
  | [] => []
  | j :: rest => write ascii j :: writeAll ascii rest

def writeMembers (ascii : Bool) : List (String × Json) → List (List Char)
  | [] => []
  | (key, j) :: rest =>
    (writeString ascii key ++ ':' :: ' ' :: write ascii j) :: writeMembers ascii rest
end

def lineAt (depth : Nat) : List Char :=
  '\n' :: List.replicate (2 * depth) ' '

/-- Brackets around parts on lines of their own; nothing stands between those around no part. -/
def onLines (left right : Char) (depth : Nat) (parts : List (List Char)) : List Char :=
  if parts.isEmpty then [left, right]
  else
    left :: lineAt (depth + 1) ++ Text.joinWith (',' :: lineAt (depth + 1)) parts
      ++ lineAt depth ++ [right]

mutual
/-- One item or member to a line, two blanks further in for each level. -/
def writeLines (depth : Nat) : Json → List Char
  | .list items => onLines '[' ']' depth (writeLinesAll (depth + 1) items)
  | .object members => onLines '\x7b' '\x7d' depth (writeLinesMembers (depth + 1) members)
  | .null => write false .null
  | .bool b => write false (.bool b)
  | .int n => write false (.int n)
  | .str s => write false (.str s)

def writeLinesAll (depth : Nat) : List Json → List (List Char)
  | [] => []
  | j :: rest => writeLines depth j :: writeLinesAll depth rest

def writeLinesMembers (depth : Nat) : List (String × Json) → List (List Char)
  | [] => []
  | (key, j) :: rest =>
    (writeString false key ++ ':' :: ' ' :: writeLines depth j) :: writeLinesMembers depth rest
end

mutual
/-- The same value with the members of every object in the order of their keys. -/
def sorted : Json → Json
  | .list items => .list (sortedAll items)
  | .object members => .object ((sortedMembers members).mergeSort fun a b => !(b.1 < a.1))
  | .null => .null
  | .bool b => .bool b
  | .int n => .int n
  | .str s => .str s

def sortedAll : List Json → List Json
  | [] => []
  | j :: rest => sorted j :: sortedAll rest

def sortedMembers : List (String × Json) → List (String × Json)
  | [] => []
  | (key, j) :: rest => (key, sorted j) :: sortedMembers rest
end

end SourceLinks.Json
