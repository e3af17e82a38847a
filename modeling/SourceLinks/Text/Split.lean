namespace SourceLinks.Text

/-- The parts between the separators, one more than there are separators. -/
def splitAt (sep : Char) : List Char → List (List Char)
  | [] => [[]]
  | c :: rest =>
    match splitAt sep rest with
    | part :: parts => if c = sep then [] :: part :: parts else (c :: part) :: parts
    | [] => [[c]]

def joinWith (sep : List Char) (parts : List (List Char)) : List Char :=
  (parts.intersperse sep).flatten

/-- What follows the last separator, or everything if there is none. -/
def afterLast (sep : Char) (cs : List Char) : List Char :=
  (cs.reverse.takeWhile (· != sep)).reverse

/-- The text up to and with its last separator; nothing if there is none. -/
def throughLast (sep : Char) (cs : List Char) : List Char :=
  (cs.reverse.dropWhile (· != sep)).reverse

/-- The text before its last separator, or everything if there is none. -/
def beforeLast (sep : Char) (cs : List Char) : List Char :=
  if sep ∈ cs then (throughLast sep cs).dropLast else cs

/-- The text before and after the first place where `mark` stands. -/
def cutAt? (mark : List Char) : List Char → Option (List Char × List Char)
  | [] => if mark.isEmpty then some ([], []) else none
  | c :: rest =>
    if mark.isPrefixOf (c :: rest) then some ([], (c :: rest).drop mark.length)
    else (cutAt? mark rest).map fun (before, after) => (c :: before, after)

/-- The first `limit` items; a negative limit leaves out that many at the end. -/
def upTo {α : Type} (limit : Int) (xs : List α) : List α :=
  if 0 ≤ limit then xs.take limit.toNat else xs.take (xs.length - (-limit).toNat)

/-- The place in a list of `size` items that `i` names, where negative numbers count from the end. -/
def place? (size : Nat) (i : Int) : Option Nat :=
  let j := if i < 0 then i + size else i
  if 0 ≤ j ∧ j < size then some j.toNat else none

/-- Every place where `mark` stands, from left to right and without overlap, becomes `instead`. -/
def replaceFrom (mark instead : List Char) (skip : Nat) : List Char → List Char
  | [] => []
  | c :: rest =>
    if 0 < skip then replaceFrom mark instead (skip - 1) rest
    else if mark.isPrefixOf (c :: rest) then
      instead ++ replaceFrom mark instead (mark.length - 1) rest
    else c :: replaceFrom mark instead 0 rest

def replace (mark instead : List Char) (cs : List Char) : List Char :=
  if mark.isEmpty then cs else replaceFrom mark instead 0 cs

end SourceLinks.Text
