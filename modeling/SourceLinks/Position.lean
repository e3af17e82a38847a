namespace SourceLinks

/-- A place in a text; lines and columns count from one. -/
structure Position where
  line : Int
  column : Int
deriving Repr, DecidableEq, Inhabited

/-- A position that the text does not have. -/
inductive OutOfRange where
  | noLine (line count : Int)
  | noColumn (column last line : Int)
deriving Repr, DecidableEq, Inhabited

def OutOfRange.message : OutOfRange → String
  | .noLine line count => s!"line {line} outside 1..{count}"
  | .noColumn column last line => s!"column {column} outside 1..{last} on line {line}"

/-- The lengths of a text's lines, which fix where each line starts. -/
structure OffsetIndex where
  lineLengths : List Int
deriving Repr, DecidableEq, Inhabited

namespace OffsetIndex

def lineCount (ix : OffsetIndex) : Nat :=
  ix.lineLengths.length

/-- Each line starts one past the break that ends the line before it. -/
def startsFrom (start : Int) : List Int → List Int
  | [] => []
  | n :: rest => start :: startsFrom (start + n + 1) rest

def lineStarts (ix : OffsetIndex) : List Int :=
  startsFrom 0 ix.lineLengths

/-- The offset of a position; a column may stand one past the end of its line. -/
def offset (ix : OffsetIndex) (p : Position) : Except OutOfRange Int :=
  if p.line < 1 ∨ ix.lineCount < p.line then .error (.noLine p.line ix.lineCount)
  else
    match ix.lineLengths[(p.line - 1).toNat]?, ix.lineStarts[(p.line - 1).toNat]? with
    | some length, some start =>
      if p.column < 1 ∨ length + 1 < p.column then .error (.noColumn p.column (length + 1) p.line)
      else .ok (start + (p.column - 1))
    | _, _ => .error (.noLine p.line ix.lineCount)

def span (ix : OffsetIndex) (start stop : Position) : Except OutOfRange (Int × Int) := do
  let first ← ix.offset start
  let last ← ix.offset stop
  return (first, last)

end OffsetIndex
end SourceLinks
