import SourceLinks.Position
import SourceLinks.Text.Blank
import SourceLinks.Text.Raw
import SourceLinks.Text.Split
import SourceLinks.Text.Utf8

namespace SourceLinks

/-- A row and a column counted in octets, both from zero. -/
structure Point where
  row : Int
  column : Int
deriving Repr, DecidableEq, Inhabited

/-- The source text of one class as a reader sees it. -/
structure Document where
  text : List Char
  /-- The internal name of the class. -/
  owner : String
  archive : String
deriving Repr, DecidableEq, Inhabited

/-- The first `limit` characters of the text's words, with an ellipsis for what is left out. -/
def excerpt (text : List Char) (limit : Int) : List Char :=
  let t := Text.joinWith [' '] (Text.words text)
  if limit < t.length then Text.upTo limit t ++ "...".toList else t

namespace Document

def ofRaw (raw : RawText) (owner archive : String) : Document :=
  ⟨raw.normalize, owner, archive⟩

def lines (d : Document) : List (List Char) :=
  Text.splitAt '\n' d.text

def lineLengths (d : Document) : List Nat :=
  d.lines.map List.length

def offsetIndex (d : Document) : OffsetIndex :=
  ⟨d.lineLengths.map Int.ofNat⟩

/-- The package of the owner with a slash at its end, or nothing. -/
def package (d : Document) : String :=
  String.ofList (Text.throughLast '/' d.owner.toList)

def ownerSimpleName (d : Document) : String :=
  String.ofList (Text.afterLast '/' d.owner.toList)

def encoded (d : Document) : List UInt8 :=
  Utf8.encode d.text

def isAscii (cs : List Char) : Bool :=
  cs.all fun c => c.toNat < 0x80

/-- The character column of an octet column: a character is counted once its last octet is passed.
Rows outside the text keep their column, for the offset index to refuse. -/
def charPosition (d : Document) (p : Point) : Position :=
  if p.row < 0 then ⟨p.row + 1, p.column + 1⟩
  else
    match d.lines[p.row.toNat]? with
    | none => ⟨p.row + 1, p.column + 1⟩
    | some line =>
      if isAscii line then ⟨p.row + 1, p.column + 1⟩
      else
        let before := Text.upTo p.column (Utf8.encode line)
        ⟨p.row + 1, (Utf8.decodeDropping before).length + 1⟩

def diagnosticHeader : String :=
  "Error: could not parse this file. Hyperlinks will not be inserted."

/-- A line of the diagnostic comment; what would close the comment is broken up. -/
def diagnosticLine (detail : String) : List Char :=
  " * ".toList ++ Text.replace ['*', '/'] ['*', ' ', '/'] detail.toList

/-- The comment that lists what is wrong with a text, on lines of its own below it. -/
def diagnosticBlock (details : List String) : List Char :=
  let lines := [[], "/*".toList, " * ".toList ++ diagnosticHeader.toList]
    ++ details.map diagnosticLine ++ [" */".toList]
  '\n' :: Text.joinWith ['\n'] lines ++ ['\n']

/-- The text followed by a comment that lists what is wrong with it. -/
def withDiagnostic (d : Document) (details : List String) : List Char :=
  d.text ++ diagnosticBlock details

end Document
end SourceLinks
