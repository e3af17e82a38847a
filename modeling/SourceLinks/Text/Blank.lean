namespace SourceLinks.Text

/-- The characters that separate words. -/
def isBlank (c : Char) : Bool :=
  let n := c.toNat
  (0x09 ≤ n && n ≤ 0x0D) || (0x1C ≤ n && n ≤ 0x20) || n == 0x85 || n == 0xA0 || n == 0x1680
    || (0x2000 ≤ n && n ≤ 0x200A) || n == 0x2028 || n == 0x2029 || n == 0x202F || n == 0x205F
    || n == 0x3000

/-- The characters that end a line. -/
def isLineBreak (c : Char) : Bool :=
  let n := c.toNat
  (0x0A ≤ n && n ≤ 0x0D) || (0x1C ≤ n && n ≤ 0x1E) || n == 0x85 || n == 0x2028 || n == 0x2029

def trimStart (cs : List Char) : List Char :=
  cs.dropWhile isBlank

def trimEnd (cs : List Char) : List Char :=
  (cs.reverse.dropWhile isBlank).reverse

def trim (cs : List Char) : List Char :=
  trimEnd (trimStart cs)

/-- The maximal runs of characters that are not blank; `word` is the run being read. -/
def wordsFrom (word : List Char) : List Char → List (List Char)
  | [] => if word.isEmpty then [] else [word.reverse]
  | c :: rest =>
    if isBlank c then
      if word.isEmpty then wordsFrom [] rest else word.reverse :: wordsFrom [] rest
    else wordsFrom (c :: word) rest

def words (cs : List Char) : List (List Char) :=
  wordsFrom [] cs

/-- Lines without their breaks, where a carriage return and a line feed together are one break.
`line` is the line being read and `returned` says that the last break was a carriage return. -/
def breakLinesFrom (line : List Char) (returned : Bool) : List Char → List (List Char)
  | [] => if line.isEmpty then [] else [line.reverse]
  | c :: rest =>
    if returned && c == '\n' then breakLinesFrom line false rest
    else if isLineBreak c then line.reverse :: breakLinesFrom [] (c == '\r') rest
    else breakLinesFrom (c :: line) false rest

/-- The lines of a text; a break at its end opens no further line. -/
def breakLines (cs : List Char) : List (List Char) :=
  breakLinesFrom [] false cs

/-- A carriage return becomes a line feed, together with a line feed that follows it. -/
def feedsFrom (returned : Bool) : List Char → List Char
  | [] => []
  | c :: rest =>
    if c = '\r' then '\n' :: feedsFrom true rest
    else if returned && c == '\n' then feedsFrom false rest
    else c :: feedsFrom false rest

/-- The text of a file, in which every line ends with a line feed. -/
def withFeeds (cs : List Char) : List Char :=
  feedsFrom false cs

end SourceLinks.Text
