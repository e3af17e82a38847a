namespace SourceLinks.CommandLine

/-- Why a line has no words. -/
inductive WordError where
  | openQuote
  | loneBackslash
deriving Repr, DecidableEq, Inhabited

def WordError.message : WordError → String
  | .openQuote => "No closing quotation"
  | .loneBackslash => "No escaped character"

/-- Where in a word a reader is. -/
inductive WordState where
  | between
  | within
  | quoted (quote : Char)
  /-- After a backslash outside quotes. -/
  | escaped
  /-- After a backslash in double quotes. -/
  | quotedEscape
deriving Repr, DecidableEq, Inhabited

def isSeparator (c : Char) : Bool :=
  c == ' ' || c == '\t' || c == '\r' || c == '\n'

def isQuote (c : Char) : Bool :=
  c == '\x27' || c == '"'

/-- What a character outside quotes begins. -/
def WordState.after (c : Char) : WordState :=
  if isQuote c then .quoted c else if c = '\\' then .escaped else .within

/-- The characters that a character adds to a word when nothing is open. -/
def plain (c : Char) : List Char :=
  if isQuote c || c == '\\' then [] else [c]

/-- Words from a state on; `word` holds the characters of the open word, the last one first. -/
def wordsFrom (word : List Char) : WordState → List Char → Except WordError (List (List Char))
  | .between, [] => .ok []
  | .within, [] => .ok [word.reverse]
  | .quoted _, [] => .error .openQuote
  | .escaped, [] | .quotedEscape, [] => .error .loneBackslash
  | .between, c :: rest =>
    if isSeparator c then wordsFrom [] .between rest else wordsFrom (plain c) (.after c) rest
  | .within, c :: rest =>
    if isSeparator c then (wordsFrom [] .between rest).map (word.reverse :: ·)
    else wordsFrom (plain c ++ word) (.after c) rest
  | .quoted q, c :: rest =>
    if c = q then wordsFrom word .within rest
    else if c = '\\' ∧ q = '"' then wordsFrom word .quotedEscape rest
    else wordsFrom (c :: word) (.quoted q) rest
  | .escaped, c :: rest => wordsFrom (c :: word) .within rest
  | .quotedEscape, c :: rest =>
    if c = '\\' ∨ c = '"' then wordsFrom (c :: word) (.quoted '"') rest
    else wordsFrom (c :: '\\' :: word) (.quoted '"') rest

/-- The words of a command line. Quotes and backslashes keep separators in a word, and between
double quotes a backslash keeps only another one or a double quote. -/
def words (line : String) : Except WordError (List String) :=
  (wordsFrom [] .between line.toList).map fun ws => ws.map String.ofList

end SourceLinks.CommandLine
