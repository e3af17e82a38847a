import SourceLinks.Java.Token
import SourceLinks.Tree.Node

namespace SourceLinks.Java

/-- The tokens still to be read, and where the last one read ended. -/
structure Cursor where
  tokens : List Token
  last : Nat

/-- A parser that fails leaves the cursor where it was for its alternative. -/
abbrev TokenParser := StateT Cursor Option

/-- The parts of the grammar that refer to each other. -/
inductive Goal where
  | type
  | marker
  | elementValue
  | expression
  | operand
  | initialValue
  | block
  | statement
  | classBody
  | typeDeclaration
deriving Repr, DecidableEq

/-- How each goal is parsed. -/
abbrev Grammar := Goal → TokenParser Node

def reserved : List String :=
  ["abstract", "assert", "boolean", "break", "byte", "case", "catch", "char", "class", "continue",
    "default", "do", "double", "else", "enum", "extends", "final", "finally", "float", "for", "if",
    "implements", "import", "instanceof", "int", "interface", "long", "native", "new", "package",
    "private", "protected", "public", "return", "short", "static", "strictfp", "super", "switch",
    "synchronized", "this", "throw", "throws", "transient", "try", "void", "volatile", "while",
    "true", "false", "null"]

def Token.isWord (t : Token) (text : String) : Bool :=
  t.kind == .word && t.text == text

def Token.isSymbol (t : Token) (text : String) : Bool :=
  t.kind == .symbol && t.text == text

def Token.isName (t : Token) : Bool :=
  t.kind == .word && !reserved.contains t.text

namespace TokenParser
variable {α : Type}

def tokens : TokenParser (List Token) := do
  return (← get).tokens

def fail : TokenParser α := fun _ => none

def next : TokenParser Token := do
  match (← get).tokens with
  | [] => fail
  | t :: rest =>
    set (⟨rest, t.stop⟩ : Cursor)
    return t

/-- The token `n` places ahead satisfies the test. -/
def ahead (n : Nat) (test : Token → Bool) : TokenParser Bool := do
  return ((← tokens)[n]?).any test

def atSymbol (text : String) : TokenParser Bool :=
  ahead 0 fun t => t.isSymbol text

def atWord (text : String) : TokenParser Bool :=
  ahead 0 fun t => t.isWord text

def require (b : Bool) : TokenParser Unit :=
  if b then return () else fail

def accept (test : Token → Bool) : TokenParser Token := do
  let t ← next
  require (test t)
  return t

def symbol (text : String) : TokenParser Unit := do
  let _ ← accept fun t => t.isSymbol text

def word (text : String) : TokenParser Unit := do
  let _ ← accept fun t => t.isWord text

def maybe (p : TokenParser α) : TokenParser (Option α) :=
  (do return some (← p)) <|> return none

def many (p : TokenParser α) : TokenParser (List α) := do
  upTo (← tokens).length
where
  upTo : Nat → TokenParser (List α)
    | 0 => return []
    | n + 1 => do
      match ← maybe p with
      | none => return []
      | some a => return a :: (← upTo n)

def many1 (p : TokenParser α) : TokenParser (List α) := do
  let a ← p
  return a :: (← many p)

/-- One or more, with a separator between them. -/
def sepBy1 (p : TokenParser α) (sep : String) : TokenParser (List α) := do
  let a ← p
  return a :: (← many (do symbol sep; p))

def sepBy (p : TokenParser α) (sep : String) : TokenParser (List α) :=
  sepBy1 p sep <|> return []

/-- A node of one token. -/
def leaf (kind : String) (t : Token) (named : Bool) : Node :=
  ⟨kind, "", named, false, t.start, t.stop, []⟩

/-- A node over the tokens that its children are read from. -/
def node (kind : String) (children : TokenParser (List Node)) : TokenParser Node := do
  match (← tokens) with
  | [] => fail
  | t :: _ =>
    let cs ← children
    return ⟨kind, "", true, false, t.start, (← get).last, cs⟩

/-- A node that starts with a node already read. -/
def extend (kind : String) (first : Node) (more : TokenParser (List Node)) : TokenParser Node := do
  let cs ← more
  return ⟨kind, "", true, false, first.start, (← get).last, first :: cs⟩

end TokenParser

/-- The node in a role of its parent. -/
def as (field : String) (n : Node) : Node :=
  { n with field }

def asAll (field : String) (ns : List Node) : List Node :=
  ns.map (as field)

def asOption (field : String) (n : Option Node) : List Node :=
  (n.map (as field)).toList

open TokenParser

def nameAs (kind : String) : TokenParser Node := do
  return leaf kind (← accept Token.isName) true

def identifier : TokenParser Node :=
  nameAs "identifier"

def wordLeaf (text : String) : TokenParser Node := do
  return leaf text (← accept fun t => t.isWord text) true

/-- A dotted name. -/
def name : TokenParser Node := do
  let first ← identifier
  let rest ← many (do symbol "."; identifier)
  return rest.foldl join first
where
  join (scope last : Node) : Node :=
    ⟨"scoped_identifier", "", true, false, scope.start, last.stop, [as "scope" scope, as "name" last]⟩

end SourceLinks.Java
