import SourceLinks.Java.Declarations
import SourceLinks.Tree.Source

namespace SourceLinks.Java

open TokenParser

/-- The grammar with goals nested at most `depth` deep. -/
def grammar : (depth : Nat) → Grammar
  | 0, _ => fail
  | depth + 1, goal =>
    let g := grammar depth
    match goal with
    | .type => anyType g
    | .marker => marker g
    | .elementValue => elementValue g
    | .expression => expression g
    | .operand => operand g
    | .initialValue => initialValue g
    | .block => block g
    | .statement => statement g
    | .classBody => classBody g
    | .typeDeclaration => typeDeclaration g

/-- A statement, method or module at the top of a source. -/
def topLevel (g : Grammar) : TokenParser Node :=
  moduleDeclaration g <|> statement g <|> do
    let mods ← modifiers g
    methodDeclaration g mods

mutual
/-- Puts a comment into the innermost node that goes on after it. -/
def insertComment (comment : Node) : Node → Node
  | ⟨kind, field, named, missing, start, stop, children⟩ =>
    ⟨kind, field, named, missing, start, stop, insertAmong comment children⟩

def insertAmong (comment : Node) : List Node → List Node
  | [] => [comment]
  | c :: rest =>
    if comment.stop ≤ c.start then comment :: c :: rest
    else if c.start < comment.start && comment.stop < c.stop then insertComment comment c :: rest
    else c :: insertAmong comment rest
end

/-- The node of a comment. -/
def comment? (t : Token) : Option Node :=
  match t.kind with
  | .comment kind => some (leaf kind t true)
  | _ => none

/-- Parses a source; `none` if it is not well-formed. -/
def parse? (document : Document) : Option Node := do
  let all ← tokens? document.text
  let code := all.filter fun t => (comment? t).isNone
  let comments := all.filterMap comment?
  let start := (all.head?.map Token.start).getD document.encoded.length
  let (items, rest) ← (many (topLevel (grammar (8 * code.length + 8)))).run ⟨code, start⟩
  guard rest.tokens.isEmpty
  let root : Node := ⟨"program", "", true, false, start, document.encoded.length, items⟩
  return comments.foldl (fun n c => insertComment c n) root

/-- A source that is not well-formed is one node that could not be parsed. -/
def parse (document : Document) : Node :=
  (parse? document).getD ⟨"ERROR", "", true, false, 0, document.encoded.length, []⟩

end SourceLinks.Java
