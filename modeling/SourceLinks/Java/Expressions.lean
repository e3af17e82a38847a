import SourceLinks.Java.Types

namespace SourceLinks.Java

open TokenParser

def argumentList (g : Grammar) : TokenParser Node :=
  node "argument_list" do
    symbol "("
    let items ← sepBy (g .expression) ","
    symbol ")"
    return items

/-- What follows `new`: type arguments, the type, and either arguments or dimensions. The kind of
the whole expression comes with its parts. -/
def creationParts (g : Grammar) : TokenParser (String × List Node) := do
  word "new"
  let before ← markers g
  let typeArgs ← maybe (typeArguments g)
  let after ← markers g
  let type ← simpleType g
  let start := before ++ asOption "type_arguments" typeArgs ++ after ++ [as "type" type]
  (do
    let list ← argumentList g
    let body ← maybe (g .classBody)
    return ("object_creation_expression", start ++ [as "arguments" list] ++ body.toList))
  <|> (do
    let dims ← many1 (node "dimensions_expr" do
      let notes ← markers g
      symbol "["
      let size ← g .expression
      symbol "]"
      return notes ++ [size])
    let unsized ← maybe (dimensions g)
    return ("array_creation_expression", start ++ asAll "dimensions" dims ++ asOption "dimensions" unsized))
  <|> (do
    let dims ← dimensions g
    require (← atSymbol "\x7b")
    let items ← g .initialValue
    return ("array_creation_expression", start ++ [as "dimensions" dims, as "value" items]))

def creation (g : Grammar) : TokenParser Node := do
  match (← tokens) with
  | [] => fail
  | t :: _ =>
    let (kind, parts) ← creationParts g
    return ⟨kind, "", true, false, t.start, (← get).last, parts⟩

/-- The class object of a type. -/
def classLiteral (g : Grammar) : TokenParser Node := do
  let type ← unannotatedType g
  extend "class_literal" type do
    symbol "."
    word "class"
    return []

/-- What follows the double colon of a method reference. -/
def referencedMethod (g : Grammar) : TokenParser (List Node) := do
  symbol "::"
  let typeArgs ← maybe (typeArguments g)
  let method ← (do word "new"; return []) <|> (do return [← identifier])
  return typeArgs.toList ++ method

/-- A method reference on a type that no expression looks like. -/
def typeReference (g : Grammar) : TokenParser Node := do
  let type ← unannotatedType g
  require (["array_type", "generic_type"].contains type.kind
    || (type.kind == "scoped_type_identifier"
      && type.children.any fun c => c.kind != "type_identifier" && c.kind != "scoped_type_identifier"))
  extend "method_reference" type (referencedMethod g)

def literal : TokenParser Node := do
  let t ← next
  match t.kind with
  | .leaf kind => return leaf kind t true
  | .word =>
    match t.text with
    | "true" | "false" | "this" => return leaf t.text t true
    | "null" => return leaf "null_literal" t true
    | _ => fail
  | _ => fail

def parenthesized (g : Grammar) : TokenParser Node :=
  node "parenthesized_expression" do
    symbol "("
    let e ← g .expression
    symbol ")"
    return [e]

/-- A call of a method by its name alone. -/
def bareCall (g : Grammar) : TokenParser Node :=
  node "method_invocation" do
    let method ← identifier
    return [as "name" method, as "arguments" (← argumentList g)]

def superObject : TokenParser Node := do
  let low ← wordLeaf "super"
  require ((← atSymbol ".") || (← atSymbol "::"))
  return low

/-- An expression that operators and selectors start from. -/
def primary (g : Grammar) : TokenParser Node :=
  literal <|> parenthesized g <|> creation g <|> superObject <|> classLiteral g <|> typeReference g
    <|> bareCall g <|> identifier

/-- A method call on an object; `before` is what stands between the two. -/
def callOn (g : Grammar) (object : Node) (before : TokenParser (List Node)) : TokenParser Node :=
  extend "method_invocation" (as "object" object) do
    symbol "."
    let between ← before
    let typeArgs ← maybe (typeArguments g)
    let method ← identifier
    let list ← argumentList g
    return between ++ asOption "type_arguments" typeArgs ++ [as "name" method, as "arguments" list]

def outerSuper : TokenParser (List Node) := do
  let low ← wordLeaf "super"
  symbol "."
  return [low]

/-- One selector after an expression. -/
def selected (g : Grammar) (e : Node) : TokenParser Node :=
  callOn g e (return [])
  <|> callOn g e outerSuper
  <|> extend "field_access" (as "object" e) (do
    symbol "."
    let between ← outerSuper <|> return []
    let field ← identifier <|> wordLeaf "this"
    return between ++ [as "field" field])
  <|> (do
    symbol "."
    let (kind, parts) ← creationParts g
    extend kind e (return parts))
  <|> extend "array_access" (as "array" e) (do
    symbol "["
    let index ← g .expression
    symbol "]"
    return [as "index" index])
  <|> extend "method_reference" e (referencedMethod g)
  <|> extend "method_reference" e (do
    symbol "."
    let low ← wordLeaf "super"
    return low :: (← referencedMethod g))
  <|> extend "update_expression" e (do
    symbol "++" <|> symbol "--"
    return [])

def selectedAll (g : Grammar) : (fuel : Nat) → Node → TokenParser Node
  | 0, e => return e
  | fuel + 1, e => do
    match ← maybe (selected g e) with
    | some longer => selectedAll g fuel longer
    | none => return e

/-- The tokens after the parenthesis that closes the one just read; `depth` more are open. -/
def afterClosing (depth : Nat) : List Token → List Token
  | [] => []
  | t :: rest =>
    if t.isSymbol "(" then afterClosing (depth + 1) rest
    else if t.isSymbol ")" then
      if depth = 0 then rest else afterClosing (depth - 1) rest
    else afterClosing depth rest

/-- A lambda starts here. -/
def atLambda : TokenParser Bool := do
  match ← tokens with
  | t :: rest =>
    let after := if t.isSymbol "(" then afterClosing 0 rest else if t.isName then rest else []
    return after.head?.any fun t => t.isSymbol "->"
  | [] => return false

def variableName : TokenParser Node :=
  identifier

/-- A variable's name, and the dimensions that make it an array. -/
def variableId (g : Grammar) : TokenParser (List Node) := do
  let name ← variableName
  let dims ← maybe (dimensions g)
  return as "name" name :: asOption "dimensions" dims

def variableDeclarator (g : Grammar) : TokenParser Node :=
  node "variable_declarator" do
    let id ← variableId g
    let value ← maybe do
      symbol "="
      g .initialValue
    return id ++ asOption "value" value

def receiverParameter (g : Grammar) : TokenParser Node :=
  node "receiver_parameter" do
    let notes ← markers g
    let type ← unannotatedType g
    let outer ← many do
      let n ← identifier
      symbol "."
      return n
    let self ← wordLeaf "this"
    return notes ++ [type] ++ outer ++ [self]

def formalParameter (g : Grammar) : TokenParser Node :=
  node "spread_parameter" (do
    let mods ← modifiers g
    let type ← unannotatedType g
    symbol "..."
    let notes ← markers g
    return mods ++ [type] ++ notes ++ [← variableDeclarator g])
  <|> node "formal_parameter" (do
    let mods ← modifiers g
    let type ← unannotatedType g
    return mods ++ [as "type" type] ++ (← variableId g))
  <|> receiverParameter g

def formalParameters (g : Grammar) : TokenParser Node :=
  node "formal_parameters" do
    symbol "("
    let items ← sepBy (formalParameter g) ","
    symbol ")"
    return items

def inferredParameters : TokenParser Node :=
  node "inferred_parameters" do
    symbol "("
    let items ← sepBy1 identifier ","
    symbol ")"
    return items

def lambda (g : Grammar) : TokenParser Node :=
  node "lambda_expression" do
    let params ← identifier <|> inferredParameters <|> formalParameters g
    symbol "->"
    let body ← if ← atSymbol "\x7b" then g .block else g .expression
    return [as "parameters" params, as "body" body]

/-- A cast to this type may have this token next. A sign after a class type is an operator. -/
def mayFollowCast (primitive : Bool) (t : Token) : Bool :=
  match t.kind with
  | .leaf _ => true
  | .word => t.text != "instanceof"
  | .symbol =>
    ["(", "!", "~"].contains t.text || (primitive && ["+", "-", "++", "--"].contains t.text)
  | .comment _ => false

def cast (g : Grammar) : TokenParser Node :=
  node "cast_expression" do
    symbol "("
    let types ← sepBy1 (g .type) "&"
    symbol ")"
    let primitive := types.all fun t => t.kind.endsWith "_type" && t.kind != "array_type"
      && t.kind != "generic_type" && t.kind != "annotated_type"
    require (← ahead 0 (mayFollowCast primitive))
    return asAll "type" types ++ [as "value" (← g .operand)]

def pattern (g : Grammar) (fuel : Nat) : TokenParser Node :=
  match fuel with
  | 0 => fail
  | fuel + 1 =>
    node "record_pattern" do
      let type ← (do
        let t ← simpleType g
        require (t.kind == "generic_type")
        return t) <|> identifier
      let body ← node "record_pattern_body" do
        symbol "("
        let items ← sepBy (pattern g fuel <|> node "record_pattern_component" do
          let t ← unannotatedType g
          return [t, ← identifier]) ","
        symbol ")"
        return items
      return [type, body]

def recordPattern (g : Grammar) : TokenParser Node := do
  pattern g (← tokens).length

/-- A constant named by a word alone; an arrow after it belongs to the rule. -/
def caseName : TokenParser Node := do
  let n ← identifier
  require ((← atSymbol "->") || (← atSymbol ",") || (← atSymbol ":"))
  return n

def caseLabel (g : Grammar) : TokenParser Node :=
  node "switch_label" do
    (do
      word "case"
      let items ←
        (do
          let p ← node "pattern" (do return [← recordPattern g])
            <|> node "pattern" (do return [← node "type_pattern" do
              let t ← unannotatedType g
              return [t, ← identifier]])
          return [p])
        <|> sepBy1 (caseName <|> g .expression) ","
      let guard ← maybe (node "guard" do
        word "when"
        return [← g .expression])
      return items ++ guard.toList)
    <|> (do
      word "default"
      return [])

def namedOnly (ns : List Node) : List Node :=
  ns.filter Node.named

def atCase : TokenParser Bool := do
  return (← atWord "case") || (← atWord "default")

def switchGroup (g : Grammar) : TokenParser Node :=
  node "switch_block_statement_group" do
    let labels ← many1 do
      let label ← caseLabel g
      symbol ":"
      return label
    let body ← many do
      require !(← atCase)
      g .statement
    return labels ++ namedOnly body

def switchRule (g : Grammar) : TokenParser Node :=
  node "switch_rule" do
    let label ← caseLabel g
    symbol "->"
    let body ←
      if ← atSymbol "\x7b" then g .block
      else if ← atWord "throw" then g .statement
      else node "expression_statement" do
        let e ← g .expression
        symbol ";"
        return [e]
    return [label, body]

def switchBlock (g : Grammar) : TokenParser Node :=
  node "switch_block" do
    symbol "\x7b"
    let items ←
      (do
        let groups ← many1 (switchGroup g)
        symbol "\x7d"
        return groups)
      <|> (do
        let rules ← many (switchRule g)
        symbol "\x7d"
        return rules)
    return items

def switchExpression (g : Grammar) : TokenParser Node :=
  node "switch_expression" do
    word "switch"
    let condition ← parenthesized g
    return [as "condition" condition, as "body" (← switchBlock g)]

/-- An expression without binary operators outside of parentheses. -/
def operand (g : Grammar) : TokenParser Node := do
  if ← atLambda then lambda g
  else if ← ahead 0 fun t => t.kind == .symbol && ["+", "-", "!", "~"].contains t.text then
    node "unary_expression" do
      let _ ← next
      return [as "operand" (← g .operand)]
  else if ← ahead 0 fun t => t.kind == .symbol && ["++", "--"].contains t.text then
    node "update_expression" do
      let _ ← next
      return [← g .operand]
  else if ← atWord "switch" then switchExpression g
  else
    cast g <|> do
      let e ← primary g
      selectedAll g (← tokens).length e

/-- How strongly a binary operator binds. -/
def strength? (op : String) : Option Nat :=
  match op with
  | "||" => some 1
  | "&&" => some 2
  | "|" => some 3
  | "^" => some 4
  | "&" => some 5
  | "==" | "!=" => some 6
  | "<" | ">" | "<=" | ">=" | "instanceof" => some 7
  | "<<" | ">>" | ">>>" => some 8
  | "+" | "-" => some 9
  | "*" | "/" | "%" => some 10
  | _ => none

/-- Closing angles and an equals sign that touch, as one operator. -/
def angles (stop : Nat) (op : String) : List Token → String × List Token
  | [] => (op, [])
  | t :: rest =>
    if t.start = stop ∧ t.isSymbol ">" then angles t.stop (op ++ ">") rest
    else if t.start = stop ∧ t.isSymbol "=" then (op ++ "=", rest)
    else (op, t :: rest)

/-- The operator that comes next. -/
def operator : TokenParser String := do
  let t ← next
  if t.isSymbol ">" then
    let (op, rest) := angles t.stop ">" (← tokens)
    set (⟨rest, t.stop⟩ : Cursor)
    return op
  else
    require (t.kind == .symbol || t.text == "instanceof")
    return t.text

/-- What stands to the right of `instanceof`. -/
def testedType (g : Grammar) : TokenParser (List Node) := do
  let _ ← maybe (word "final")
  (do return [as "pattern" (← recordPattern g)])
  <|> (do
    let type ← g .type
    let name ← maybe identifier
    return as "right" type :: asOption "name" name)

def rightOperand (g : Grammar) : TokenParser (List Node) := do
  return [as "right" (← g .operand)]

/-- An operator with what stands to its right. -/
structure Tail where
  op : String
  strength : Nat
  right : List Node

def tail (g : Grammar) : TokenParser Tail := do
  let op ← operator
  match strength? op with
  | none => fail
  | some strength =>
    let right ← if op == "instanceof" then testedType g else rightOperand g
    return ⟨op, strength, right⟩

/-- One operator applied. -/
def apply (left : Node) (t : Tail) (right : List Node) : Node :=
  let kind := if t.op == "instanceof" then "instanceof_expression" else "binary_expression"
  let stop := (right.getLast?.map Node.stop).getD left.stop
  ⟨kind, "", true, false, left.start, stop, as "left" left :: right⟩

/-- Applies the operators at the front that bind at least this strongly, from left to right. -/
def climb : (fuel : Nat) → (least : Nat) → Node → List Tail → Node × List Tail
  | 0, _, left, tails => (left, tails)
  | _ + 1, _, left, [] => (left, [])
  | fuel + 1, least, left, t :: rest =>
    if t.strength < least then (left, t :: rest)
    else
      match t.right with
      | [right] =>
        if t.op == "instanceof" then climb fuel least (apply left t [right]) rest
        else
          let (right, rest) := climb fuel (t.strength + 1) right rest
          climb fuel least (apply left t [as "right" right]) rest
      | parts => climb fuel least (apply left t parts) rest

def binary (g : Grammar) : TokenParser Node := do
  let first ← g .operand
  let tails ← many (tail g)
  return (climb (2 * tails.length + 1) 0 first tails).1

def assignments : List String :=
  ["=", "+=", "-=", "*=", "/=", "&=", "|=", "^=", "%=", "<<=", ">>=", ">>>="]

def expression (g : Grammar) : TokenParser Node := do
  let e ← binary g
  (do
    require (["identifier", "field_access", "array_access"].contains e.kind)
    let op ← operator
    require (assignments.contains op)
    extend "assignment_expression" (as "left" e) do return [as "right" (← g .expression)])
  <|> (do
    symbol "?"
    extend "ternary_expression" (as "condition" e) do
      let yes ← g .expression
      symbol ":"
      return [as "consequence" yes, as "alternative" (← g .expression)])
  <|> return e

/-- The initial value of a variable. -/
def initialValue (g : Grammar) : TokenParser Node :=
  node "array_initializer" (do
    symbol "\x7b"
    let items ← sepBy (g .initialValue) ","
    let _ ← maybe (symbol ",")
    symbol "\x7d"
    return items)
  <|> g .expression

end SourceLinks.Java
