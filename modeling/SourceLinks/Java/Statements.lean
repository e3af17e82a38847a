import SourceLinks.Java.Expressions

namespace SourceLinks.Java

open TokenParser

def block (g : Grammar) : TokenParser Node :=
  node "block" do
    symbol "\x7b"
    let body ← many (g .statement)
    symbol "\x7d"
    return namedOnly body

/-- The type and variables of a declaration, up to its semicolon. -/
def variableDeclaration (g : Grammar) (kind : String) : TokenParser Node :=
  node kind do
    let mods ← modifiers g
    let type ← unannotatedType g
    let vars ← sepBy1 (variableDeclarator g) ","
    symbol ";"
    return mods ++ [as "type" type] ++ asAll "declarator" vars

def expressionStatement (g : Grammar) : TokenParser Node :=
  node "expression_statement" do
    let e ← g .expression
    symbol ";"
    return [e]

/-- A statement that is one word, perhaps an operand, and a semicolon. -/
def wordStatement (kind keyword : String) (operand : TokenParser (List Node)) : TokenParser Node :=
  node kind do
    word keyword
    let items ← operand
    symbol ";"
    return items

def ifStatement (g : Grammar) : TokenParser Node :=
  node "if_statement" do
    word "if"
    let condition ← parenthesized g
    let yes ← g .statement
    let no ← maybe do
      word "else"
      g .statement
    return as "condition" condition
      :: namedOnly ([as "consequence" yes] ++ asOption "alternative" no)

def whileStatement (g : Grammar) : TokenParser Node :=
  node "while_statement" do
    word "while"
    let condition ← parenthesized g
    return as "condition" condition :: namedOnly [as "body" (← g .statement)]

def doStatement (g : Grammar) : TokenParser Node :=
  node "do_statement" do
    word "do"
    let body ← g .statement
    word "while"
    let condition ← parenthesized g
    symbol ";"
    return namedOnly [as "body" body] ++ [as "condition" condition]

def forEach (g : Grammar) : TokenParser Node :=
  node "enhanced_for_statement" do
    word "for"
    symbol "("
    let mods ← modifiers g
    let type ← unannotatedType g
    let id ← variableId g
    symbol ":"
    let value ← g .expression
    symbol ")"
    let body ← g .statement
    return mods ++ [as "type" type] ++ id ++ [as "value" value] ++ namedOnly [as "body" body]

def forLoop (g : Grammar) : TokenParser Node :=
  node "for_statement" do
    word "for"
    symbol "("
    let init ←
      (do return [← variableDeclaration g "local_variable_declaration"])
      <|> (do
        let items ← sepBy (g .expression) ","
        symbol ";"
        return items)
    let condition ← maybe (g .expression)
    symbol ";"
    let update ← sepBy (g .expression) ","
    symbol ")"
    let body ← g .statement
    return asAll "init" init ++ asOption "condition" condition ++ asAll "update" update
      ++ namedOnly [as "body" body]

def catchClause (g : Grammar) : TokenParser Node :=
  node "catch_clause" do
    word "catch"
    symbol "("
    let param ← node "catch_formal_parameter" do
      let mods ← modifiers g
      let types ← node "catch_type" (sepBy1 (unannotatedType g) "|")
      return mods ++ [types] ++ (← variableId g)
    symbol ")"
    return [param, as "body" (← g .block)]

def finallyClause (g : Grammar) : TokenParser Node :=
  node "finally_clause" do
    word "finally"
    return [← g .block]

def resource (g : Grammar) : TokenParser Node :=
  node "resource" (do
    let mods ← modifiers g
    let type ← unannotatedType g
    let id ← variableId g
    symbol "="
    return mods ++ [as "type" type] ++ id ++ [as "value" (← g .expression)])
  <|> node "resource" (do
    let e ← g .expression
    require (["identifier", "field_access"].contains e.kind)
    return [e])

def resources (g : Grammar) : TokenParser Node :=
  node "resource_specification" do
    symbol "("
    let items ← sepBy1 (resource g) ";"
    let _ ← maybe (symbol ";")
    symbol ")"
    return items

def tryStatement (g : Grammar) : TokenParser Node := do
  if ← ahead 1 fun t => t.isSymbol "(" then
    node "try_with_resources_statement" do
      word "try"
      let opened ← resources g
      let body ← g .block
      let catches ← many (catchClause g)
      let last ← maybe (finallyClause g)
      return [as "resources" opened, as "body" body] ++ catches ++ last.toList
  else
    node "try_statement" do
      word "try"
      let body ← g .block
      let catches ← many (catchClause g)
      let last ← maybe (finallyClause g)
      require (!catches.isEmpty || last.isSome)
      return as "body" body :: catches ++ last.toList

def synchronizedStatement (g : Grammar) : TokenParser Node :=
  node "synchronized_statement" do
    word "synchronized"
    let lock ← parenthesized g
    return [lock, as "body" (← g .block)]

def labeledStatement (g : Grammar) : TokenParser Node :=
  node "labeled_statement" do
    let label ← identifier
    symbol ":"
    let s ← g .statement
    return label :: namedOnly [s]

def assertion (g : Grammar) : TokenParser (List Node) := do
  let test ← g .expression
  let detail ← maybe do
    symbol ":"
    g .expression
  return test :: detail.toList

/-- An empty statement is a token and no node of its own. -/
def semicolon : TokenParser Node := do
  return leaf ";" (← accept fun t => t.isSymbol ";") false

def packageDeclaration (g : Grammar) : TokenParser Node :=
  node "package_declaration" do
    let notes ← markers g
    word "package"
    let n ← name
    symbol ";"
    return notes ++ [n]

def importDeclaration : TokenParser Node :=
  node "import_declaration" do
    word "import"
    let static ← maybe do return leaf "static" (← accept fun t => t.isWord "static") false
    let n ← name
    let all ← maybe do
      symbol "."
      return leaf "asterisk" (← accept fun t => t.isSymbol "*") true
    symbol ";"
    return static.toList ++ [n] ++ all.toList

/-- A yielded value, where no variable of that name is used. -/
def yieldStatement (g : Grammar) : TokenParser Node := do
  require !(← ahead 1 fun t => t.kind == .symbol && ["=", ".", "[", "++", "--"].contains t.text)
  wordStatement "yield_statement" "yield" (do return [← g .expression])

def statement (g : Grammar) : TokenParser Node := do
  match (← tokens).head? with
  | none => fail
  | some t =>
    match t.text with
    | "\x7b" => g .block
    | ";" => semicolon
    | "if" => ifStatement g
    | "while" => whileStatement g
    | "do" => doStatement g
    | "for" => forEach g <|> forLoop g
    | "try" => tryStatement g
    | "switch" => switchExpression g
    | "return" => wordStatement "return_statement" "return" (do return (← maybe (g .expression)).toList)
    | "break" => wordStatement "break_statement" "break" (do return (← maybe identifier).toList)
    | "continue" => wordStatement "continue_statement" "continue" (do return (← maybe identifier).toList)
    | "throw" => wordStatement "throw_statement" "throw" (do return [← g .expression])
    | "assert" => wordStatement "assert_statement" "assert" (assertion g)
    | "import" => importDeclaration
    | "yield" => yieldStatement g <|> expressionStatement g
    | _ =>
      (do
        require (t.text == "synchronized" && (← ahead 1 fun t => t.isSymbol "("))
        synchronizedStatement g)
      <|> labeledStatement g
      <|> g .typeDeclaration
      <|> packageDeclaration g
      <|> variableDeclaration g "local_variable_declaration"
      <|> expressionStatement g

end SourceLinks.Java
