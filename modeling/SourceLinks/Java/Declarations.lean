import SourceLinks.Java.Statements

namespace SourceLinks.Java

open TokenParser

def superInterfaces (g : Grammar) : TokenParser Node :=
  node "super_interfaces" do
    word "implements"
    return [← typeList g]

def permits (g : Grammar) : TokenParser Node :=
  node "permits" do
    word "permits"
    return [← typeList g]

def throwsClause (g : Grammar) : TokenParser Node :=
  node "throws" do
    word "throws"
    sepBy1 (g .type) ","

/-- A declaration that starts with modifiers already read. -/
def declared (kind : String) (mods : List Node) (parts : TokenParser (List Node)) : TokenParser Node := do
  match mods with
  | [] => node kind parts
  | first :: _ => extend kind first parts

def methodDeclaration (g : Grammar) (mods : List Node) : TokenParser Node :=
  declared "method_declaration" mods do
    let typeParams ← maybe (typeParameters g)
    let notes ← if typeParams.isSome then markers g else pure []
    let type ← unannotatedType g
    let n ← identifier
    let params ← formalParameters g
    let dims ← maybe (dimensions g)
    let throwing ← maybe (throwsClause g)
    let body ← (do symbol ";"; return []) <|> (do return [as "body" (← g .block)])
    return asOption "type_parameters" typeParams ++ notes ++ [as "type" type, as "name" n]
      ++ [as "parameters" params] ++ asOption "dimensions" dims ++ throwing.toList ++ body

/-- The call of another constructor that may come first in a constructor's body. -/
def constructorCall (g : Grammar) : TokenParser Node :=
  node "explicit_constructor_invocation" do
    let outer ← maybe do
      let first ← identifier
      let rest ← many do
        symbol "."
        identifier
      symbol "."
      return rest.foldl access first
    let typeArgs ← maybe (typeArguments g)
    let called ← wordLeaf "super" <|> wordLeaf "this"
    let list ← argumentList g
    symbol ";"
    return asOption "object" outer ++ asOption "type_arguments" typeArgs
      ++ [as "constructor" called, as "arguments" list]
where
  access (object field : Node) : Node :=
    ⟨"field_access", "", true, false, object.start, field.stop, [as "object" object, as "field" field]⟩

def constructorBody (g : Grammar) : TokenParser Node :=
  node "constructor_body" do
    symbol "\x7b"
    let first ← maybe (constructorCall g)
    let body ← many (g .statement)
    symbol "\x7d"
    return first.toList ++ namedOnly body

def constructorDeclaration (g : Grammar) (mods : List Node) : TokenParser Node :=
  declared "constructor_declaration" mods do
    let typeParams ← maybe (typeParameters g)
    let n ← identifier
    let params ← formalParameters g
    let throwing ← maybe (throwsClause g)
    let body ← constructorBody g
    return asOption "type_parameters" typeParams ++ [as "name" n, as "parameters" params]
      ++ throwing.toList ++ [as "body" body]

def compactConstructor (g : Grammar) (mods : List Node) : TokenParser Node :=
  declared "compact_constructor_declaration" mods do
    let n ← identifier
    return [as "name" n, as "body" (← g .block)]

def fieldDeclaration (g : Grammar) (kind : String) (mods : List Node) : TokenParser Node :=
  declared kind mods do
    let type ← unannotatedType g
    let vars ← sepBy1 (variableDeclarator g) ","
    symbol ";"
    return as "type" type :: asAll "declarator" vars

def staticInitializer (g : Grammar) : TokenParser Node :=
  node "static_initializer" do
    let t ← accept fun t => t.isWord "static"
    return [leaf "static" t false, ← g .block]

/-- A member of a class. -/
def classMember (g : Grammar) : TokenParser Node :=
  semicolon
  <|> (do
    require (← atSymbol "\x7b")
    g .block)
  <|> staticInitializer g
  <|> g .typeDeclaration
  <|> (do
    let mods ← modifiers g
    constructorDeclaration g mods <|> compactConstructor g mods <|> methodDeclaration g mods
      <|> fieldDeclaration g "field_declaration" mods)

def interfaceMember (g : Grammar) : TokenParser Node :=
  semicolon
  <|> g .typeDeclaration
  <|> (do
    let mods ← modifiers g
    methodDeclaration g mods <|> fieldDeclaration g "constant_declaration" mods)

def markerElement (g : Grammar) (mods : List Node) : TokenParser Node :=
  declared "annotation_type_element_declaration" mods do
    let type ← unannotatedType g
    let n ← identifier
    symbol "("
    symbol ")"
    let dims ← maybe (dimensions g)
    let value ← maybe do
      word "default"
      g .elementValue
    symbol ";"
    return [as "type" type, as "name" n] ++ asOption "dimensions" dims ++ asOption "value" value

def markerMember (g : Grammar) : TokenParser Node :=
  semicolon
  <|> g .typeDeclaration
  <|> (do
    let mods ← modifiers g
    markerElement g mods <|> fieldDeclaration g "constant_declaration" mods)

/-- Members between braces. -/
def members (kind : String) (member : TokenParser Node) : TokenParser Node :=
  node kind do
    symbol "\x7b"
    let items ← many member
    symbol "\x7d"
    return namedOnly items

def classBody (g : Grammar) : TokenParser Node :=
  members "class_body" (classMember g)

def enumConstant (g : Grammar) : TokenParser Node :=
  node "enum_constant" do
    let mods ← modifiers g
    let n ← identifier
    let list ← maybe (argumentList g)
    let body ← maybe (g .classBody)
    return mods ++ [as "name" n] ++ asOption "arguments" list ++ asOption "body" body

def enumBody (g : Grammar) : TokenParser Node :=
  node "enum_body" do
    symbol "\x7b"
    let constants ← sepBy (enumConstant g) ","
    let _ ← maybe (symbol ",")
    let rest ← maybe (node "enum_body_declarations" do
      symbol ";"
      return namedOnly (← many (classMember g)))
    symbol "\x7d"
    return constants ++ rest.toList

def classDeclaration (g : Grammar) (mods : List Node) : TokenParser Node :=
  declared "class_declaration" mods do
    word "class"
    let n ← identifier
    let typeParams ← maybe (typeParameters g)
    let above ← maybe (node "superclass" do
      word "extends"
      return [← g .type])
    let interfaces ← maybe (superInterfaces g)
    let permitted ← maybe (permits g)
    let body ← g .classBody
    return [as "name" n] ++ asOption "type_parameters" typeParams ++ asOption "superclass" above
      ++ asOption "interfaces" interfaces ++ asOption "permits" permitted ++ [as "body" body]

def interfaceDeclaration (g : Grammar) (mods : List Node) : TokenParser Node :=
  declared "interface_declaration" mods do
    word "interface"
    let n ← identifier
    let typeParams ← maybe (typeParameters g)
    let above ← maybe (node "extends_interfaces" do
      word "extends"
      return [← typeList g])
    let permitted ← maybe (permits g)
    let body ← members "interface_body" (interfaceMember g)
    return [as "name" n] ++ asOption "type_parameters" typeParams ++ above.toList
      ++ asOption "permits" permitted ++ [as "body" body]

def enumDeclaration (g : Grammar) (mods : List Node) : TokenParser Node :=
  declared "enum_declaration" mods do
    word "enum"
    let n ← identifier
    let interfaces ← maybe (superInterfaces g)
    let body ← enumBody g
    return [as "name" n] ++ asOption "interfaces" interfaces ++ [as "body" body]

def recordDeclaration (g : Grammar) (mods : List Node) : TokenParser Node :=
  declared "record_declaration" mods do
    word "record"
    let n ← identifier
    let typeParams ← maybe (typeParameters g)
    let params ← formalParameters g
    let interfaces ← maybe (superInterfaces g)
    let body ← g .classBody
    return [as "name" n] ++ asOption "type_parameters" typeParams ++ [as "parameters" params]
      ++ asOption "interfaces" interfaces ++ [as "body" body]

def markerDeclaration (g : Grammar) (mods : List Node) : TokenParser Node :=
  declared "annotation_type_declaration" mods do
    symbol "@"
    word "interface"
    let n ← identifier
    let body ← members "annotation_type_body" (markerMember g)
    return [as "name" n, as "body" body]

def typeDeclaration (g : Grammar) : TokenParser Node := do
  let mods ← modifiers g
  classDeclaration g mods <|> interfaceDeclaration g mods <|> enumDeclaration g mods
    <|> recordDeclaration g mods <|> markerDeclaration g mods

/-- A line of a module's body: a word, a name in its role, and perhaps a list after another word. -/
def moduleDirective (keyword role link listRole : String) : TokenParser Node :=
  node (keyword ++ "_module_directive") do
    word keyword
    let n ← name
    let more ← maybe do
      word link
      sepBy1 name ","
    symbol ";"
    return as role n :: asAll listRole (more.getD [])

def moduleRequirement : TokenParser Node :=
  node "requires_module_directive" do
    word "requires"
    let kinds ← many (node "requires_modifier" do
      let t ← accept fun t => t.isWord "transitive" || t.isWord "static"
      return if t.text == "static" then [leaf "static" t false] else [])
    let n ← name
    symbol ";"
    return asAll "modifiers" kinds ++ [as "module" n]

def moduleDeclaration (g : Grammar) : TokenParser Node :=
  node "module_declaration" do
    let notes ← markers g
    let _ ← maybe (word "open")
    word "module"
    let n ← name
    let body ← members "module_body" (moduleRequirement
      <|> moduleDirective "exports" "package" "to" "modules"
      <|> moduleDirective "opens" "package" "to" "modules"
      <|> moduleDirective "uses" "type" "" ""
      <|> moduleDirective "provides" "provided" "with" "provider")
    return notes ++ [as "name" n, as "body" body]

end SourceLinks.Java
