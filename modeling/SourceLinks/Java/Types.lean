import SourceLinks.Java.TokenParser

namespace SourceLinks.Java

open TokenParser

def markers (g : Grammar) : TokenParser (List Node) :=
  many (g .marker)

def elementPair (g : Grammar) : TokenParser Node :=
  node "element_value_pair" do
    let key ← identifier
    symbol "="
    return [as "key" key, as "value" (← g .elementValue)]

def markerArguments (g : Grammar) : TokenParser Node :=
  node "annotation_argument_list" do
    symbol "("
    let items ← sepBy1 (elementPair g) "," <|> (do return [← g .elementValue]) <|> return []
    symbol ")"
    return items

/-- An annotation; the declaration of one is none. -/
def marker (g : Grammar) : TokenParser Node := do
  require !(← ahead 1 fun t => t.isWord "interface")
  let plain ← node "marker_annotation" do
    symbol "@"
    return [as "name" (← name)]
  match ← maybe (markerArguments g) with
  | none => return plain
  | some list =>
    return { plain with
      kind := "annotation", stop := list.stop, children := plain.children ++ [as "arguments" list] }

def elementValue (g : Grammar) : TokenParser Node :=
  g .marker
    <|> node "element_value_array_initializer" (do
      symbol "\x7b"
      let items ← sepBy (g .elementValue) ","
      let _ ← maybe (symbol ",")
      symbol "\x7d"
      return items)
    <|> g .expression

def primitive? (text : String) : Option String :=
  match text with
  | "byte" | "short" | "int" | "long" | "char" => some "integral_type"
  | "float" | "double" => some "floating_point_type"
  | "boolean" => some "boolean_type"
  | "void" => some "void_type"
  | _ => none

def primitiveType : TokenParser Node := do
  let t ← accept fun t => t.kind == .word
  match primitive? t.text with
  | some kind => return leaf kind t true
  | none => fail

def wildcard (g : Grammar) : TokenParser Node :=
  node "wildcard" do
    let notes ← markers g
    symbol "?"
    let bounds ←
      (do word "extends"; return [← g .type])
        <|> (do let low ← wordLeaf "super"; return [low, ← g .type])
        <|> return []
    return notes ++ bounds

def typeArguments (g : Grammar) : TokenParser Node :=
  node "type_arguments" do
    symbol "<"
    let items ← sepBy (wildcard g <|> g .type) ","
    symbol ">"
    return items

/-- A class type with its arguments; it has them only once. -/
def withArguments (g : Grammar) (t : Node) : TokenParser Node := do
  require (t.kind != "generic_type")
  extend "generic_type" t do return [← typeArguments g]

/-- A member of a class type. -/
def withMember (g : Grammar) (t : Node) : TokenParser Node :=
  extend "scoped_type_identifier" t do
    symbol "."
    let notes ← markers g
    return notes ++ [← nameAs "type_identifier"]

/-- What may follow the name of a class in a type: arguments, or a member. -/
def classTypeRest (g : Grammar) : (fuel : Nat) → Node → TokenParser Node
  | 0, t => return t
  | fuel + 1, t => do
    match ← maybe (withArguments g t <|> withMember g t) with
    | some longer => classTypeRest g fuel longer
    | none => return t

def simpleType (g : Grammar) : TokenParser Node :=
  primitiveType <|> do
    let first ← nameAs "type_identifier"
    classTypeRest g (← tokens).length first

def dimensions (g : Grammar) : TokenParser Node :=
  node "dimensions" do
    return (← many1 (do
      let notes ← markers g
      symbol "["
      symbol "]"
      return notes)).flatten

def unannotatedType (g : Grammar) : TokenParser Node := do
  let t ← simpleType g
  match ← maybe (dimensions g) with
  | none => return t
  | some dims => extend "array_type" (as "element" t) (return [as "dimensions" dims])

def anyType (g : Grammar) : TokenParser Node := do
  match ← markers g with
  | [] => unannotatedType g
  | first :: rest =>
    extend "annotated_type" first do
      return rest ++ [← unannotatedType g]

def typeList (g : Grammar) : TokenParser Node :=
  node "type_list" (sepBy1 (g .type) ",")

def typeParameters (g : Grammar) : TokenParser Node :=
  node "type_parameters" do
    symbol "<"
    let items ← sepBy1 (node "type_parameter" do
      let notes ← markers g
      let var ← nameAs "type_identifier"
      let bound ← maybe (node "type_bound" do
        word "extends"
        sepBy1 (g .type) "&")
      return notes ++ [var] ++ bound.toList) ","
    symbol ">"
    return items

def modifierWords : List String :=
  ["public", "protected", "private", "abstract", "static", "final", "strictfp", "default",
    "synchronized", "native", "transient", "volatile"]

/-- A modifier that is a word; of these only `static` shows in the tree. -/
def modifierWord : TokenParser (List Node) :=
  (do
    let t ← accept fun t => t.kind == .word && modifierWords.contains t.text
    return if t.text == "static" then [leaf "static" t false] else [])
  <|> (do
    word "sealed"
    require (← ahead 0 fun t => t.kind == .word)
    return [])
  <|> (do
    word "non"
    symbol "-"
    word "sealed"
    return [])

/-- The modifiers before a declaration, if there are any. -/
def modifiers (g : Grammar) : TokenParser (List Node) :=
  (do return [← node "modifiers" do
    return (← many1 ((do return [← g .marker]) <|> modifierWord)).flatten])
  <|> return []

end SourceLinks.Java
