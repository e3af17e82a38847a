import SourceLinks.Tree.Node

namespace SourceLinks

/-- What a node means to the resolver. -/
inductive Role where
  | typeDeclaration
  | anonymousClassBody
  | block
  | method
  | lambda
  | forLoop
  | forEach
  | catchClause
  | tryWithResources
  | resource
  | localDeclaration
  | importDeclaration
  | packageDeclaration
  | typeReference
  | methodCall
  | other
deriving Repr, DecidableEq, Inhabited

namespace Role

def name : Role → String
  | .typeDeclaration => "type_declaration"
  | .anonymousClassBody => "anonymous_class_body"
  | .block => "block"
  | .method => "method"
  | .lambda => "lambda"
  | .forLoop => "for"
  | .forEach => "enhanced_for"
  | .catchClause => "catch"
  | .tryWithResources => "try_with_resources"
  | .resource => "resource"
  | .localDeclaration => "local_declaration"
  | .importDeclaration => "import"
  | .packageDeclaration => "package"
  | .typeReference => "type_reference"
  | .methodCall => "method_call"
  | .other => "other"

/-- The role of a kind of node wherever it stands. -/
def ofKind (kind : String) : Role :=
  match kind with
  | "class_declaration" | "interface_declaration" | "enum_declaration" | "record_declaration"
  | "annotation_type_declaration" => .typeDeclaration
  | "block" | "constructor_body" | "switch_block" => .block
  | "method_declaration" | "constructor_declaration" | "compact_constructor_declaration" => .method
  | "lambda_expression" => .lambda
  | "for_statement" => .forLoop
  | "enhanced_for_statement" => .forEach
  | "catch_clause" => .catchClause
  | "try_with_resources_statement" => .tryWithResources
  | "resource" => .resource
  | "local_variable_declaration" => .localDeclaration
  | "import_declaration" => .importDeclaration
  | "package_declaration" => .packageDeclaration
  | "type_identifier" | "scoped_type_identifier" => .typeReference
  | "method_invocation" => .methodCall
  | _ => .other

/-- The role of a node of this kind under a parent of that kind. A class body stands alone only
where no declaration owns it; a segment of a dotted name and a declared type variable are no uses. -/
def under (parent kind : String) : Role :=
  if kind = "class_body" then
    if parent = "object_creation_expression" ∨ parent = "enum_constant" then .anonymousClassBody
    else .other
  else
    match ofKind kind with
    | .typeReference =>
      if parent = "scoped_type_identifier" ∨ parent = "type_parameter" then .other
      else .typeReference
    | role => role

end Role
end SourceLinks
