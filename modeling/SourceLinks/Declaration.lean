import SourceLinks.Scope
import SourceLinks.Tree.Source

namespace SourceLinks.Source

/-- The type that the node's `type` child names. -/
def declaredType? (s : Source) (n : Node) : Option TypeName :=
  (n.child? "type").bind s.typeName?

/-- A variable followed by dimensions is an array, whatever its type says. -/
def unlessArray (n : Node) (type : Option TypeName) : Option TypeName :=
  if (n.child? "dimensions").isSome then none else type

/-- A local variable, field or constant declaration. -/
def declaredVariables (s : Source) (n : Node) : List Declared :=
  let type := s.declaredType? n
  (n.namedChildren.filter fun d => d.kind == "variable_declarator").filterMap fun d =>
    (d.child? "name").map fun name => (s.text name, unlessArray d type)

/-- The variables of one parameter; one that takes any number of values is an array. -/
def parameter (s : Source) (p : Node) : List Declared :=
  match p.kind with
  | "formal_parameter" =>
    (p.child? "name").toList.map fun name => (s.text name, unlessArray p (s.declaredType? p))
  | "spread_parameter" =>
    (p.namedChildren.filter fun d => d.kind == "variable_declarator").filterMap fun d =>
      (d.child? "name").map fun name => (s.text name, none)
  | "identifier" => [(s.text p, none)]
  | _ => []

def parameters (s : Source) (list : Option Node) : List Declared :=
  (list.map fun n => n.namedChildren.flatMap s.parameter).getD []

/-- Lambda parameters without types have none that is known. -/
def lambdaParameters (s : Source) (n : Node) : List Declared :=
  match n.child? "parameters" with
  | none => []
  | some list =>
    match list.kind with
    | "identifier" => [(s.text list, none)]
    | "inferred_parameters" =>
      (list.namedChildren.filter fun c => c.kind == "identifier").map fun c => (s.text c, none)
    | _ => s.parameters (some list)

def loopVariable (s : Source) (n : Node) : List Declared :=
  (n.child? "name").toList.map fun name => (s.text name, unlessArray n (s.declaredType? n))

/-- A parameter that catches several types has no single one. -/
def catchParameter (s : Source) (n : Node) : List Declared :=
  ((n.namedChild? ["catch_formal_parameter"]).bind fun p =>
    (p.child? "name").map fun name =>
      let types := ((p.namedChild? ["catch_type"]).map Node.namedChildren).getD []
      let type :=
        match types with
        | [t] => s.typeName? t
        | _ => none
      (s.text name, type)).toList

/-- A resource that only names an open variable declares none. -/
def resourceVariable (s : Source) (n : Node) : List Declared :=
  match n.child? "name", n.child? "type" with
  | some name, some type => [(s.text name, s.typeName? type)]
  | _, _ => []

/-- A member of a type's body that declares no nested members. -/
def memberField (s : Source) (own : Option TypeName) (c : Node) : List Declared :=
  match c.kind with
  | "field_declaration" | "constant_declaration" => s.declaredVariables c
  | "enum_constant" => (c.child? "name").toList.map fun name => (s.text name, own)
  | _ => []

mutual
/-- The fields that a type's body makes visible throughout. An enum's constants have the enum's own
type, and its members stand in a part of their own. -/
def bodyFields (s : Source) (own : Option TypeName) : Node → List Declared
  | ⟨_, _, _, _, _, _, children⟩ => s.fieldsAmong own children

def fieldsAmong (s : Source) (own : Option TypeName) : List Node → List Declared
  | [] => []
  | c :: rest =>
    let fields :=
      if !c.named then []
      else if c.kind = "enum_body_declarations" then s.bodyFields own c
      else s.memberField own c
    fields ++ s.fieldsAmong own rest
end

/-- The fields of a type declaration, a record's components first. -/
def memberFields (s : Source) (n : Node) : List Declared :=
  let components :=
    if n.kind = "record_declaration" then s.parameters (n.child? "parameters") else []
  let own := (n.child? "name").map fun name => TypeName.mk [s.text name]
  components ++ ((n.child? "body").map (s.bodyFields own)).getD []

end SourceLinks.Source
