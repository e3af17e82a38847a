import SourceLinks.Text.Quoted
import SourceLinks.Text.Split

namespace SourceLinks

structure Method where
  name : String
  descriptor : String
deriving Repr, DecidableEq, Inhabited

/-- What cross-references need to know of a class. -/
structure ClassStructure where
  name : String
  super : Option String
  methods : List Method
deriving Repr, DecidableEq, Inhabited

def ClassStructure.methodsNamed (s : ClassStructure) (name : String) : List Method :=
  s.methods.filter fun m => m.name == name

/-- Why octets are no class file, or a text is no descriptor. -/
inductive ClassFormatError where
  | truncated (position : Nat)
  | badMagic
  | unknownTag (tag index : Nat)
  | badClassReference (index : Nat)
  | badTextReference (index : Nat)
  | missingName
  | notDescriptor (text : Option String)
deriving Repr, DecidableEq, Inhabited

def ClassFormatError.message : ClassFormatError → String
  | .truncated position => s!"truncated class file at byte {position}"
  | .badMagic => "bad magic"
  | .unknownTag tag index => s!"unknown constant pool tag {tag} at index {index}"
  | .badClassReference index => s!"bad class reference #{index}"
  | .badTextReference index => s!"bad utf8 reference #{index}"
  | .missingName => "missing this_class"
  | .notDescriptor none => "not a method descriptor: None"
  | .notDescriptor (some text) => "not a method descriptor: " ++ Text.quoted text

/-- The class that a method descriptor returns; none for void, primitive types and arrays. -/
def returnType (descriptor : Option String) : Except ClassFormatError (Option String) :=
  let cs := (descriptor.getD "").toList
  if ')' ∈ cs then
    match Text.afterLast ')' cs with
    | 'L' :: rest =>
      if rest.getLast? = some ';' ∧ 1 < rest.length then
        .ok (some (String.ofList rest.dropLast))
      else .ok none
    | _ => .ok none
  else .error (.notDescriptor descriptor)

end SourceLinks
