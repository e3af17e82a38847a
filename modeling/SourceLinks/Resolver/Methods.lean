import SourceLinks.Inquiry
import SourceLinks.Resolver.Setting

namespace SourceLinks

/-- The class that all these methods return, if they return the same. -/
def commonReturn (methods : List Method) : Option String :=
  match methods.mapM fun m => returnType (some m.descriptor) with
  | .ok (first :: rest) => if rest.all (· == first) then first else none
  | _ => none

/-- No chain of superclasses is longer than this without repeating a name. -/
def Corpus.chainBound (c : Corpus) : Nat :=
  c.archives.foldl (fun bound a => bound + a.entries.size) 1

namespace Setting

/-- Follows the superclasses of a class to the first that has the method. The chain ends after the
root class, at a class that cannot be read or located, and at a name met before. -/
def declaringFrom (st : Setting) (method : String) :
    (bound : Nat) → (seen : List String) → (archive name : String) → Attempt (Option Target)
  | 0, _, _, _ => return none
  | bound + 1, seen, archive, name => do
    if name ∈ seen then return none
    match ← Attempt.structureOf archive name with
    | none => return none
    | some s =>
      let methods := s.methodsNamed method
      if !methods.isEmpty then
        return some ⟨archive, name, some method, commonReturn methods⟩
      else if name = ClassName.object then return none
      else
        match s.super with
        | none | some "" => return none
        | some above =>
          match st.locate? above with
          | none => return none
          | some next => st.declaringFrom method bound (name :: seen) next above

/-- The class that declares the method for an owner. -/
def declaring? (st : Setting) (owner : Target) (method : String) : Attempt (Option Target) :=
  st.declaringFrom method st.corpus.chainBound [] owner.archive owner.name

/-- A method that no class of the chain has is taken for one of the owner, with no known type. -/
def locateMethod (st : Setting) (owner : Target) (method : String) : Attempt Resolution := do
  match ← st.declaring? owner method with
  | some target => return .resolved target
  | none => return .resolved ⟨owner.archive, owner.name, some method, none⟩

/-- The enclosing class itself. -/
def thisClass (st : Setting) (here : Surroundings) : Resolution :=
  match here.enclosing.internal with
  | none => .unresolved "enclosing class unknown"
  | some internal => st.probe [internal] none

/-- The superclass that the enclosing class declares. -/
def superClass (st : Setting) (here : Surroundings) : Attempt Resolution := do
  match here.enclosing.internal with
  | none => return .unresolved "enclosing class unknown"
  | some internal =>
    match st.locate? internal with
    | none => return .unresolved s!"{internal} not loaded"
    | some archive =>
      match (← Attempt.structureOf archive internal).bind ClassStructure.super with
      | none | some "" => return .unresolved s!"no superclass metadata for {internal}"
      | some above => return st.probe [above] none

end Setting
end SourceLinks
