import SourceLinks.Resolver.Setting

namespace SourceLinks.Setting

/-- What one import says that a type name may stand for. -/
def importedCandidates (name : TypeName) (b : ImportBinding) : List String :=
  let whole := if b.simple = name.simple then b.candidates else []
  let members :=
    if name.isDotted ∧ b.simple = name.root then
      b.candidates.map fun c => c ++ "$" ++ "$".intercalate name.segments.tail
    else []
  whole ++ members

/-- The classes that imports and the language's own package offer for a type name. -/
def typeCandidates (st : Setting) (name : TypeName) : List String :=
  distinctNames
    (st.imports.bindings.flatMap (importedCandidates name) ++ [ClassName.language ++ name.simple])

/-- Member types of the enclosing classes, the document's package, and the name spelled in full. -/
def secondaryCandidates (st : Setting) (here : Surroundings) (name : TypeName) : List String :=
  let members := here.classes.filterMap fun ctx =>
    match ctx.internal with
    | none | some "" => none
    | some internal => some (internal ++ "$" ++ name.nested)
  let full := if name.isDotted then ["/".intercalate name.segments] else []
  distinctNames (members ++ [st.source.document.package ++ name.nested] ++ full)

/-- The class of a type name. An import of its first segment keeps the secondary candidates out. -/
def resolveType (st : Setting) (here : Surroundings) (name : TypeName) : Resolution :=
  match st.probe (st.typeCandidates name) (some name.simple) with
  | .unresolved reason =>
    if (st.imports.bindingsFor name.root).isEmpty then
      st.probe (st.secondaryCandidates here name) (some name.simple)
    else .unresolved reason
  | res => res

/-- The class that a simple name stands for where a variable may stand. The nearest variable of the
name wins, then an enclosing class, then an import, then the classes that need none. -/
def resolveSimple (st : Setting) (here : Surroundings) (name : String) : Resolution :=
  match here.scopes.lookup? name with
  | some none => .unresolved s!"declared type of `{name}` unknown"
  | some (some type) => st.resolveType here type
  | none =>
    let enclosing := here.classes.findSome? fun ctx =>
      if ctx.simple = some name then ctx.internal.filter (· != "") else none
    match enclosing with
    | some internal => st.probe [internal] none
    | none =>
      match st.imports.bindingsFor name with
      | [] =>
        match st.probe [ClassName.language ++ name] none with
        | .unresolved _ => st.probe (st.secondaryCandidates here ⟨[name]⟩) none
        | res => res
      | imported => st.probe (imported.flatMap ImportBinding.candidates) none

end SourceLinks.Setting
