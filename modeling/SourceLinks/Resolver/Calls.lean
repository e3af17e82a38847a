import SourceLinks.Resolver.Methods
import SourceLinks.Resolver.Types

namespace SourceLinks

/-- Calls already resolved, by the octets that they cover. -/
abbrev CallMemo := List ((Nat × Nat) × Resolution)

/-- The resolution of a call, unless a crash prevents it, with what is remembered afterwards. -/
abbrev CallOutcome := Except ReaderCrash Resolution × CallMemo

namespace Setting

/-- The method that the enclosing class or one of its superclasses declares. -/
def ownMethod? (st : Setting) (here : Surroundings) (method : String) : Attempt (Option Target) :=
  match st.thisClass here with
  | .resolved owner => st.declaring? owner method
  | _ => return none

/-- An unqualified call of a statically imported method. The enclosing class and its superclasses
come before the import. -/
def bareStaticCall (st : Setting) (here : Surroundings) (method : String) : Attempt Resolution := do
  let own ← st.ownMethod? here method
  match own with
  | some target => return .resolved target
  | none =>
    match st.probe ((st.imports.ownersOf method).flatMap ClassName.nestedForms) none with
    | .resolved owner => st.locateMethod owner method
    | res => return res

/-- The class of a receiver whose type is written where it stands. -/
def writtenReceiver (st : Setting) (here : Surroundings) (type : Option Node) (otherwise : String) :
    Resolution :=
  match type.bind st.source.typeName? with
  | none => .unsupported otherwise
  | some name => st.resolveType here name

/-- The class of a receiver that is not itself a call. -/
def plainReceiver (st : Setting) (here : Surroundings) (obj : Node) : Attempt Resolution :=
  match obj.kind with
  | "this" => return st.thisClass here
  | "super" => st.superClass here
  | "identifier" => return st.resolveSimple here (st.source.text obj)
  | "parenthesized_expression" =>
    let inner := obj.unwrapped
    if inner.kind = "cast_expression" then
      return st.writtenReceiver here (inner.child? "type") "cast to a non-class type"
    else return .unsupported "parenthesized receiver without a cast"
  | "object_creation_expression" =>
    return st.writtenReceiver here (obj.child? "type") "instance creation of unknown type"
  | "string_literal" => return st.probe [ClassName.string] none
  | "field_access" => return .unsupported "field access receiver"
  | kind => return .unsupported s!"{kind} receiver"

/-- The class of what a call returns. -/
def returnedClass (st : Setting) : Resolution → Resolution
  | .resolved ⟨_, _, _, some returns⟩ => st.probe [returns] none
  | .resolved _ => .unresolved "receiver call has no further type"
  | _ => .unresolved "receiver call unresolved"

/-- The method of a receiver's class; a receiver without a class settles the call. -/
def methodOf (st : Setting) (memo : CallMemo) (method : String) :
    Except ReaderCrash Resolution → Inquiry CallOutcome
  | .ok (.resolved owner) => do return (← (st.locateMethod owner method).run, memo)
  | settled => return (settled, memo)

/-- Resolves a call. `chained` resolves the call that is its receiver; where the chain is at its
limit there is none. -/
def freshCall (st : Setting) (here : Surroundings)
    (chained : Option (CallMemo → Node → Inquiry CallOutcome)) (memo : CallMemo) (node : Node) :
    Inquiry CallOutcome :=
  match node.child? "name" with
  | none => return (.ok (.unsupported "call without a name"), memo)
  | some nameNode =>
    let method := st.source.text nameNode
    match node.child? "object" with
    | none =>
      if (st.imports.ownersOf method).isEmpty then st.methodOf memo method (.ok (st.thisClass here))
      else do return (← (st.bareStaticCall here method).run, memo)
    | some obj =>
      if obj.kind = "method_invocation" then
        match chained with
        | none => return (.ok (.unsupported "call chain too deep"), memo)
        | some inner => do
          let (outcome, memo) ← inner memo obj
          st.methodOf memo method (outcome.map st.returnedClass)
      else do st.methodOf memo method (← (st.plainReceiver here obj).run)

/-- A call is resolved once for the octets that it covers; a crash is not remembered. -/
def remembered (resolve : CallMemo → Node → Inquiry CallOutcome) (memo : CallMemo) (node : Node) :
    Inquiry CallOutcome := do
  match memo.lookup (node.start, node.stop) with
  | some res => return (.ok res, memo)
  | none =>
    let (outcome, memo) ← resolve memo node
    match outcome with
    | .ok res => return (.ok res, ((node.start, node.stop), res) :: memo)
    | .error crash => return (.error crash, memo)

/-- Resolves a call whose receiver may be up to `depth` calls deep. -/
def resolveCall (st : Setting) (here : Surroundings) :
    (depth : Nat) → CallMemo → Node → Inquiry CallOutcome
  | 0 => remembered (st.freshCall here none)
  | depth + 1 => remembered (st.freshCall here (some (st.resolveCall here depth)))

end Setting
end SourceLinks
