import SourceLinks.Keyed
import SourceLinks.TypeName

namespace SourceLinks

/-- A declared variable: its name, and its type if that is a class type. -/
abbrev Declared := String × Option TypeName

/-- The declarations of one scope. -/
structure Frame where
  kind : String
  bindings : Keyed (Option TypeName) := {}
deriving Repr, DecidableEq, Inhabited

/-- The open scopes, the innermost first. -/
structure Scopes where
  frames : List Frame := []
deriving Repr, DecidableEq, Inhabited

namespace Scopes

def depth (s : Scopes) : Nat :=
  s.frames.length

def push (s : Scopes) (kind : String) : Scopes :=
  ⟨{ kind } :: s.frames⟩

def pop? (s : Scopes) : Option (Frame × Scopes) :=
  match s.frames with
  | [] => none
  | f :: rest => some (f, ⟨rest⟩)

/-- The scopes around the innermost `count` ones. -/
def leave (s : Scopes) (count : Nat) : Scopes :=
  ⟨s.frames.drop count⟩

/-- Declares a variable in the innermost scope, opening a root scope if none is open. -/
def bind (s : Scopes) (name : String) (type : Option TypeName) : Scopes :=
  match s.frames with
  | [] => ⟨[⟨"root", Keyed.set {} name type⟩]⟩
  | f :: rest => ⟨{ f with bindings := f.bindings.set name type } :: rest⟩

def bindAll (s : Scopes) (vars : List Declared) : Scopes :=
  vars.foldl (fun acc v => acc.bind v.1 v.2) s

/-- The type with which the nearest scope that declares a variable declares it. -/
def lookup? (s : Scopes) (name : String) : Option (Option TypeName) :=
  s.frames.findSome? fun f => f.bindings.get? name

end Scopes
end SourceLinks
