namespace SourceLinks

/-- A table that remembers the order in which its keys were first given. -/
structure Keyed (β : Type) where
  entries : List (String × β) := []
deriving Repr, BEq, DecidableEq, Inhabited

namespace Keyed
variable {β : Type}

def get? (t : Keyed β) (key : String) : Option β :=
  t.entries.lookup key

def contains (t : Keyed β) (key : String) : Bool :=
  (t.get? key).isSome

def keys (t : Keyed β) : List String :=
  t.entries.map Prod.fst

def size (t : Keyed β) : Nat :=
  t.entries.length

/-- Gives `key` the value `v`, at the end of the entries if it is new and in its own place if not. -/
def place (key : String) (v : β) : List (String × β) → List (String × β)
  | [] => [(key, v)]
  | (k, w) :: rest => if k = key then (k, v) :: rest else (k, w) :: place key v rest

def set (t : Keyed β) (key : String) (v : β) : Keyed β :=
  ⟨place key v t.entries⟩

def erase (t : Keyed β) (key : String) : Keyed β :=
  ⟨t.entries.filter (fun e => e.1 != key)⟩

def setAll (t : Keyed β) (pairs : List (String × β)) : Keyed β :=
  pairs.foldl (fun acc p => acc.set p.1 p.2) t

/-- The last value given for a key wins, in the place of its first. -/
def ofList (pairs : List (String × β)) : Keyed β :=
  setAll {} pairs

end Keyed
end SourceLinks
