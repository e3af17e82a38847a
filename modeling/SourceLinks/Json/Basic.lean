import SourceLinks.Keyed
import SourceLinks.Text.Hex
import SourceLinks.Text.Split

namespace SourceLinks

/-- A data value. The members of an object are in order. -/
inductive Json where
  | null
  | bool (b : Bool)
  | int (n : Int)
  | str (s : String)
  | list (items : List Json)
  | object (members : List (String × Json))
deriving Repr, Inhabited

namespace Json

def get? (j : Json) (key : String) : Option Json :=
  match j with
  | .object members => members.lookup key
  | _ => none

def ofOption {α : Type} (f : α → Json) (a : Option α) : Json :=
  (a.map f).getD .null

/-- The members of both objects; those of the second win. -/
def merge (base more : List (String × Json)) : List (String × Json) :=
  ((Keyed.ofList base).setAll more).entries

end Json
end SourceLinks
