import SourceLinks.Corpus
import SourceLinks.Import
import SourceLinks.Resolution
import SourceLinks.Scope
import SourceLinks.Settings.Config

namespace SourceLinks

/-- What a pass over one document starts from. -/
structure Setting where
  corpus : Corpus
  source : Source
  config : Config
  imports : ImportTable := ImportTable.ofSource source

/-- An enclosing class. An anonymous class has no name, and neither it nor a local class has an
internal one that the source shows. -/
structure ClassContext where
  internal : Option String
  simple : Option String
deriving Repr, DecidableEq, Inhabited

def ClassContext.unknown : ClassContext := ⟨none, none⟩

/-- What surrounds a place in the source: the open scopes and the enclosing classes, both with the
innermost first. -/
structure Surroundings where
  scopes : Scopes := {}
  classes : List ClassContext := []
deriving Repr, DecidableEq, Inhabited

def Surroundings.enclosing (here : Surroundings) : ClassContext :=
  here.classes.headD ClassContext.unknown

/-- Each name once, and never the empty one. -/
def distinctNames (names : List String) : List String :=
  (names.filter (· != "")).eraseDups

namespace Setting

/-- The archive that a class is taken from; the document's own archive comes first. -/
def locate? (st : Setting) (name : String) : Option String :=
  st.corpus.lookup? name (some st.source.document.archive)

/-- Exactly one of the candidates must be loaded. -/
def probe (st : Setting) (candidates : List String) (anchor : Option String) : Resolution :=
  let names := distinctNames candidates
  match names.filterMap fun n => (st.locate? n).map fun archive => (n, archive) with
  | [] => .unresolved ("no candidate loaded: " ++ ", ".intercalate names)
  | [(name, archive)] => .resolved ⟨archive, name, anchor, none⟩
  | hits => .ambiguous (hits.map Prod.fst)

end Setting
end SourceLinks
