namespace SourceLinks

/-- The class that a reference stands for. -/
structure Target where
  archive : String
  name : String
  /-- Where in the class to go. -/
  anchor : Option String
  /-- The class that a resolved method returns, for a call on its result. -/
  returns : Option String
deriving Repr, DecidableEq, Inhabited

inductive Resolution where
  | resolved (target : Target)
  | unresolved (reason : String)
  | ambiguous (candidates : List String)
  | unsupported (reason : String)
deriving Repr, DecidableEq, Inhabited

def Resolution.describe : Resolution → String
  | .resolved t => s!"resolved {t.name} in {t.archive}"
  | .ambiguous candidates => "ambiguous " ++ ", ".intercalate candidates
  | .unsupported reason => "unsupported: " ++ reason
  | .unresolved reason => "unresolved: " ++ reason

end SourceLinks
