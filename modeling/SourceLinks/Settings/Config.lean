namespace SourceLinks

/-- The settings of a pass. -/
structure Config where
  /-- Import declarations are linked to their classes. -/
  linkImports : Bool := true
  /-- How many calls deep a receiver may be. -/
  maxChainDepth : Int := 32
  workers : Int := 4
  tracePath : Option String := none
deriving Repr, DecidableEq, Inhabited

end SourceLinks
