namespace SourceLinks

/-- A line of the log: the part of the program that wrote it, and what it says. -/
structure LogLine where
  part : String
  message : String
deriving Repr, DecidableEq, Inhabited

end SourceLinks
