import SourceLinks.Corpus

namespace SourceLinks

/-- What an archive says about a class: its structure if it has one that can be read. -/
abbrev Answer := Except ReaderCrash (Option ClassStructure)

/-- A computation that asks archives for class structures and notes what it does. Who answers, and
where the notes go, is not its concern. -/
inductive Inquiry (α : Type) where
  | done (a : α)
  | note (line : LogLine) (next : Inquiry α)
  | ask (archive name : String) (next : Answer → Inquiry α)

namespace Inquiry
variable {α β : Type}

def bind (q : Inquiry α) (f : α → Inquiry β) : Inquiry β :=
  match q with
  | .done a => f a
  | .note line next => .note line (next.bind f)
  | .ask archive name next => .ask archive name fun answer => (next answer).bind f

instance : Monad Inquiry where
  pure := .done
  bind := Inquiry.bind

def log (line : LogLine) : Inquiry Unit :=
  .note line (.done ())

def structureOf (archive name : String) : Inquiry Answer :=
  .ask archive name .done

/-- The corpus answers, and keeps the structures that it had to read. -/
def run : Inquiry α → Corpus → α × Corpus × List LogLine
  | .done a, c => (a, c, [])
  | .note line next, c =>
    let (a, c, lines) := next.run c
    (a, c, line :: lines)
  | .ask archive name next, c =>
    let (answer, c, read) := c.structureOf archive name
    let (a, c, lines) := (next answer).run c
    (a, c, read ++ lines)

end Inquiry

/-- An inquiry that a crash ends. -/
abbrev Attempt := ExceptT ReaderCrash Inquiry

def Attempt.structureOf (archive name : String) : Attempt (Option ClassStructure) :=
  ExceptT.mk (Inquiry.structureOf archive name)

end SourceLinks
