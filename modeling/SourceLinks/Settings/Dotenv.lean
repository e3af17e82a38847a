import SourceLinks.Keyed
import SourceLinks.Text.Blank
import SourceLinks.Text.Split

namespace SourceLinks.Dotenv

/-- Quotes around a value are taken off; without them a comment ends it. -/
def value (cs : List Char) : List Char :=
  match cs with
  | [] => []
  | first :: rest =>
    if first = '\x27' ∨ first = '"' then
      if rest.getLast? = some first then rest.dropLast else cs
    else
      match Text.cutAt? [' ', '#'] cs with
      | some (before, _) => Text.trimEnd before
      | none => cs

/-- The setting on a line, if there is one. -/
def pair? (raw : List Char) : Option (String × String) :=
  let line := Text.trim raw
  if line.head? = some '#' then none
  else
    match Text.cutAt? ['='] line with
    | none => none
    | some (before, after) =>
      let key := Text.trim before
      if key.isEmpty then none
      else some (String.ofList key, String.ofList (value (Text.trim after)))

/-- The settings of a file in the order of first mention, each with its last value. -/
def parse (text : List Char) : Keyed String :=
  Keyed.ofList ((Text.breakLines text).filterMap pair?)

end SourceLinks.Dotenv
