import SourceLinks.Keyed
import SourceLinks.Settings.Config
import SourceLinks.Text.Blank
import SourceLinks.Text.Integer
import SourceLinks.Text.Lowercase
import SourceLinks.Text.Quoted

namespace SourceLinks

/-- Variables and their values. -/
abbrev Environment := Keyed String

/-- Why the environment gives no configuration. -/
inductive ConfigError where
  | notBoolean (key text : String)
  | notInteger (key text : String)
  | tooSmall (key : String) (least value : Int)
deriving Repr, DecidableEq, Inhabited

def ConfigError.message : ConfigError → String
  | .notBoolean key text => key ++ " must be a boolean, got " ++ Text.quoted text
  | .notInteger key text => key ++ " must be an integer, got " ++ Text.quoted text
  | .tooSmall key least value => s!"{key} must be >= {least}, got {value}"

namespace Environment

/-- A variable's value without surrounding blanks; an unset variable is empty. -/
def text (env : Environment) (key : String) : List Char :=
  Text.trim ((env.get? key).getD "").toList

def boolean (env : Environment) (key : String) (default : Bool) : Except ConfigError Bool :=
  let raw := String.ofList (Text.lower (env.text key))
  if ["1", "true", "yes", "on"].contains raw then .ok true
  else if ["0", "false", "no", "off"].contains raw then .ok false
  else if raw = "" then .ok default
  else .error (.notBoolean key raw)

/-- A whole number of at least one. -/
def count (env : Environment) (key : String) (default : Int) : Except ConfigError Int :=
  let raw := env.text key
  if raw.isEmpty then .ok default
  else
    match Text.integer? raw with
    | none => .error (.notInteger key (String.ofList raw))
    | some n => if n < 1 then .error (.tooSmall key 1 n) else .ok n

/-- The configuration that the variables describe. -/
def config (env : Environment) : Except ConfigError Config := do
  let base : Config := {}
  let linkImports ← env.boolean "XREF_LINK_IMPORTS" base.linkImports
  let maxChainDepth ← env.count "XREF_MAX_CHAIN_DEPTH" base.maxChainDepth
  let workers ← env.count "XREF_WORKERS" base.workers
  let path := String.ofList (env.text "XREF_TRACE_PATH")
  return { linkImports, maxChainDepth, workers, tracePath := if path = "" then none else some path }

end Environment
end SourceLinks
