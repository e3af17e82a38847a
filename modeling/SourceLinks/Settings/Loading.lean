import SourceLinks.Files.Tree
import SourceLinks.Settings.Dotenv
import SourceLinks.Settings.Environment

namespace SourceLinks

/-- Why the settings of a file cannot be taken over. -/
inductive LoadError where
  | file (why : FileError)
  /-- A variable or its value holds a null character. -/
  | embeddedNull
  | noHome
deriving Repr, DecidableEq, Inhabited

def LoadError.message : LoadError → String
  | .file why => why.message
  | .embeddedNull => "embedded null byte"
  | .noHome => "Could not determine home directory."

namespace Environment

/-- A variable without a value, or with an empty one. -/
def lacks (env : Environment) (key : String) : Bool :=
  (env.get? key).getD "" == ""

/-- A setting gives way to a value that is there, unless it overrides it. -/
def adopt (override : Bool) (env : Environment) (setting : String × String) : Environment :=
  if override || env.lacks setting.1 then env.set setting.1 setting.2 else env

/-- The setting would bring a null character into the environment. -/
def refuses (override : Bool) (env : Environment) (setting : String × String) : Bool :=
  (override || env.lacks setting.1)
    && ((setting.1.toList ++ setting.2.toList).contains '\x00')

/-- Takes over settings in order, up to the first that is refused. -/
def adoptAll (override : Bool) : Environment → List (String × String) → Environment × Bool
  | env, [] => (env, true)
  | env, s :: rest =>
    if env.refuses override s then (env, false) else adoptAll override (env.adopt override s) rest

/-- A tilde at the start of a path stands for a home directory. The variable `HOME` says where the
current user's is. -/
def expandHome? (env : Environment) (t : FileTree) (p : Path) : Option Path :=
  match p.anchor, p.parts with
  | "", first :: rest =>
    match first.toList with
    | '~' :: user =>
      let listed := t.homes.lookup (String.ofList user)
      let home := if user.isEmpty then (env.get? "HOME").or listed else listed
      home.bind fun h =>
        if h.toList.head? = some '~' then none
        else some (Path.ofString (if h = "" then "/" else h) ++ ⟨"", rest⟩)
    | _ => some p
  | _, _ => some p

/-- Takes over the settings of a file; says whether the file was there. -/
def load (env : Environment) (t : FileTree) (override : Bool) (p : Path) :
    Environment × Except LoadError Bool :=
  match env.expandHome? t p with
  | none => (env, .error .noHome)
  | some p =>
    match t.isFile p with
    | .error why => (env, .error (.file why))
    | .ok false => (env, .ok false)
    | .ok true =>
      match t.read p with
      | .error why => (env, .error (.file why))
      | .ok bytes =>
        match env.adoptAll override (Dotenv.parse (Utf8.decodeDropping bytes)).entries with
        | (env, true) => (env, .ok true)
        | (env, false) => (env, .error .embeddedNull)

/-- Takes over the first file that is there; files that cannot be used are passed over. -/
def loadFirst (t : FileTree) : Environment → List Path → Environment × Except LoadError (Option Path)
  | env, [] => (env, .ok none)
  | env, p :: rest =>
    match env.load t false p with
    | (env, .ok true) => (env, .ok (some p))
    | (env, .ok false) => loadFirst t env rest
    | (env, .error (.file _)) => loadFirst t env rest
    | (env, .error why) => (env, .error why)

/-- The name of a file of settings. -/
def fileName : String := ".env"

/-- How many directories are searched for settings. -/
def searchDepth : Nat := 5

/-- A directory and those above it. -/
def ascent : Nat → Path → List Path
  | 0, _ => []
  | n + 1, p => p :: ascent n p.parent

/-- The files of settings in the order of the search: the given one, then those of the current
directory and the directories above it. -/
def candidates (t : FileTree) (explicit : Option String) : List Path :=
  let given := (explicit.filter (· != "")).toList.map Path.ofString
  given ++ (ascent searchDepth ⟨"/", t.here⟩).map fun d => d ++ ⟨"", [fileName]⟩

/-- Takes over the first file of settings that the search finds. -/
def autoLoad (env : Environment) (t : FileTree) (explicit : Option String) :
    Environment × Except LoadError (Option Path) :=
  loadFirst t env (candidates t explicit)

end Environment
end SourceLinks
