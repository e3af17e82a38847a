import SourceLinks.CommandLine.Flag
import SourceLinks.Text.Digit
import SourceLinks.Text.Quoted
import SourceLinks.Text.Split

namespace SourceLinks.CommandLine

/-- What is wrong with a command line. -/
inductive UsageError where
  | ambiguous (word : String) (readings : List String)
  | expectsValue (flag : Flag)
  | ignoredValue (flag : Flag) (value : String)
  | excludes (flag other : Flag)
  | required (flags : List Flag)
  | oneRequired (flags : List Flag)
  | unrecognized (words : List String)
  | classNotFound (name : String)
deriving Repr, DecidableEq, Inhabited

def UsageError.message : UsageError → String
  | .ambiguous word readings =>
    s!"ambiguous option: {word} could match " ++ ", ".intercalate readings
  | .expectsValue flag => s!"argument {flag.name}: expected one argument"
  | .ignoredValue flag value =>
    s!"argument {flag.name}: ignored explicit argument " ++ Text.quoted value
  | .excludes flag other => s!"argument {flag.name}: not allowed with argument {other.name}"
  | .required flags =>
    "the following arguments are required: " ++ ", ".intercalate (flags.map Flag.name)
  | .oneRequired flags =>
    "one of the arguments " ++ " ".intercalate (flags.map Flag.name) ++ " is required"
  | .unrecognized words => "unrecognized arguments: " ++ " ".intercalate words
  | .classNotFound name => name ++ " is not in any archive"

/-- A value written in the same word as its flag. -/
structure Attached where
  /-- An equals sign stands between them. -/
  marked : Bool
  text : List Char
deriving Repr, DecidableEq, Inhabited

/-- What a word of the command line is. -/
inductive Word where
  | value (text : String)
  /-- Two dashes, after which every word is a value. -/
  | divider
  | flag (flag : Flag) (short : Bool) (attached : Option Attached)
  | unknown (text : String)
deriving Repr, DecidableEq, Inhabited

/-- A number below zero is a value though it starts with a dash. -/
def isNegativeNumber (cs : List Char) : Bool :=
  let digits := fun (ds : List Char) => ds.all fun c => (Text.digit? c).isSome
  match cs with
  | '-' :: rest =>
    match Text.cutAt? ['.'] rest with
    | none => !rest.isEmpty && digits rest
    | some (whole, part) => digits whole && !part.isEmpty && digits part
  | _ => false

/-- The flags that a word with a dash may stand for: a long one may be cut short, and a short one
may have more in its word. -/
def readings (word : List Char) : List (String × Word) :=
  match word with
  | '-' :: '-' :: _ =>
    let (short, attached) :=
      match Text.cutAt? ['='] word with
      | some (before, after) => (before, some ⟨true, after⟩)
      | none => (word, none)
    (Flag.abbreviated (String.ofList short)).map fun (s, f) => (s, .flag f false attached)
  | '-' :: c :: more =>
    let s := String.ofList ['-', c]
    (Flag.ofSpelling? s).toList.map fun f => (s, .flag f true (some ⟨false, more⟩))
  | _ => []

def isShort (spelling : List Char) : Bool :=
  spelling.drop 1 |>.head? |>.any (· != '-')

/-- A flag spelled out, perhaps with a value after an equals sign. -/
def spelledOut? (word : List Char) : Option Word :=
  match Flag.ofSpelling? (String.ofList word) with
  | some f => some (.flag f (isShort word) none)
  | none =>
    match Text.cutAt? ['='] word with
    | some (before, after) =>
      (Flag.ofSpelling? (String.ofList before)).map fun f =>
        .flag f (isShort before) (some ⟨true, after⟩)
    | none => none

/-- What a word is if no divider stands before it. -/
def classify (word : String) : Except UsageError Word :=
  let cs := word.toList
  if cs.head? ≠ some '-' ∨ cs.length = 1 then .ok (.value word)
  else if word = "--" then .ok .divider
  else
    match spelledOut? cs with
    | some w => .ok w
    | none =>
      match readings cs with
      | [(_, w)] => .ok w
      | [] =>
        if isNegativeNumber cs ∨ ' ' ∈ cs then .ok (.value word) else .ok (.unknown word)
      | several => .error (.ambiguous word (several.map Prod.fst))

def classifyAll : List String → Except UsageError (List Word)
  | [] => .ok []
  | word :: rest => do
    match ← classify word with
    | .divider => return .divider :: rest.map .value
    | w => return w :: (← classifyAll rest)

/-- The flags of one word: short ones without values can share it. Each adds itself to `earlier`;
letters that are no flag are left over as a word of their own. -/
def cluster (flag : Flag) (earlier : List Flag) (marked : Bool) :
    List Char → Except UsageError (List Flag × List String)
  | [] => if marked then .error (.ignoredValue flag "") else .ok (earlier ++ [flag], [])
  | c :: rest =>
    if marked ∨ c = '-' then .error (.ignoredValue flag (String.ofList (c :: rest)))
    else
      let earlier := earlier ++ [flag]
      match Flag.ofSpelling? (String.ofList ['-', c]) with
      | none => .ok (earlier, [String.ofList ('-' :: c :: rest)])
      | some next =>
        match rest with
        | '=' :: value =>
          .error (.ignoredValue next (String.ofList value))
        | _ => cluster next earlier false rest

/-- What has been read of a command line. -/
structure Reading where
  given : List (Flag × String) := []
  leftOver : List String := []
deriving Repr, DecidableEq, Inhabited

/-- Why a command line gives no options. -/
inductive Stop where
  | help
  | usage (why : UsageError)
deriving Repr, DecidableEq, Inhabited

namespace Reading

def has (r : Reading) (f : Flag) : Bool :=
  r.given.any fun g => g.1 == f

/-- Accepts a flag. Help is given at once, and flags that exclude each other are refused. -/
def accept (r : Reading) (f : Flag) (value : String) : Except Stop Reading :=
  if f = .help then .error .help
  else
    let conflict := if f ∈ Flag.exclusive then Flag.exclusive.find? fun g => g != f && r.has g else none
    match conflict with
    | some other => .error (.usage (.excludes f other))
    | none => .ok { r with given := r.given ++ [(f, value)] }

def leave (r : Reading) (word : String) : Reading :=
  { r with leftOver := r.leftOver ++ [word] }

/-- Reads words in order. -/
def readAll : Reading → List Word → Except Stop Reading
  | r, [] => .ok r
  | r, .value text :: rest => readAll (r.leave text) rest
  | r, .divider :: rest => readAll (r.leave "--") rest
  | r, .unknown text :: rest => readAll (r.leave text) rest
  | r, .flag f _ none :: rest =>
    if f.takesValue then
      match rest with
      | .value text :: rest => do readAll (← r.accept f text) rest
      | _ => .error (.usage (.expectsValue f))
    else do readAll (← r.accept f "") rest
  | r, .flag f short (some attached) :: rest =>
    if f.takesValue then do readAll (← r.accept f (String.ofList attached.text)) rest
    else if short ∧ attached.text ≠ [] then
      match cluster f [] attached.marked attached.text with
      | .error why => .error (.usage why)
      | .ok (flags, left) => do
        let r := left.foldl leave r
        readAll (← flags.foldlM (fun r f => r.accept f "") r) rest
    else .error (.usage (.ignoredValue f (String.ofList attached.text)))

/-- The last value given for a flag. -/
def value? (r : Reading) (f : Flag) : Option String :=
  ((r.given.filter fun g => g.1 == f).getLast?).map Prod.snd

def values (r : Reading) (f : Flag) : List String :=
  (r.given.filter fun g => g.1 == f).map Prod.snd

/-- What is still wrong when all words have been read. -/
def fault? (r : Reading) : Option UsageError :=
  let missing := Flag.required.filter fun f => !r.has f
  if missing ≠ [] then some (.required missing)
  else if Flag.exclusive.all fun f => !r.has f then some (.oneRequired Flag.exclusive)
  else if r.leftOver ≠ [] then some (.unrecognized r.leftOver)
  else none

end Reading

/-- What a run is asked to do. -/
structure Options where
  dotenv : String
  archives : List String
  className : String
  owner : Option String
  source : Option String
  command : Option String
  out : Option String
  graph : Option String
  verbose : Bool
deriving Repr, DecidableEq, Inhabited

/-- An empty value is as good as none. -/
def Reading.filled? (r : Reading) (f : Flag) : Option String :=
  (r.value? f).filter (· != "")

def Options.ofReading (r : Reading) : Options :=
  { dotenv := (r.value? .dotenv).getD ".env"
    archives := r.values .archive
    className := (r.value? .className).getD ""
    owner := r.filled? .owner
    source := r.filled? .source
    command := r.value? .command
    out := r.filled? .out
    graph := r.filled? .graph
    verbose := r.has .verbose }

/-- The options that a command line gives. -/
def Options.parse (args : List String) : Except Stop Options :=
  match classifyAll args with
  | .error why => .error (.usage why)
  | .ok words => do
    let r ← Reading.readAll {} words
    match r.fault? with
    | some why => .error (.usage why)
    | none => .ok (Options.ofReading r)

end SourceLinks.CommandLine
