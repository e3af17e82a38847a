import SourceLinks.Text.Blank
import SourceLinks.Text.Split

namespace SourceLinks.CommandLine

/-- What can be said on the command line. -/
inductive Flag where
  | help
  | dotenv
  | archive
  | className
  | owner
  | source
  | command
  | out
  | graph
  | verbose
deriving Repr, DecidableEq, Inhabited

namespace Flag

def all : List Flag :=
  [help, dotenv, archive, className, owner, source, command, out, graph, verbose]

def spellings : Flag → List String
  | help => ["-h", "--help"]
  | dotenv => ["--dotenv"]
  | archive => ["--archive"]
  | className => ["--class"]
  | owner => ["--owner"]
  | source => ["--source"]
  | command => ["--decompiler-cmd"]
  | out => ["--out"]
  | graph => ["--graphml"]
  | verbose => ["-v", "--verbose"]

/-- A flag as messages name it. -/
def name (f : Flag) : String :=
  "/".intercalate f.spellings

def takesValue : Flag → Bool
  | help | verbose => false
  | _ => true

/-- The stand-in for a flag's value. -/
def placeholder : Flag → String
  | dotenv => "DOTENV"
  | archive => "ARCHIVE"
  | className => "CLASS_NAME"
  | owner => "OWNER"
  | source => "SOURCE"
  | command => "DECOMPILER_CMD"
  | out => "OUT"
  | graph => "GRAPHML"
  | help | verbose => ""

def explanation : Flag → String
  | help => "show this help message and exit"
  | dotenv => "Optional .env path (default: .env)"
  | archive => "Jar or class directory; repeat in load order"
  | className => "Internal class name, e.g. com/example/Foo"
  | owner => "Archive id owning the class (default: first archive that has it)"
  | source => "Already decompiled .java text for the class"
  | command => "Decompiler command line; \x7bclass_file\x7d is replaced by the class path"
  | out => "Write links JSON here (default: stdout)"
  | graph => "Also export the cross-reference graph as GraphML"
  | verbose => ""

/-- A flag with the stand-in for its value. -/
def written (f : Flag) (spelling : String) : String :=
  if f.takesValue then spelling ++ " " ++ f.placeholder else spelling

/-- Flags without which there is nothing to do. -/
def required : List Flag := [archive, className]

/-- Exactly one of these has to be given. -/
def exclusive : List Flag := [source, command]

/-- Every spelling with its flag. -/
def spelled : List (String × Flag) :=
  all.flatMap fun f => f.spellings.map fun s => (s, f)

def ofSpelling? (s : String) : Option Flag :=
  spelled.lookup s

/-- The flags that an abbreviation may stand for, as they are spelled. -/
def abbreviated (short : String) : List (String × Flag) :=
  spelled.filter fun s => short.toList.isPrefixOf s.1.toList

end Flag

/-- The width of a help text, and the column at which explanations start. -/
def helpWidth : Nat := 78

def helpColumn : Nat := 24

/-- Words joined to lines that are no wider than `width`, unless a word alone is. -/
def fillLines (width : Nat) (line : List Char) : List (List Char) → List (List Char)
  | [] => if line.isEmpty then [] else [line]
  | word :: rest =>
    if line.isEmpty then fillLines width word rest
    else if width < line.length + 1 + word.length then line :: fillLines width word rest
    else fillLines width (line ++ ' ' :: word) rest

/-- Spellings on the left and their explanation on the right, on a line of its own if there is no
room for it. -/
def Flag.helpLines (f : Flag) : List (List Char) :=
  let left := ("  " ++ ", ".intercalate (f.spellings.map f.written)).toList
  let margin := List.replicate helpColumn ' '
  match fillLines (helpWidth - helpColumn) [] (Text.words f.explanation.toList) with
  | [] => [left]
  | first :: rest =>
    let rest := rest.map (margin ++ ·)
    if left.length + 2 ≤ helpColumn then
      (left ++ List.replicate (helpColumn - left.length) ' ' ++ first) :: rest
    else left :: (margin ++ first) :: rest

def Flag.brief (f : Flag) : String :=
  let word := f.written (f.spellings.headD "")
  if f ∈ Flag.required then word else "[" ++ word ++ "]"

/-- The command line in brief; one of the flags that exclude each other stands for all. -/
def usageParts : List String :=
  Flag.all.filterMap fun f =>
    if f ∉ Flag.exclusive then some f.brief
    else if some f ≠ Flag.exclusive.head? then none
    else some ("(" ++ " | ".intercalate (Flag.exclusive.map fun g => g.written (g.spellings.headD ""))
      ++ ")")

def helpText : List Char :=
  let usage := fillLines helpWidth [] ("usage: source-links".toList :: usageParts.map String.toList)
  Text.joinWith ['\n'] (usage ++ [[], "Resolve cross-reference links in decompiled Java source".toList,
    [], "options:".toList] ++ Flag.all.flatMap Flag.helpLines)

end SourceLinks.CommandLine
