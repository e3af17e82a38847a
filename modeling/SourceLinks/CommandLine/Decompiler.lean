import SourceLinks.ClassName
import SourceLinks.CommandLine.Words
import SourceLinks.Files.Tree
import SourceLinks.Text.Blank
import SourceLinks.Text.Raw
import SourceLinks.Text.Strict

namespace SourceLinks.CommandLine

/-- What a program that ran to its end left behind. -/
structure Outcome where
  status : Int
  output : List UInt8 := []
  errors : List UInt8 := []
deriving Repr, DecidableEq, Inhabited

/-- Why a decompiler could not be asked. -/
inductive DecompilerError where
  | words (why : WordError)
  /-- The command has no words. -/
  | empty
  | file (why : FileError)
  | undecodable (why : Utf8.DecodeError)
deriving Repr, DecidableEq, Inhabited

def DecompilerError.message : DecompilerError → String
  | .words why => why.message
  | .empty => "list index out of range"
  | .file why => why.message
  | .undecodable why => why.message

/-- What a decompiler says: source, or that it gave up. -/
inductive Decompiled where
  | source (text : RawText)
  | gaveUp (notice : List Char)
deriving Repr, DecidableEq, Inhabited

def Decompiled.source? : Decompiled → Option RawText
  | .source text => some text
  | .gaveUp _ => none

/-- An outside program that makes source of a class. -/
structure Decompiler where
  /-- The command; a mark in it stands for the file of the class. -/
  template : String
  /-- The directory of that file. -/
  scratch : Path
  files : FileTree
  /-- Runs a program that sees these files. -/
  execute : FileTree → List String → Except FileError Outcome

/-- The mark in a command that stands for the file of the class. -/
def classFileMark : List Char := "\x7bclass_file\x7d".toList

/-- Octets as a program's text, or why they are none. -/
def programText (bytes : List UInt8) : Except DecompilerError (List Char) :=
  match Utf8.decodeStrict bytes with
  | .ok cs => .ok (Text.withFeeds cs)
  | .error why => .error (.undecodable why)

/-- How much of a program's complaint is shown. -/
def complaintLimit : Nat := 200

def Outcome.read (o : Outcome) : Except DecompilerError Decompiled := do
  let output ← programText o.output
  let errors ← programText o.errors
  if o.status = 0 then return .source (RawText.ofChars output)
  else
    let complaint := (Text.trim errors).take complaintLimit
    return .gaveUp (s!"⚠️ decompiler exited with {o.status}: ".toList ++ complaint)

namespace Decompiler

def classFile (d : Decompiler) (name : String) : Path :=
  d.scratch ++ ⟨"", [ClassName.simple name ++ ".class"]⟩

/-- Asks the decompiler for the source of a class. -/
def ask (d : Decompiler) (name : String) (bytes : List UInt8) : Except DecompilerError Decompiled := do
  let file := d.classFile name
  let files ← ((d.files.put d.scratch.parts .directory).write file bytes).mapError .file
  let words ← (words d.template).mapError .words
  if words.isEmpty then throw .empty
  let fill := fun (w : String) => String.ofList (Text.replace classFileMark file.toString.toList w.toList)
  let outcome ← (d.execute files (words.map fill)).mapError .file
  outcome.read

end Decompiler
end SourceLinks.CommandLine
