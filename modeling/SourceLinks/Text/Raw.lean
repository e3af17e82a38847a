namespace SourceLinks

/-- A character of text as a tool delivers it: a scalar value, or half of a surrogate pair that
stands alone. -/
inductive RawChar where
  | scalar (c : Char)
  | surrogate (code : Nat)
deriving Repr, DecidableEq, Inhabited

abbrev RawText := List RawChar

namespace RawChar

def code : RawChar → Nat
  | .scalar c => c.toNat
  | .surrogate n => n

def ofCode (n : Nat) : RawChar :=
  if 0xD800 ≤ n ∧ n ≤ 0xDFFF then .surrogate n else .scalar (Char.ofNat n)

/-- A lone surrogate has no encoding, so U+FFFD takes its place. -/
def toChar : RawChar → Char
  | .scalar c => c
  | .surrogate _ => Char.ofNat 0xFFFD

def scalar? : RawChar → Option Char
  | .scalar c => some c
  | .surrogate _ => none

end RawChar

namespace RawText

def ofChars (cs : List Char) : RawText :=
  cs.map RawChar.scalar

def ofString (s : String) : RawText :=
  ofChars s.toList

/-- The text as a string, if every character is a scalar value. -/
def toString? (t : RawText) : Option String :=
  (t.mapM RawChar.scalar?).map String.ofList

def isReturn : RawChar → Bool
  | .scalar '\r' => true
  | _ => false

def isFeed : RawChar → Bool
  | .scalar '\n' => true
  | _ => false

/-- `pending` carriage returns have been read and not yet written. A line feed swallows them all;
before anything else each one is a line break of its own. -/
def unifyFrom (pending : Nat) : RawText → RawText
  | [] => List.replicate pending (.scalar '\n')
  | c :: rest =>
    if isReturn c then unifyFrom (pending + 1) rest
    else if isFeed c then .scalar '\n' :: unifyFrom 0 rest
    else List.replicate pending (.scalar '\n') ++ c :: unifyFrom 0 rest

/-- Every line ending becomes one line feed. -/
def unifyBreaks (t : RawText) : RawText :=
  unifyFrom 0 t

/-- Text with line feeds as its only line endings and no lone surrogates. -/
def normalize (t : RawText) : List Char :=
  (unifyBreaks t).map RawChar.toChar

end RawText
end SourceLinks
