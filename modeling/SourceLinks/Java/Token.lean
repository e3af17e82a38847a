import SourceLinks.Text.Identifier
import SourceLinks.Text.Utf8

namespace SourceLinks.Java

inductive TokenKind where
  | word
  | symbol
  /-- A literal or comment, with the kind of node it is. -/
  | leaf (node : String)
  | comment (node : String)
deriving Repr, DecidableEq, Inhabited

/-- A token and the octets it covers. -/
structure Token where
  kind : TokenKind
  text : String
  start : Nat
  stop : Nat
deriving Repr, DecidableEq, Inhabited

/-- What a token is, and how many characters it has. -/
abbrev Lexeme := TokenKind × Nat

def isSpace (c : Char) : Bool :=
  c == ' ' || (9 ≤ c.toNat && c.toNat ≤ 13)

/-- The length of a comment that opened two characters before. -/
def blockLength? (n : Nat) : List Char → Option Nat
  | '*' :: '/' :: _ => some (n + 2)
  | _ :: rest => blockLength? (n + 1) rest
  | [] => none

/-- The length of a quoted literal, of which `n` characters were read. A backslash takes the next
character with it. -/
def quotedLength? (close : List Char) (escaped : Bool) (n : Nat) : List Char → Option Nat
  | [] => none
  | c :: rest =>
    if escaped then quotedLength? close false (n + 1) rest
    else if c = '\\' then quotedLength? close true (n + 1) rest
    else if close.isPrefixOf (c :: rest) then some (n + close.length)
    else quotedLength? close false (n + 1) rest

def isNumeral (c : Char) : Bool :=
  c.isDigit || c == '_'

def isRadixNumeral (c : Char) : Bool :=
  c.isAlphanum || c == '_'

/-- The length of an exponent, if one stands here. -/
def exponentLength : List Char → Nat
  | e :: s :: d :: rest =>
    if e == 'e' || e == 'E' then
      if (s == '+' || s == '-') && d.isDigit then 3 + (rest.takeWhile isNumeral).length
      else if s.isDigit then 2 + ((d :: rest).takeWhile isNumeral).length
      else 0
    else 0
  | [e, d] => if (e == 'e' || e == 'E') && d.isDigit then 2 else 0
  | _ => 0

/-- The length of a fraction with its point, if one stands here. -/
def fractionLength : List Char → Nat
  | '.' :: rest =>
    match rest with
    | c :: _ =>
      if c.isDigit then 1 + (rest.takeWhile isNumeral).length
      else if "fFdDeE".toList.contains c then 1
      else if c == '.' || Text.isIdentifierStart c then 0
      else 1
    | [] => 1
  | _ => 0

/-- What a hexadecimal number is and the length of its digits: one with a point or a signed exponent
has a fraction. -/
def hexLexeme (cs : List Char) : Lexeme :=
  let whole := (cs.takeWhile isRadixNumeral).length
  let fraction :=
    match cs.drop whole with
    | '.' :: c :: rest => if isRadixNumeral c then 2 + (rest.takeWhile isRadixNumeral).length else 0
    | _ => 0
  let size := whole + fraction
  match cs.drop (size - 1) with
  | p :: s :: d :: rest =>
    if (p == 'p' || p == 'P') && (s == '+' || s == '-') && d.isDigit then
      (.leaf "hex_floating_point_literal", size + 2 + (rest.takeWhile isRadixNumeral).length)
    else kind fraction size
  | _ => kind fraction size
where
  kind (fraction size : Nat) : Lexeme :=
    (.leaf (if 0 < fraction then "hex_floating_point_literal" else "hex_integer_literal"), size)

/-- A number that starts with a digit, or with a point before one. -/
def numberLexeme (cs : List Char) : Lexeme :=
  match cs with
  | '0' :: r :: rest =>
    if r == 'x' || r == 'X' then
      let (kind, size) := hexLexeme rest
      (kind, 2 + size)
    else if r == 'b' || r == 'B' then
      (.leaf "binary_integer_literal", 2 + (rest.takeWhile isRadixNumeral).length)
    else decimal cs
  | _ => decimal cs
where
  decimal (cs : List Char) : Lexeme :=
    let whole := (cs.takeWhile isNumeral).length
    let fraction := fractionLength (cs.drop whole)
    let exponent := exponentLength (cs.drop (whole + fraction))
    let size := whole + fraction + exponent
    match cs.drop size with
    | c :: _ =>
      if "fFdD".toList.contains c then (.leaf "decimal_floating_point_literal", size + 1)
      else if fraction + exponent > 0 then (.leaf "decimal_floating_point_literal", size)
      else
        let kind :=
          if whole > 1 && cs.head? == some '0' then "octal_integer_literal"
          else "decimal_integer_literal"
        (.leaf kind, if c == 'l' || c == 'L' then size + 1 else size)
    | [] =>
      if fraction + exponent > 0 then (.leaf "decimal_floating_point_literal", size)
      else (.leaf "decimal_integer_literal", size)

/-- Symbols of more than one character, the longer first. A closing angle is always alone, since it
may close a list of type arguments. -/
def longSymbols : List (List Char) :=
  ["<<=", "...", "->", "::", "++", "--", "&&", "||", "==", "!=", "<=", "<<", "+=", "-=", "*=", "/=",
    "&=", "|=", "^=", "%="].map String.toList

def symbolChars : List Char :=
  "()\x7b\x7d[]<>;,.@=+-*/%&|^!~?:".toList

/-- The token at the front of a text that starts with no blank. -/
def lexeme? (cs : List Char) : Option Lexeme :=
  match cs with
  | [] => none
  | '/' :: '/' :: rest => some (.comment "line_comment", 2 + (rest.takeWhile (· != '\n')).length)
  | '/' :: '*' :: rest =>
    match blockLength? 0 rest with
    | some n => some (.comment "block_comment", 2 + n)
    | none => some (.symbol, 1)
  | '"' :: '"' :: '"' :: rest =>
    (quotedLength? ['"', '"', '"'] false 3 rest).map fun n => (.leaf "string_literal", n)
  | '"' :: rest => (quotedLength? ['"'] false 1 rest).map fun n => (.leaf "string_literal", n)
  | '\x27' :: rest =>
    match quotedLength? ['\x27'] false 1 rest with
    | some n =>
      if n ≤ 2 || (rest.take n).contains '\n' then none else some (.leaf "character_literal", n)
    | none => none
  | c :: rest =>
    if Text.isIdentifierStart c then some (.word, 1 + (rest.takeWhile Text.isIdentifierRest).length)
    else if c.isDigit || (c == '.' && (rest.head?.any Char.isDigit)) then some (numberLexeme cs)
    else
      match longSymbols.find? fun s => s.isPrefixOf cs with
      | some s => some (.symbol, s.length)
      | none => if symbolChars.contains c then some (.symbol, 1) else none

/-- The tokens of a text from an octet on; each takes at least one unit of fuel. -/
def tokensFrom : (fuel : Nat) → (start : Nat) → List Char → Option (List Token)
  | 0, _, _ => none
  | _ + 1, _, [] => some []
  | fuel + 1, start, c :: rest =>
    if isSpace c then tokensFrom fuel (start + 1) rest
    else
      match lexeme? (c :: rest) with
      | none => none
      | some (kind, n) =>
        let cs := (c :: rest).take n
        let stop := start + (Utf8.encode cs).length
        (tokensFrom fuel stop ((c :: rest).drop n)).map (⟨kind, String.ofList cs, start, stop⟩ :: ·)

/-- The tokens of a text, unless some of it is no token. A mark of the octet order may come first. -/
def tokens? (cs : List Char) : Option (List Token) :=
  match cs with
  | c :: rest =>
    if c.toNat = 0xFEFF then tokensFrom (cs.length + 1) 3 rest else tokensFrom (cs.length + 1) 0 cs
  | [] => some []

end SourceLinks.Java
