import SourceLinks.Text.Digit

namespace SourceLinks.Text

/-- Longer numbers are refused. -/
def maxDigits : Nat := 4300

/-- Digits of any script with single underscores between them. `fresh` says that a digit must come
next; `count` digits with this value were read. -/
def digitsFrom (fresh : Bool) (count value : Nat) : List Char → Option (Nat × Nat)
  | [] => if fresh then none else some (count, value)
  | c :: rest =>
    if c = '_' then if fresh then none else digitsFrom true count value rest
    else
      match digit? c with
      | some d => digitsFrom false (count + 1) (value * 10 + d) rest
      | none => none

def natural? (cs : List Char) : Option Nat :=
  match digitsFrom true 0 0 cs with
  | some (count, value) => if count ≤ maxDigits then some value else none
  | none => none

/-- A decimal number with an optional sign. -/
def integer? : List Char → Option Int
  | '-' :: rest => (natural? rest).map fun n => -(n : Int)
  | '+' :: rest => (natural? rest).map Int.ofNat
  | cs => (natural? cs).map Int.ofNat

end SourceLinks.Text
