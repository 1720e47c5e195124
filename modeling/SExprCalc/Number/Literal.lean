import SExprCalc.Number.Binary64

/-!
# Number literals

A literal is an optional minus sign and decimal digits. It denotes an integer, and so the binary64
value nearest to that integer. Two bounds apply: at most `Literal.maxDigits` digits, leading zeros
counted, and no value that rounds beyond the largest finite one.
-/

namespace SExprCalc.Literal

/-- The longest run of digits that is read as an integer. -/
def maxDigits : Nat := 4300

/-- Splits a literal into "has a minus sign" and its digits. -/
def split : List Char → Bool × List Char
  | '-' :: digits => (true, digits)
  | digits => (false, digits)

/-- The integer that a sign and a run of decimal digits denote. -/
def integer (negative : Bool) (digits : List Char) : Int :=
  if negative then -(Nat.ofDigitChars 10 digits 0 : Int) else Nat.ofDigitChars 10 digits 0

/-- The value of a literal, given as an optional minus sign and decimal digits. There is none
without digits, with more than `maxDigits` of them, or when the integer rounds beyond the largest
finite value. -/
def value? (text : List Char) : Option Binary64 :=
  let (negative, digits) := split text
  if digits = [] ∨ maxDigits < digits.length then none
  else match Binary64.ofInt (integer negative digits) with
    | .finite s rank => some (.finite s rank)
    | _ => none

end SExprCalc.Literal
