import SExprCalc.Number.Binary64

/-!
# Fixed-point text

A finite value is written with a fixed number of decimal places, correctly rounded from its exact
binary value. All digits of the integer part are exact, however many there are, and the sign of a
zero, or of a value that rounds to zero, is kept.
-/

namespace SExprCalc

namespace Numeral

/-- The decimal digits of a natural number, without superfluous zeros. -/
def decimal (n : Nat) : List Char := Nat.toDigits 10 n

/-- A whole number of `10 ^ (-places)`, written with a point and all its places. -/
def fixed (places n : Nat) : List Char :=
  decimal (n / Nat.pow 10 places) ++ '.' :: (decimal (n % Nat.pow 10 places)).leftpad places '0'

/-- A minus sign, or nothing. -/
def sign (negative : Bool) : List Char := if negative then ['-'] else []

end Numeral

/-- The text of a value with a fixed number of decimal places, a half going to the even digit. -/
def Binary64.toFixed (places : Nat) : Binary64 → String
  | nan => "nan"
  | infinite negative => String.ofList (Numeral.sign negative ++ ['i', 'n', 'f'])
  | finite negative rank =>
    let n := roundDiv (units rank * Nat.pow 10 places) unitsPerOne
    String.ofList (Numeral.sign negative ++ Numeral.fixed places n)

end SExprCalc
