import SExprCalc.Number.Literal
import SExprCalc.Text.Blank
import SExprCalc.Text.Digit

/-!
# Integers in settings

The integer syntax of settings is more liberal than that of the language: white space around the
number, either sign, digits of any script mixed freely, and single underscores between two digits.
The bound on the number of digits is the same.
-/

namespace SExprCalc.Text

/-- The values of a run of one or more digits in which single underscores may stand between two
digits. -/
def digits? : List Char → Option (List Nat)
  | [] => none
  | [c] => (digit? c).map ([·])
  | c :: '_' :: more => do
    let d ← digit? c
    let ds ← digits? more
    some (d :: ds)
  | c :: more => do
    let d ← digit? c
    let ds ← digits? more
    some (d :: ds)

/-- The number that digits denote, the first being the most significant. -/
def ofDigits (ds : List Nat) : Nat := ds.foldl (fun n d => 10 * n + d) 0

/-- An integer without a sign. -/
def natural? (text : List Char) : Option Nat := do
  let ds ← digits? text
  if ds.length ≤ Literal.maxDigits then some (ofDigits ds) else none

/-- An integer with an optional sign. -/
def integer? : List Char → Option Int
  | '+' :: more => (natural? more).map fun (n : Nat) => (n : Int)
  | '-' :: more => (natural? more).map fun (n : Nat) => -(n : Int)
  | text => (natural? text).map fun (n : Nat) => (n : Int)

end SExprCalc.Text
