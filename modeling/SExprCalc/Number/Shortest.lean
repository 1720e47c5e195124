import SExprCalc.Number.Fixed

/-!
# The fewest digits that read back

A decimal stands for a binary64 value when rounding it gives that value. `shortest` finds, for a
positive finite value, a decimal with as few digits as possible that stands for it, and of two with
equally many the nearer one. On the grid of decimals with a given last place only the two
neighbours of the value have to be tried: whatever else on that grid stands for the value lies
beyond one of them.

`Binary64.toShortest` lays the digits out: positional notation while the first digit stands between
the fourth place after the point and the sixteenth place before it, and scientific notation outside
that range.
-/

namespace SExprCalc

/-- The number `coefficient · 10 ^ exponent`. -/
structure Decimal where
  /-- the significant digits, as one whole number -/
  coefficient : Nat
  /-- the power of ten that the last digit counts -/
  exponent : Int
  deriving DecidableEq, Repr

namespace Decimal

/-- The binary64 value nearest to a decimal. -/
def toBinary64 (d : Decimal) : Binary64 :=
  if 0 ≤ d.exponent then
    .ofFraction false (d.coefficient * Nat.pow 10 d.exponent.toNat * Binary64.unitsPerOne) 1
  else
    .ofFraction false (d.coefficient * Binary64.unitsPerOne) (Nat.pow 10 (-d.exponent).toNat)

/-- The power of ten that the first digit of `n` units counts, for positive `n`. -/
def leading (n : Nat) : Int :=
  if Binary64.unitsPerOne ≤ n then
    ((Numeral.decimal (n / Binary64.unitsPerOne)).length : Int) - 1
  else
    -((Numeral.decimal ((Binary64.unitsPerOne - 1) / n)).length : Int)

/-- The two decimals around `n` units whose last digit counts `10 ^ exponent`, the nearer one
first. At equal distance that is the one with the even last digit. -/
def neighbours (n : Nat) (exponent : Int) : List Decimal :=
  let num := if 0 ≤ exponent then n else n * Nat.pow 10 (-exponent).toNat
  let den := if 0 ≤ exponent then Binary64.unitsPerOne * Nat.pow 10 exponent.toNat
    else Binary64.unitsPerOne
  let low := num / den
  if roundDiv num den = low then [⟨low, exponent⟩, ⟨low + 1, exponent⟩]
  else [⟨low + 1, exponent⟩, ⟨low, exponent⟩]

/-- The most digits that are ever needed to tell two binary64 values apart. -/
def enoughDigits : Nat := 17

/-- The shortest decimal that stands for the positive value of the given rank. If none of at most
`enoughDigits` digits did, it would be the exact decimal expansion. -/
def shortest (rank : Fin 0x7FF0000000000000) : Decimal :=
  let n := Binary64.units rank
  let found := (List.range enoughDigits).findSome? fun (more : Nat) =>
    (neighbours n (leading n - more)).find? fun d => d.toBinary64 == .finite false rank
  found.getD ⟨n * Nat.pow 5 1074, -1074⟩

/-- The digits of a decimal without trailing zeros, and the power of ten of the first of them. -/
def scientific (d : Decimal) : List Char × Int :=
  let all := Numeral.decimal d.coefficient
  ((all.reverse.dropWhile (· == '0')).reverse, d.exponent + all.length - 1)

/-- Positional notation is used while the first digit counts a power of ten in this range. -/
def positionalRange : Int × Int := (-4, 15)

/-- Positional notation, with at least one digit on either side of the point. -/
def positional (ds : List Char) (first : Int) : List Char :=
  if first < 0 then '0' :: '.' :: (List.replicate (-first - 1).toNat '0' ++ ds)
  else
    let whole := first.toNat + 1
    let fraction := ds.drop whole
    (ds.take whole ++ List.replicate (whole - ds.length) '0') ++
      '.' :: (if fraction = [] then ['0'] else fraction)

/-- Scientific notation: one digit before the point, no point without digits after it, and an
exponent with a sign and at least two digits. -/
def exponential (ds : List Char) (first : Int) : List Char :=
  let mantissa := match ds with
    | d :: e :: more => d :: '.' :: e :: more
    | _ => ds
  mantissa ++ 'e' :: (if first < 0 then '-' else '+') ::
    (Numeral.decimal first.natAbs).leftpad 2 '0'

/-- The text of a positive decimal. -/
def layout (d : Decimal) : List Char :=
  let (ds, first) := d.scientific
  if positionalRange.1 ≤ first ∧ first ≤ positionalRange.2 then positional ds first
  else exponential ds first

end Decimal

/-- The text of a value with the fewest digits that read back. -/
def Binary64.toShortest : Binary64 → String
  | nan => "nan"
  | infinite negative => String.ofList (Numeral.sign negative ++ ['i', 'n', 'f'])
  | finite negative rank =>
    String.ofList (Numeral.sign negative ++
      if rank.val = 0 then ['0', '.', '0'] else (Decimal.shortest rank).layout)

end SExprCalc
