/-!
# Rounding a quotient

One rule of rounding serves the whole library: to the nearest whole number, a half going to the
even neighbour. Arithmetic uses it on a grid of binary units, the decimal printers on a grid of
powers of ten.
-/

namespace SExprCalc

/-- The whole number nearest to `num / den`; a half goes to the even neighbour. -/
def roundDiv (num den : Nat) : Nat :=
  if 2 * (num % den) < den then num / den
  else if den < 2 * (num % den) then num / den + 1
  else num / den + num / den % 2

end SExprCalc
