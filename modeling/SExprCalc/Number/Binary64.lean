import SExprCalc.Number.Rounding

/-!
# Binary64 numbers

The numbers of the language are IEEE 754 binary64 values, held exactly rather than by the
machine's own floating point, so that every operation is open to proof.

A finite value is a sign and a **rank**: its place when the non-negative finite values are counted
upward from zero. Every finite magnitude is a whole number of **units** of `2 ^ (-1074)`, the least
positive one. The exact sum, product and quotient of two finite values are therefore fractions of
natural numbers, and `ofFraction` rounds all of them:

* below `2 ^ 53` units the rank *is* the number of units;
* above, the units thin out by a power of two at each doubling, while ranks stay consecutive, so a
  carry of the significand into the next power of two needs no case of its own.

All NaNs are one value: the language never tells two of them apart.
-/

namespace SExprCalc

/-- A binary64 value, with a single NaN. The `2047 · 2 ^ 52` finite ranks are those below the
encoding of infinity. -/
inductive Binary64 where
  /-- not a number -/
  | nan : Binary64
  /-- an infinity -/
  | infinite (negative : Bool) : Binary64
  /-- a finite value: a sign, and the rank of its magnitude -/
  | finite (negative : Bool) (rank : Fin 0x7FF0000000000000) : Binary64
  deriving DecidableEq, Repr

namespace Binary64

/-- How many units make up the number one: `2 ^ 1074`. -/
def unitsPerOne : Nat := 1 <<< 1074

/-- The magnitude of a given rank, in units of `2 ^ (-1074)`. The upper bits of a rank count the
doublings above the subnormal range and the lower 52 are the fraction. -/
def units (rank : Nat) : Nat :=
  if rank < 0x10000000000000 then rank
  else (0x10000000000000 + rank % 0x10000000000000) <<< (rank / 0x10000000000000 - 1)

/-- The rank of the magnitude nearest to `num / den` units, ties to even. It may lie beyond the
largest finite rank. -/
def rankOfFraction (num den : Nat) : Nat :=
  let shift := (num / den).log2 - 52
  shift * 0x10000000000000 + roundDiv num (den <<< shift)

/-- The value of the given sign whose magnitude is nearest to `num / den` units, ties to even;
an infinity if that magnitude rounds beyond the largest finite one. -/
def ofFraction (negative : Bool) (num den : Nat) : Binary64 :=
  if h : rankOfFraction num den < 0x7FF0000000000000 then
    finite negative ⟨rankOfFraction num den, h⟩
  else infinite negative

/-- The zero of a given sign. -/
def zero (negative : Bool) : Binary64 := finite negative ⟨0, by decide⟩

/-- The value nearest to an integer, ties to even. Zero is positive. -/
def ofInt (n : Int) : Binary64 := ofFraction (n < 0) (n.natAbs * unitsPerOne) 1

/-- Zero of either sign. -/
def isZero : Binary64 → Bool
  | finite _ rank => rank.val == 0
  | _ => false

/-- Whether a value is not a number. -/
def isNaN : Binary64 → Bool
  | nan => true
  | _ => false

/-- The sign of a value; NaN counts as positive. -/
def isNegative : Binary64 → Bool
  | nan => false
  | infinite negative => negative
  | finite negative _ => negative

/-- The first value with the sign of the second. -/
def copySign : Binary64 → Binary64 → Binary64
  | nan, _ => nan
  | infinite _, y => infinite y.isNegative
  | finite _ rank, y => finite y.isNegative rank

/-- The units of a finite value, with their sign. -/
def signedUnits (negative : Bool) (rank : Nat) : Int :=
  if negative then -(units rank : Int) else units rank

/-! ### Arithmetic -/

/-- Addition. A sum of exactly zero is negative only when both terms are. -/
def add : Binary64 → Binary64 → Binary64
  | nan, _ => nan
  | _, nan => nan
  | infinite a, infinite b => if a = b then infinite a else nan
  | infinite a, finite _ _ => infinite a
  | finite _ _, infinite b => infinite b
  | finite a r, finite b s =>
    let total := signedUnits a r + signedUnits b s
    if total = 0 then zero (a && b) else ofFraction (total < 0) total.natAbs 1

/-- Multiplication. The sign is negative exactly when the signs of the factors differ. -/
def mul : Binary64 → Binary64 → Binary64
  | nan, _ => nan
  | _, nan => nan
  | infinite a, infinite b => infinite (a ^^ b)
  | infinite a, finite b s => if s.val = 0 then nan else infinite (a ^^ b)
  | finite a r, infinite b => if r.val = 0 then nan else infinite (a ^^ b)
  | finite a r, finite b s => ofFraction (a ^^ b) (units r * units s) unitsPerOne

/-- The quotient of two values. There is none by a zero of either sign, whatever the dividend. -/
def quotient? (x y : Binary64) : Option Binary64 :=
  if y.isZero then none
  else some (match x, y with
    | nan, _ => nan
    | _, nan => nan
    | infinite _, infinite _ => nan
    | infinite a, finite b _ => infinite (a ^^ b)
    | finite a _, infinite b => zero (a ^^ b)
    | finite a r, finite b s => ofFraction (a ^^ b) (units r * unitsPerOne) (units s))

/-- Division, defined on every pair. By zero, a zero or NaN gives NaN; any other dividend lends its
sign to an infinity, which is multiplied by a one with the sign of the divisor. -/
def div (x y : Binary64) : Binary64 :=
  match quotient? x y with
  | some q => q
  | none =>
    if x.isZero || x.isNaN then nan
    else mul (copySign (infinite false) x) (copySign (ofInt 1) y)

/-- Numeric equality: NaN differs from everything, and the two zeros are equal. -/
def equal : Binary64 → Binary64 → Bool
  | nan, _ => false
  | _, nan => false
  | infinite a, infinite b => a == b
  | infinite _, finite _ _ => false
  | finite _ _, infinite _ => false
  | finite a r, finite b s => r.val == s.val && (a == b || r.val == 0)

/-! ### The 64-bit encoding -/

/-- The encoding as a 64-bit word, given as a natural number: the sign is the highest bit, and a
rank encodes itself. -/
def toBits : Binary64 → Nat
  | nan => 0x7FF8000000000000
  | infinite negative => (if negative then 0x8000000000000000 else 0) + 0x7FF0000000000000
  | finite negative rank => (if negative then 0x8000000000000000 else 0) + rank.val

/-- The value that a 64-bit word encodes. -/
def ofBits (word : Nat) : Binary64 :=
  let negative := word / 0x8000000000000000 % 2 == 1
  let magnitude := word % 0x8000000000000000
  if h : magnitude < 0x7FF0000000000000 then finite negative ⟨magnitude, h⟩
  else if magnitude = 0x7FF0000000000000 then infinite negative
  else nan

/-- Decoding undoes encoding. -/
@[simp] theorem ofBits_toBits (x : Binary64) : ofBits x.toBits = x := by
  cases x with
  | nan => decide
  | infinite negative => cases negative <;> decide
  | finite negative rank =>
    obtain ⟨rank, h⟩ := rank
    cases negative with
    | false =>
      have hs : ((0 + rank) / 0x8000000000000000 % 2 == 1) = false := by
        rw [Nat.div_eq_of_lt (by omega)]
        rfl
      have hm : (0 + rank) % 0x8000000000000000 = rank := by omega
      change ofBits (0 + rank) = _
      unfold ofBits
      simp only [hs, hm, dif_pos h]
    | true =>
      have hs : ((0x8000000000000000 + rank) / 0x8000000000000000 % 2 == 1) = true := by
        rw [show (0x8000000000000000 + rank) / 0x8000000000000000 = 1 by omega]
        rfl
      have hm : (0x8000000000000000 + rank) % 0x8000000000000000 = rank := by omega
      change ofBits (0x8000000000000000 + rank) = _
      unfold ofBits
      simp only [hs, hm, dif_pos h]

/-- In the subnormal range a rank is its own number of units. -/
theorem units_of_lt {rank : Nat} (h : rank < 0x10000000000000) : units rank = rank := by
  unfold units
  exact if_pos h

end Binary64

end SExprCalc
