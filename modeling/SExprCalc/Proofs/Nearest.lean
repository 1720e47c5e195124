import Mathlib.Algebra.Group.Nat.Even
import Mathlib.Algebra.Order.Field.Basic
import Mathlib.Algebra.Order.Field.Rat
import Mathlib.Order.Monotone.Basic
import Mathlib.Tactic.Linarith
import Mathlib.Tactic.Ring
import SExprCalc.Number.Binary64

/-!
# Rounding to the nearest

Rounding is understood through an ascending sequence of rational numbers: the terms are what can be
represented, and the index of the term nearest to a number is its rounding (`NearestEven`). If two
terms are equally near, the even index is taken. Both roundings of the library are of this kind:

* `roundDiv` rounds a quotient on the sequence of the whole numbers (`nearestEven_roundDiv`);
* `Binary64.rankOfFraction` rounds one on the sequence of the magnitudes of binary64, counted in
  units (`nearestEven_rankOfFraction`).

A number lies between two neighbouring terms, and only these have to be compared. For binary64 the
neighbours of a number are equally spaced whole multiples of a power of two even where the spacing
changes, because a rank and its successor are always `m · 2 ^ shift` and `(m + 1) · 2 ^ shift` for
one `shift` (`units_shift`). So rounding the quotient on that grid rounds it to a rank.
-/

namespace SExprCalc

variable {f : ℕ → ℚ} {x : ℚ} {r s : ℕ}

/-- Of the terms of a sequence the one with this index is nearest to a number, and if another one is
as near, then this index is even. -/
structure NearestEven (f : ℕ → ℚ) (x : ℚ) (r : ℕ) : Prop where
  /-- no term is nearer -/
  nearest : ∀ s, |f r - x| ≤ |f s - x|
  /-- a tie goes to the even index -/
  even : ∀ s, s ≠ r → |f s - x| = |f r - x| → Even r

/-! ### Between two neighbours -/

/-- Below a number, the higher of two terms is nearer. -/
theorem abs_sub_lt_of_lt (hf : StrictMono f) (hr : f r ≤ x) (hs : s < r) :
    |f r - x| < |f s - x| := by
  have hbelow : f s < f r := hf hs
  rw [abs_of_nonpos (by linarith), abs_of_nonpos (by linarith)]
  linarith

/-- Above a number, the lower of two terms is nearer. -/
theorem abs_sub_lt_of_gt (hf : StrictMono f) (hr : x ≤ f r) (hs : r < s) :
    |f r - x| < |f s - x| := by
  have habove : f r < f s := hf hs
  rw [abs_of_nonneg (by linarith), abs_of_nonneg (by linarith)]
  linarith

/-- Of two neighbours around a number, the nearer one is the nearest term of all. -/
theorem nearestEven_of_neighbours (hf : StrictMono f) (hlow : f r ≤ x) (hhigh : x ≤ f (r + 1))
    {a b : ℕ} (hab : a = r ∧ b = r + 1 ∨ a = r + 1 ∧ b = r) (hle : |f a - x| ≤ |f b - x|)
    (heven : |f b - x| = |f a - x| → Even a) : NearestEven f x a := by
  have hfar (s : ℕ) (hsa : s ≠ a) (hsb : s ≠ b) : |f a - x| < |f s - x| := by
    have hside : s < r ∨ r + 1 < s := by omega
    rcases hside with hs | hs
    · have hr := abs_sub_lt_of_lt hf hlow hs
      rcases hab with ⟨rfl, rfl⟩ | ⟨rfl, rfl⟩
      · exact hr
      · exact hle.trans_lt hr
    · have hr := abs_sub_lt_of_gt hf hhigh hs
      rcases hab with ⟨rfl, rfl⟩ | ⟨rfl, rfl⟩
      · exact hle.trans_lt hr
      · exact hr
  refine ⟨fun s => ?_, fun s hne heq => ?_⟩
  · by_cases hsa : s = a
    · rw [hsa]
    · by_cases hsb : s = b
      · rwa [hsb]
      · exact (hfar s hsa hsb).le
  · by_cases hsb : s = b
    · exact heven (hsb ▸ heq)
    · exact absurd heq (hfar s hne hsb).ne'

/-- In the lower half of the way to the next term, the lower neighbour is nearest. -/
theorem nearestEven_lower (hf : StrictMono f) (hr : f r ≤ x) (hle : 2 * x ≤ f r + f (r + 1))
    (htie : 2 * x = f r + f (r + 1) → Even r) : NearestEven f x r := by
  have hhigh : x ≤ f (r + 1) := by linarith
  have hdown : |f r - x| = x - f r := by rw [abs_of_nonpos (by linarith), neg_sub]
  have hup : |f (r + 1) - x| = f (r + 1) - x := abs_of_nonneg (by linarith)
  refine nearestEven_of_neighbours hf hr hhigh (.inl ⟨rfl, rfl⟩) ?_ ?_
  · rw [hdown, hup]
    linarith
  · rw [hdown, hup]
    exact fun h => htie (by linarith)

/-- In the upper half of the way to the next term, the upper neighbour is nearest. -/
theorem nearestEven_upper (hf : StrictMono f) (hr : x ≤ f (r + 1))
    (hle : f r + f (r + 1) ≤ 2 * x) (htie : 2 * x = f r + f (r + 1) → Even (r + 1)) :
    NearestEven f x (r + 1) := by
  have hlow : f r ≤ x := by linarith
  have hdown : |f r - x| = x - f r := by rw [abs_of_nonpos (by linarith), neg_sub]
  have hup : |f (r + 1) - x| = f (r + 1) - x := abs_of_nonneg (by linarith)
  refine nearestEven_of_neighbours hf hlow hr (.inr ⟨rfl, rfl⟩) ?_ ?_
  · rw [hdown, hup]
    linarith
  · rw [hdown, hup]
    exact fun h => htie (by linarith)

/-! ### What the nearest term tells -/

namespace NearestEven

/-- A number that is a term is its own rounding. -/
theorem eq_of_term (h : NearestEven f x r) (hf : StrictMono f) (hs : f s = x) : r = s := by
  have hzero := h.nearest s
  rw [hs, sub_self, abs_zero, abs_nonpos_iff, sub_eq_zero] at hzero
  exact hf.injective (hzero.trans hs.symm)

/-- Rounding does not go below a term that the number is not below. -/
theorem le_of_term_le (h : NearestEven f x r) (hf : StrictMono f) (hs : f s ≤ x) : s ≤ r := by
  by_contra hlt
  exact (h.nearest s).not_gt (abs_sub_lt_of_lt hf hs (Nat.lt_of_not_le hlt))

/-- Nearness does not depend on the unit of measure. -/
theorem scale (h : NearestEven f x r) {c : ℚ} (hc : 0 < c) :
    NearestEven (fun s => f s / c) (x / c) r := by
  have hdist (s : ℕ) : |f s / c - x / c| = |f s - x| / c := by
    rw [← sub_div, div_eq_mul_inv, abs_mul, abs_of_pos (inv_pos.mpr hc), ← div_eq_mul_inv]
  refine ⟨fun s => ?_, fun s hne heq => ?_⟩
  · rw [hdist, hdist]
    exact div_le_div_of_nonneg_right (h.nearest s) hc.le
  · rw [hdist, hdist, div_left_inj' hc.ne'] at heq
    exact h.even s hne heq

/-- Rounding reaches an even index exactly from the middle between that term and the one before. -/
theorem succ_le_iff (h : NearestEven f x r) (hf : StrictMono f) (heven : Even (s + 1)) :
    s + 1 ≤ r ↔ f s + f (s + 1) ≤ 2 * x := by
  have hstep : f s < f (s + 1) := hf (Nat.lt_succ_self s)
  constructor
  · intro hle
    have habove : f (s + 1) ≤ f r := hf.monotone hle
    have hnearest := h.nearest s
    have hfirst := le_abs_self (f r - x)
    rcases abs_cases (f s - x) with ⟨heq, -⟩ | ⟨heq, -⟩ <;> linarith
  · intro hmiddle
    by_contra hlt
    have hbelow : f r ≤ f s := hf.monotone (by omega)
    have hnearest := h.nearest (s + 1)
    have hfirst := neg_le_abs (f r - x)
    rcases abs_cases (f (s + 1) - x) with ⟨heq, -⟩ | ⟨heq, -⟩
    · -- exactly in the middle, the tie would have gone to the odd index
      have hsame : r = s := hf.injective (by linarith)
      subst hsame
      have htie : |f (r + 1) - x| = |f r - x| := by
        rw [heq, abs_of_nonpos (by linarith)]
        linarith
      have := h.even (r + 1) (Nat.succ_ne_self r) htie
      rw [Nat.even_add_one] at heven
      exact heven this
    · linarith

end NearestEven

/-! ### Quotients -/

variable {num den : ℕ}

/-- What a quotient is rounded to, told without division: it is compared with the middle between the
two whole numbers around it, and in the middle the even one is taken. -/
theorem roundDiv_cases (num den : ℕ) :
    (roundDiv num den = num / den ∧ 2 * num ≤ (2 * (num / den) + 1) * den ∧
        (2 * num = (2 * (num / den) + 1) * den → Even (num / den))) ∨
      (roundDiv num den = num / den + 1 ∧ (2 * (num / den) + 1) * den ≤ 2 * num ∧
        (2 * num = (2 * (num / den) + 1) * den → Even (num / den + 1))) := by
  have hnum := Nat.div_add_mod num den
  have hmiddle : (2 * (num / den) + 1) * den = 2 * (den * (num / den)) + den := by ring
  rw [hmiddle]
  unfold roundDiv
  split
  · exact .inl ⟨rfl, by omega, by omega⟩
  · split
    · exact .inr ⟨rfl, by omega, by omega⟩
    · -- exactly in the middle
      rcases Nat.even_or_odd (num / den) with heven | hodd
      · exact .inl ⟨by rw [Nat.even_iff.mp heven, Nat.add_zero], by omega, fun _ => heven⟩
      · exact .inr ⟨by rw [Nat.odd_iff.mp hodd], by omega, fun _ => hodd.add_one⟩

/-- Where a sequence is a grid around a quotient, rounding the quotient on the grid finds the
nearest term. -/
theorem nearestEven_grid (hf : StrictMono f) (hden : 0 < den) {base u : ℕ} (hu : 0 < u)
    (hbase : Even base) (hlow : f (base + num / (den * u)) = (num / (den * u) : ℕ) * u)
    (hhigh : f (base + num / (den * u) + 1) = ((num / (den * u) : ℕ) + 1) * u) :
    NearestEven f (num / den) (base + roundDiv num (den * u)) := by
  have hd : (0 : ℚ) < den := by exact_mod_cast hden
  -- all comparisons are made with the denominator multiplied out
  have hx : (num / den : ℚ) * den = num := div_mul_cancel₀ _ hd.ne'
  have hnum := Nat.div_add_mod num (den * u)
  have hmod := Nat.mod_lt num (Nat.mul_pos hden hu)
  have hcases := roundDiv_cases num (den * u)
  generalize num / (den * u) = q at *
  have hproduct : den * u * q = q * u * den := by ring
  have hmiddle : (2 * q + 1) * (den * u) = (2 * q + 1) * u * den := by ring
  have hsum : f (base + q) + f (base + q + 1) = (2 * q + 1) * u := by
    rw [hlow, hhigh]
    ring
  have htwice (h : 2 * (num / den : ℚ) = f (base + q) + f (base + q + 1)) :
      2 * num = (2 * q + 1) * u * den := by
    have hscaled : 2 * (num : ℚ) = (2 * q + 1) * u * den := by rw [← hsum, ← h, mul_assoc, hx]
    exact_mod_cast hscaled
  rw [hmiddle] at hcases
  rcases hcases with ⟨heq, hle, htie⟩ | ⟨heq, hle, htie⟩
  · rw [heq]
    refine nearestEven_lower hf ?_ ?_ fun h => hbase.add (htie (htwice h))
    · have hfloor : q * u * den ≤ num := by omega
      refine le_of_mul_le_mul_right ?_ hd
      rw [hlow, hx]
      exact_mod_cast hfloor
    · refine le_of_mul_le_mul_right ?_ hd
      rw [hsum, mul_assoc 2, hx]
      exact_mod_cast hle
  · rw [heq, ← Nat.add_assoc]
    refine nearestEven_upper hf ?_ ?_ fun h => hbase.add (htie (htwice h))
    · have hceil : num ≤ (q + 1) * u * den := by
        have : (q + 1) * u * den = q * u * den + den * u := by ring
        omega
      refine le_of_mul_le_mul_right ?_ hd
      rw [hhigh, hx]
      exact_mod_cast hceil
    · refine le_of_mul_le_mul_right ?_ hd
      rw [hsum, mul_assoc 2, hx]
      exact_mod_cast hle

/-- Rounding a quotient finds the nearest whole number. -/
theorem nearestEven_roundDiv (num : ℕ) (hden : 0 < den) :
    NearestEven (fun k => (k : ℚ)) (num / den) (roundDiv num den) := by
  have hgrid : NearestEven (fun k => (k : ℚ)) (num / den) (0 + roundDiv num (den * 1)) :=
    nearestEven_grid Nat.strictMono_cast hden Nat.one_pos Even.zero (by simp) (by simp)
  rwa [Nat.zero_add, Nat.mul_one] at hgrid

/-- A quotient that is whole is its own rounding. -/
theorem roundDiv_mul_right (k : ℕ) (hden : 0 < den) : roundDiv (k * den) den = k := by
  unfold roundDiv
  rw [Nat.mul_mod_left, Nat.mul_div_cancel k hden, if_pos hden]

/-! ### The magnitudes of binary64 -/

namespace Binary64

theorem unitsPerOne_eq : unitsPerOne = 2 ^ 1074 := by
  unfold unitsPerOne
  -- so that nothing tries to compute the power
  generalize 1074 = k
  exact Nat.one_shiftLeft k

theorem unitsPerOne_pos : 0 < unitsPerOne := by decide

/-- A significand below the hidden bit's double, on the grid of its power of two: the ranks of one
such grid are consecutive. Only the first grid has significands without the hidden bit. -/
theorem units_shift {shift m : ℕ} (hm : m ≤ 2 ^ 53) (hhidden : shift = 0 ∨ 2 ^ 52 ≤ m) :
    units (shift * 2 ^ 52 + m) = m * 2 ^ shift := by
  rcases Nat.lt_or_ge (shift * 2 ^ 52 + m) (2 ^ 52) with hlt | hge
  · have hshift : shift = 0 := by omega
    subst hshift
    rw [units_of_lt hlt]
    omega
  · rw [units, if_neg (by omega), Nat.shiftLeft_eq]
    rcases Nat.lt_or_ge m (2 ^ 53) with hm' | hm'
    · rw [show 0x10000000000000 + (shift * 2 ^ 52 + m) % 0x10000000000000 = m by omega,
        show (shift * 2 ^ 52 + m) / 0x10000000000000 - 1 = shift by omega]
    · -- the carry: twice the hidden bit is the hidden bit of the next grid
      have heq : m = 2 ^ 53 := le_antisymm hm hm'
      subst heq
      rw [show 0x10000000000000 + (shift * 2 ^ 52 + 2 ^ 53) % 0x10000000000000 = 2 ^ 52 by omega,
        show (shift * 2 ^ 52 + 2 ^ 53) / 0x10000000000000 - 1 = shift + 1 by omega]
      ring

/-- Every rank lies on a grid, and so does its successor. -/
theorem exists_shift (r : ℕ) :
    ∃ shift m, r = shift * 2 ^ 52 + m ∧ m < 2 ^ 53 ∧ (shift = 0 ∨ 2 ^ 52 ≤ m) :=
  ⟨r / 2 ^ 52 - 1, r - (r / 2 ^ 52 - 1) * 2 ^ 52, by omega, by omega, by omega⟩

/-- A higher rank is a greater magnitude. -/
theorem units_strictMono : StrictMono units := by
  refine strictMono_nat_of_lt_succ fun r => ?_
  obtain ⟨shift, m, rfl, hm, hhidden⟩ := exists_shift r
  rw [units_shift hm.le hhidden, Nat.add_assoc, units_shift hm (by omega)]
  exact Nat.mul_lt_mul_of_pos_right (Nat.lt_succ_self m) (Nat.two_pow_pos shift)

/-- Rounding a number of units finds the nearest magnitude of binary64. The power of two of the
quotient picks a grid on which ranks are consecutive, and rounding on this grid is rounding a
fraction. -/
theorem nearestEven_rankOfFraction (num : ℕ) (hden : 0 < den) :
    NearestEven (fun r => (units r : ℚ)) (num / den) (rankOfFraction num den) := by
  have hquotient : num / (den * 2 ^ ((num / den).log2 - 52)) =
      num / den / 2 ^ ((num / den).log2 - 52) := (Nat.div_div_eq_div_mul ..).symm
  -- on its grid, the quotient is a significand
  have hsignificand : num / den / 2 ^ ((num / den).log2 - 52) < 2 ^ 53 := by
    rw [Nat.div_lt_iff_lt_mul (Nat.two_pow_pos _), ← Nat.pow_add]
    exact Nat.lt_log2_self.trans_le (Nat.pow_le_pow_right (by decide) (by omega))
  have hhidden : (num / den).log2 - 52 = 0 ∨
      2 ^ 52 ≤ num / den / 2 ^ ((num / den).log2 - 52) := by
    by_cases hsmall : (num / den).log2 ≤ 52
    · exact .inl (by omega)
    · right
      rw [Nat.le_div_iff_mul_le (Nat.two_pow_pos _), ← Nat.pow_add,
        show 52 + ((num / den).log2 - 52) = (num / den).log2 by omega]
      exact Nat.log2_self_le fun hzero => hsmall (by rw [hzero]; decide)
  rw [← hquotient] at hsignificand hhidden
  simp only [rankOfFraction, Nat.shiftLeft_eq]
  generalize (num / den).log2 - 52 = shift at *
  have heven : Even (shift * 2 ^ 52) := (even_two.pow_of_ne_zero (by decide)).mul_left shift
  have hlow := units_shift hsignificand.le hhidden
  have hhigh := units_shift (Nat.succ_le_of_lt hsignificand) (hhidden.imp_right Nat.le_succ_of_le)
  rw [Nat.succ_eq_add_one, ← Nat.add_assoc] at hhigh
  have hmono : StrictMono fun r => (units r : ℚ) := Nat.strictMono_cast.comp units_strictMono
  refine nearestEven_grid hmono hden (Nat.two_pow_pos shift) heven ?_ ?_
  · exact_mod_cast hlow
  · exact_mod_cast hhigh

/-- The magnitude of a rank, as a number. -/
def magnitude (r : ℕ) : ℚ := units r / unitsPerOne

theorem unitsPerOne_cast_pos : (0 : ℚ) < unitsPerOne := by exact_mod_cast unitsPerOne_pos

@[simp] theorem magnitude_zero : magnitude 0 = 0 := by
  rw [magnitude, units_of_lt (by decide), Nat.cast_zero, zero_div]

theorem magnitude_nonneg (r : ℕ) : 0 ≤ magnitude r :=
  div_nonneg (Nat.cast_nonneg _) unitsPerOne_cast_pos.le

theorem magnitude_strictMono : StrictMono magnitude := by
  intro r s h
  have hunits : (units r : ℚ) < units s := Nat.cast_lt.mpr (units_strictMono h)
  exact div_lt_div_of_pos_right hunits unitsPerOne_cast_pos

/-- Only rank zero has no magnitude, so a value is zero exactly if its rank is. -/
theorem magnitude_eq_zero_iff {r : ℕ} : magnitude r = 0 ↔ r = 0 := by
  rw [← magnitude_zero, magnitude_strictMono.injective.eq_iff]

/-- A magnitude is a whole number exactly if its units make up that many ones. -/
theorem magnitude_eq_natCast {k : ℕ} : magnitude r = k ↔ units r = k * unitsPerOne := by
  rw [magnitude, div_eq_iff unitsPerOne_cast_pos.ne']
  exact_mod_cast Iff.rfl

/-- Rounding a number of units finds the nearest magnitude. -/
theorem nearestEven_magnitude (num : ℕ) (hden : 0 < den) :
    NearestEven magnitude (num / den / unitsPerOne) (rankOfFraction num den) :=
  (nearestEven_rankOfFraction num hden).scale unitsPerOne_cast_pos

/-- A whole number of powers of two, no more of them than the hidden bit's double, is a magnitude
of binary64. -/
theorem exists_units_eq {m : ℕ} (hm : m ≤ 2 ^ 53) (k : ℕ) : ∃ r, units r = m * 2 ^ k := by
  induction k generalizing m with
  | zero => exact ⟨0 * 2 ^ 52 + m, units_shift hm (.inl rfl)⟩
  | succ k ih =>
    by_cases hhidden : 2 ^ 52 ≤ m
    · exact ⟨_, units_shift hm (.inr hhidden)⟩
    · obtain ⟨r, hr⟩ := @ih (2 * m) (by omega)
      exact ⟨r, by rw [hr]; ring⟩

end Binary64

end SExprCalc
