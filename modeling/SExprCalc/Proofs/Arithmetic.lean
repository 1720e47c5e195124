import SExprCalc.Proofs.LiteralValue

/-!
# Arithmetic of finite values

A finite value is exactly a rational number (`Binary64.Denotes`), and a number other than zero is
exactly one value (`Binary64.Denotes.eq`); zero is two. Arithmetic rounds the exact result to the
nearest rank, so where the exact result is a value, nothing is lost (`Binary64.Denotes.add`,
`Binary64.Denotes.mul`). The integers up to `2 ^ 53` are all values, and addition of integers is
exact for as long as it stays among them (`Binary64.add_ofInt`).
-/

namespace SExprCalc

/-! ### Signs -/

/-- A product of magnitudes with signs has the sign that tells the two apart. -/
theorem signed_xor_mul (s t : Bool) (x y : ℚ) :
    signed (s ^^ t) (x * y) = signed s x * signed t y := by
  cases s <;> cases t <;> simp

theorem signed_abs (x : ℚ) : signed (x < 0) |x| = x := by
  rcases lt_or_ge x 0 with hx | hx
  · rw [decide_eq_true hx, signed_true, abs_of_neg hx, neg_neg]
  · rw [decide_eq_false hx.not_gt, signed_false, abs_of_nonneg hx]

namespace Binary64

variable {x y z : Binary64} {a b : ℚ} {num den : ℕ} {s t : Bool} {r q : Fin 0x7FF0000000000000}

/-! ### Values that are numbers -/

/-- A finite value is exactly a number; both zeros are zero. -/
def Denotes (x : Binary64) (a : ℚ) : Prop := ∃ s r, x = finite s r ∧ signed s (magnitude r) = a

theorem magnitude_eq_abs (h : signed s (magnitude r) = a) : magnitude r = |a| := by
  rw [← h, abs_signed, abs_of_nonneg (magnitude_nonneg r)]

theorem denotes_zero (s : Bool) : Denotes (zero s) 0 := by
  refine ⟨s, ⟨0, by decide⟩, rfl, ?_⟩
  rw [magnitude_zero]
  cases s <;> simp

/-- What a value denotes is the number that its word encodes. -/
theorem Denotes.exact (h : Denotes x a) :
    Word.IsFinite x.toBits ∧ Word.exact x.toBits = a := by
  obtain ⟨s, r, rfl, rfl⟩ := h
  exact ⟨Word.isFinite_toBits s r, Word.exact_toBits s r⟩

/-- Two values that are the same number, other than zero, are one. -/
theorem Denotes.eq (hx : Denotes x a) (hy : Denotes y a) (ha : a ≠ 0) : x = y := by
  obtain ⟨s, r, rfl, hr⟩ := hx
  obtain ⟨t, q, rfl, hq⟩ := hy
  have hrank : r = q := by
    refine Fin.ext (magnitude_strictMono.injective ?_)
    rw [magnitude_eq_abs hr, magnitude_eq_abs hq]
  have hsign : s = t := by
    by_contra hst
    have hapart := abs_signed_sub_signed_of_ne hst (magnitude_nonneg r) (magnitude_nonneg q)
    rw [hr, hq, sub_self, abs_zero, magnitude_eq_abs hr, magnitude_eq_abs hq] at hapart
    have := abs_pos.mpr ha
    linarith
  rw [hrank, hsign]

/-! ### Exact results -/

/-- A fraction of units that is the magnitude of a rank is rounded to that rank. -/
theorem ofFraction_of_magnitude (s : Bool) (hden : 0 < den)
    (h : magnitude r = num / den / unitsPerOne) : ofFraction s num den = finite s r := by
  have hrank : rankOfFraction num den = r :=
    (nearestEven_magnitude num hden).eq_of_term magnitude_strictMono h
  have hlt : rankOfFraction num den < 0x7FF0000000000000 := hrank ▸ r.isLt
  rw [ofFraction, dif_pos hlt]
  congr 1
  exact Fin.ext hrank

/-- The units of two values together are the units of their sum. -/
theorem signedUnits_add_div (s t : Bool) (r q : ℕ) :
    ((signedUnits s r + signedUnits t q : ℤ) : ℚ) / unitsPerOne =
      signed s (magnitude r) + signed t (magnitude q) := by
  have hone (s : Bool) (r : ℕ) : (signedUnits s r : ℚ) / unitsPerOne = signed s (magnitude r) := by
    cases s <;> simp [signedUnits, magnitude, neg_div]
  rw [Int.cast_add, add_div, hone, hone]

/-- A sum of exactly zero is negative only when both terms are. -/
theorem add_of_sum_eq_zero (h : signed s (magnitude r) + signed t (magnitude q) = 0) :
    add (finite s r) (finite t q) = zero (s && t) := by
  rw [← signedUnits_add_div, div_eq_zero_iff, or_iff_left unitsPerOne_cast_pos.ne',
    Int.cast_eq_zero] at h
  exact if_pos h

/-- Addition is exact whenever the exact sum is a value: the sum is computed exactly in units, and
rounding finds the value that is there. -/
theorem Denotes.add (hx : Denotes x a) (hy : Denotes y b) (hz : Denotes z (a + b)) :
    Denotes (x.add y) (a + b) := by
  obtain ⟨s, r, rfl, rfl⟩ := hx
  obtain ⟨t, q, rfl, rfl⟩ := hy
  obtain ⟨u, k, rfl, hk⟩ := hz
  have htotal := signedUnits_add_div s t r q
  simp only [Binary64.add]
  generalize signedUnits s r + signedUnits t q = total at htotal ⊢
  rw [← htotal] at hk ⊢
  by_cases hzero : total = 0
  · -- the zero of either sign will do
    rw [if_pos hzero, hzero, Int.cast_zero, zero_div]
    exact denotes_zero _
  · have hmagnitude : magnitude k = (total.natAbs : ℚ) / (1 : ℕ) / unitsPerOne := by
      rw [magnitude_eq_abs hk, abs_div, abs_of_pos unitsPerOne_cast_pos, Nat.cast_one, div_one,
        Nat.cast_natAbs, Int.cast_abs]
    have hsign : decide (total < 0) = decide ((total : ℚ) / unitsPerOne < 0) := by
      rw [decide_eq_decide, div_lt_iff₀ unitsPerOne_cast_pos, zero_mul, Int.cast_lt_zero]
    rw [if_neg hzero, ofFraction_of_magnitude _ Nat.one_pos hmagnitude]
    refine ⟨_, k, rfl, ?_⟩
    rw [magnitude_eq_abs hk, hsign, signed_abs]

/-- Multiplication is exact whenever the exact product is a value. -/
theorem Denotes.mul (hx : Denotes x a) (hy : Denotes y b) (hz : Denotes z (a * b)) :
    Denotes (x.mul y) (a * b) := by
  obtain ⟨s, r, rfl, rfl⟩ := hx
  obtain ⟨t, q, rfl, rfl⟩ := hy
  obtain ⟨u, k, rfl, hk⟩ := hz
  rw [← signed_xor_mul] at hk ⊢
  have hproduct : magnitude k = magnitude r * magnitude q := by
    rw [magnitude_eq_abs hk, abs_signed,
      abs_of_nonneg (mul_nonneg (magnitude_nonneg _) (magnitude_nonneg _))]
  have hmagnitude : magnitude k = (units r * units q : ℕ) / unitsPerOne / unitsPerOne := by
    rw [hproduct, magnitude, magnitude, Nat.cast_mul, mul_div_assoc, div_mul_eq_mul_div]
  refine ⟨s ^^ t, k, ofFraction_of_magnitude _ unitsPerOne_pos hmagnitude, ?_⟩
  rw [hproduct]

/-! ### Integers -/

theorem ofInt_zero : ofInt 0 = zero false := by decide +kernel

/-- An integer up to `2 ^ 53` keeps its magnitude. -/
theorem exists_ofInt_eq {n : ℤ} (hn : |n| ≤ 2 ^ 53) :
    ∃ r, ofInt n = finite (n < 0) r ∧ magnitude r = n.natAbs := by
  have hsmall : n.natAbs ≤ 2 ^ 53 := by
    rw [Int.abs_eq_natAbs] at hn
    omega
  obtain ⟨r, hr⟩ := exists_rank hsmall
  have hlt : magnitude r < magnitude 0x7FF0000000000000 := by
    rw [hr, magnitude_beyond, Nat.cast_lt]
    refine hsmall.trans_lt (lt_mul_of_one_lt_right (by decide) ?_)
    exact one_lt_pow₀ (by decide) (by decide)
  refine ⟨⟨r, magnitude_strictMono.lt_iff_lt.mp hlt⟩, ofFraction_of_magnitude _ Nat.one_pos ?_, hr⟩
  rw [hr, Nat.cast_one, div_one, Nat.cast_mul, mul_div_cancel_right₀ _ unitsPerOne_cast_pos.ne']

theorem denotes_ofInt {n : ℤ} (hn : |n| ≤ 2 ^ 53) : Denotes (ofInt n) n := by
  obtain ⟨r, hvalue, hr⟩ := exists_ofInt_eq hn
  exact ⟨_, r, hvalue, by rw [hr, signed_natAbs]⟩

/-- Integers up to `2 ^ 53` are added without rounding, and a sum of zero is positive. -/
theorem add_ofInt {a b : ℤ} (ha : |a| ≤ 2 ^ 53) (hb : |b| ≤ 2 ^ 53) (hab : |a + b| ≤ 2 ^ 53) :
    add (ofInt a) (ofInt b) = ofInt (a + b) := by
  have hsum := denotes_ofInt hab
  rw [Int.cast_add] at hsum
  by_cases hzero : a + b = 0
  · -- zero denotes two values, so here the signs decide: the terms are not both negative
    obtain ⟨r, hr, hmagnitude⟩ := exists_ofInt_eq ha
    obtain ⟨q, hq, hmagnitude'⟩ := exists_ofInt_eq hb
    have hsigns : (decide (a < 0) && decide (b < 0)) = false := by
      rw [Bool.and_eq_false_iff, decide_eq_false_iff_not, decide_eq_false_iff_not]
      omega
    rw [hr, hq, add_of_sum_eq_zero, hsigns, hzero, ofInt_zero]
    rw [hmagnitude, hmagnitude', signed_natAbs, signed_natAbs]
    exact_mod_cast hzero
  · refine ((denotes_ofInt ha).add (denotes_ofInt hb) hsum).eq hsum ?_
    exact_mod_cast hzero

end Binary64

end SExprCalc
