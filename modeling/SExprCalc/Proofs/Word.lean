import Mathlib.Algebra.Order.Field.Power
import SExprCalc.Proofs.Nearest

/-!
# Words and the numbers they encode

The binary64 format as it is laid down for 64-bit words: a sign, an exponent field of 11 bits and a
fraction of 52. A word is read here by its fields alone (`Word.exact`), without ranks and units, so
what is said of a number through `Binary64.toBits` does not rest on how the library holds it.

`Word.RoundsTo` is correct rounding in these terms: of all finite words none encodes a number that
is nearer, and of two equally near ones the word with the even significand is taken. Since a rank
encodes itself, its parity is that of the significand, and rounding to the nearest rank is correct
rounding (`Word.roundsTo_of_nearestEven`).
-/

namespace SExprCalc

/-- A magnitude with a sign. -/
def signed (negative : Bool) (x : ℚ) : ℚ := if negative then -x else x

@[simp] theorem signed_false (x : ℚ) : signed false x = x := rfl

@[simp] theorem signed_true (x : ℚ) : signed true x = -x := rfl

@[simp] theorem abs_signed (s : Bool) (x : ℚ) : |signed s x| = |x| := by
  cases s
  · rfl
  · exact abs_neg x

/-- Two magnitudes of one sign are as far apart as without it. -/
theorem abs_signed_sub_signed (s : Bool) (a b : ℚ) : |signed s a - signed s b| = |a - b| := by
  cases s with
  | false => rfl
  | true => rw [signed_true, signed_true, neg_sub_neg, abs_sub_comm]

/-- Magnitudes of different signs are as far apart as both are from zero together. -/
theorem abs_signed_sub_signed_of_ne {s t : Bool} (h : s ≠ t) {a b : ℚ} (ha : 0 ≤ a) (hb : 0 ≤ b) :
    |signed s a - signed t b| = a + b := by
  have hsum : |a + b| = a + b := abs_of_nonneg (add_nonneg ha hb)
  cases s <;> cases t
  · exact absurd rfl h
  · rw [signed_false, signed_true, sub_neg_eq_add, hsum]
  · rw [signed_true, signed_false, ← neg_add', abs_neg, hsum]
  · exact absurd rfl h

namespace Word

/-! ### Fields -/

/-- The sign: the highest bit. -/
def negative (w : ℕ) : Bool := w / 2 ^ 63 % 2 == 1

/-- The exponent field: the eleven bits below the sign. -/
def exponent (w : ℕ) : ℕ := w / 2 ^ 52 % 2 ^ 11

/-- The fraction: the lowest 52 bits. -/
def fraction (w : ℕ) : ℕ := w % 2 ^ 52

/-- A word that encodes a number: its exponent field is not the one of infinities and NaNs. -/
structure IsFinite (w : ℕ) : Prop where
  /-- it has 64 bits -/
  lt : w < 2 ^ 64
  /-- its exponent field is not all ones -/
  exponent_ne : exponent w ≠ 2047

/-- The significand: the fraction, below a hidden bit that only the exponent zero lacks. -/
def significand (w : ℕ) : ℕ := if exponent w = 0 then fraction w else 2 ^ 52 + fraction w

/-- The magnitude that a finite word encodes. The exponents zero and one count the same power. -/
def magnitude (w : ℕ) : ℚ := significand w * 2 ^ ((max (exponent w) 1 : ℕ) - 1075 : ℤ)

/-- The number that a finite word encodes; both zeros encode zero. -/
def exact (w : ℕ) : ℚ := signed (negative w) (magnitude w)

/-- A word that is not a number: its exponent field is all ones, and its fraction is not zero. -/
def IsNaN (w : ℕ) : Prop := exponent w = 2047 ∧ fraction w ≠ 0

/-- An infinity: its exponent field is all ones, and its fraction is zero. -/
def IsInfinite (w : ℕ) : Prop := exponent w = 2047 ∧ fraction w = 0

/-- A zero of either sign. -/
def IsZero (w : ℕ) : Prop := exponent w = 0 ∧ fraction w = 0

/-- The infinity of a given sign. -/
def infinity (negative : Bool) : ℕ := negative.toNat * 2 ^ 63 + 2047 * 2 ^ 52

/-- A word is the correct rounding of a number. -/
structure RoundsTo (w : ℕ) (x : ℚ) : Prop where
  /-- the rounding is a number -/
  finite : IsFinite w
  /-- no finite word encodes a nearer number -/
  nearest : ∀ v, IsFinite v → |exact w - x| ≤ |exact v - x|
  /-- if another number is as near, then the significand is even -/
  even : ∀ v, IsFinite v → exact v ≠ exact w → |exact v - x| = |exact w - x| →
    Even (significand w)

/-! ### The words of finite values -/

section Finite

variable (s : Bool) (r : Fin 0x7FF0000000000000)

/-- The word of a finite value has the sign in its highest bit and the rank in the others: ranks are
numbered as the format numbers magnitudes. -/
theorem toBits_finite : (Binary64.finite s r).toBits = s.toNat * 2 ^ 63 + r := by
  cases s
  · change 0 + r.val = 0 * 2 ^ 63 + r
    omega
  · change 0x8000000000000000 + r.val = 1 * 2 ^ 63 + r
    omega

/-- Ranks end where the exponent field of infinities begins, so the word of a finite value encodes a
number. -/
theorem isFinite_toBits : IsFinite (Binary64.finite s r).toBits := by
  have hs := s.toNat_lt
  have hr := r.isLt
  rw [toBits_finite]
  refine ⟨by omega, ?_⟩
  rw [exponent]
  omega

theorem negative_toBits : negative (Binary64.finite s r).toBits = s := by
  have hr := r.isLt
  have hs : (s.toNat * 2 ^ 63 + r.val) / 2 ^ 63 % 2 = s.toNat := by
    have := s.toNat_lt
    omega
  rw [toBits_finite, negative, hs]
  cases s <;> rfl

/-- The upper bits of a rank are the exponent field, ... -/
theorem exponent_toBits : exponent (Binary64.finite s r).toBits = r / 2 ^ 52 := by
  have hs := s.toNat_lt
  have hr := r.isLt
  rw [toBits_finite, exponent]
  omega

/-- ... and its lower 52 bits are the fraction. -/
theorem fraction_toBits : fraction (Binary64.finite s r).toBits = r % 2 ^ 52 := by
  rw [toBits_finite, fraction]
  omega

/-- A rank and its significand differ by an even number. -/
theorem even_significand_toBits : Even (significand (Binary64.finite s r).toBits) ↔ Even r.val := by
  rw [significand, exponent_toBits, fraction_toBits, Nat.even_iff, Nat.even_iff]
  split <;> omega

/-- The units of a rank are its significand at the power of two of its exponent. -/
theorem units_eq_significand : Binary64.units r =
    significand (Binary64.finite s r).toBits *
      2 ^ (max (exponent (Binary64.finite s r).toBits) 1 - 1) := by
  rw [significand, exponent_toBits, fraction_toBits]
  split
  · rename_i hzero
    rw [hzero, Binary64.units_of_lt (by omega), Nat.mod_eq_of_lt (by omega)]
    exact (Nat.mul_one _).symm
  · rename_i hpos
    rw [Nat.max_eq_left (by omega), Binary64.units, if_neg (by omega), Nat.shiftLeft_eq]
    rfl

/-- The fields of a word encode the magnitude that its rank has in units: both count from the least
positive number, `2 ^ (-1074)`. -/
theorem magnitude_toBits :
    magnitude (Binary64.finite s r).toBits = Binary64.magnitude r := by
  have hpower (e : ℕ) : (2 : ℚ) ^ ((max e 1 : ℕ) - 1075 : ℤ) = 2 ^ (max e 1 - 1) / 2 ^ 1074 := by
    rw [show ((max e 1 : ℕ) - 1075 : ℤ) = (max e 1 - 1 : ℕ) - (1074 : ℕ) by omega,
      zpow_sub₀ two_ne_zero, zpow_natCast, zpow_natCast]
  rw [magnitude, hpower, Binary64.magnitude, units_eq_significand s, Binary64.unitsPerOne_eq,
    ← mul_div_assoc, Nat.cast_mul, Nat.cast_pow, Nat.cast_pow, Nat.cast_ofNat]

/-- The word of a finite value encodes that value. What arithmetic does with ranks and units is
therefore said of words, which have neither. -/
theorem exact_toBits : exact (Binary64.finite s r).toBits = signed s (Binary64.magnitude r) := by
  rw [exact, negative_toBits, magnitude_toBits]

end Finite

/-! ### The words of other values -/

theorem isNaN_toBits : IsNaN Binary64.nan.toBits := ⟨by decide, by decide⟩

theorem toBits_infinite (s : Bool) : (Binary64.infinite s).toBits = infinity s := by
  cases s <;> rfl

theorem isInfinite_infinity (s : Bool) : IsInfinite (infinity s) := by
  cases s <;> exact ⟨rfl, rfl⟩

theorem negative_infinity (s : Bool) : negative (infinity s) = s := by
  cases s <;> rfl

theorem not_isNaN_infinity (s : Bool) : ¬IsNaN (infinity s) :=
  fun h => h.2 (isInfinite_infinity s).2

variable {w : ℕ}

/-- Every finite word is the word of a finite value. -/
theorem IsFinite.exists_toBits (h : IsFinite w) : ∃ s r, w = (Binary64.finite s r).toBits := by
  have hlt := h.lt
  have hexponent := h.exponent_ne
  rw [exponent] at hexponent
  refine ⟨negative w, ⟨w % 2 ^ 63, by omega⟩, ?_⟩
  have hsign : (negative w).toNat = w / 2 ^ 63 := by
    have hbit : w / 2 ^ 63 = 0 ∨ w / 2 ^ 63 = 1 := by omega
    rcases hbit with h | h <;> rw [negative, h] <;> rfl
  rw [toBits_finite, hsign]
  exact (Nat.div_add_mod' w _).symm

/-- The words whose exponent field is all ones are the infinities and the NaNs. -/
theorem ofBits_of_exponent_eq (h : exponent w = 2047) :
    Binary64.ofBits w = if fraction w = 0 then .infinite (negative w) else .nan := by
  rw [exponent] at h
  have hrank : ¬w % 0x8000000000000000 < 0x7FF0000000000000 := by omega
  have hfraction : w % 0x8000000000000000 = 0x7FF0000000000000 ↔ fraction w = 0 := by
    rw [fraction]
    omega
  unfold Binary64.ofBits
  simp only [dif_neg hrank, hfraction]
  rfl

/-! ### Rounding to a rank is correct rounding -/

/-- The finite value whose rank is nearest to a magnitude rounds that magnitude with its sign. A
word of the other sign does not come nearer than zero, and zero has a rank. -/
theorem roundsTo_of_nearestEven {x : ℚ} (hx : 0 ≤ x) (s : Bool) {r : Fin 0x7FF0000000000000}
    (h : NearestEven Binary64.magnitude x r) :
    RoundsTo (Binary64.finite s r).toBits (signed s x) := by
  have hzero : |Binary64.magnitude 0 - x| = x := by
    rw [Binary64.magnitude_zero, zero_sub, abs_neg, abs_of_nonneg hx]
  refine ⟨isFinite_toBits s r, ?_, ?_⟩
  · intro v hv
    obtain ⟨t, k, rfl⟩ := hv.exists_toBits
    rw [exact_toBits, exact_toBits, abs_signed_sub_signed]
    by_cases hst : t = s
    · rw [hst, abs_signed_sub_signed]
      exact h.nearest k
    · rw [abs_signed_sub_signed_of_ne hst (Binary64.magnitude_nonneg k) hx]
      have := h.nearest 0
      have := Binary64.magnitude_nonneg k
      linarith
  · intro v hv hne heq
    obtain ⟨t, k, rfl⟩ := hv.exists_toBits
    rw [even_significand_toBits]
    rw [exact_toBits, exact_toBits] at hne heq
    rw [abs_signed_sub_signed] at heq
    by_cases hst : t = s
    · rw [hst, abs_signed_sub_signed] at heq
      exact h.even k (fun hkr => hne (by rw [hst, hkr])) heq
    · rw [abs_signed_sub_signed_of_ne hst (Binary64.magnitude_nonneg k) hx] at heq
      have hle := h.nearest 0
      have hnonneg := Binary64.magnitude_nonneg k
      -- the other word is a zero, so the zero of this sign is as near
      have hk : Binary64.magnitude k = 0 := by linarith
      refine h.even 0 ?_ (by rw [hzero, ← heq, hk, zero_add])
      intro hr
      rw [hk, ← hr] at hne
      cases s <;> cases t <;> simp at hne

end Word

end SExprCalc
