import SExprCalc.Proofs.Layout
import SExprCalc.Proofs.Word

/-!
# The value of a number literal

A literal denotes an integer of any size, and its value is that integer rounded once. The integer
is out of range from the middle between the largest finite magnitude, `2 ^ 1024 - 2 ^ 971`, and
the next power of two: there the tie goes to the even rank, which is the one of infinity
(`Binary64.overflow_iff`). Below, the rounding is correct (`Binary64.ofInt_cases`), and it changes
nothing up to `2 ^ 53` (`Binary64.magnitude_of_nearestEven`).

The number of digits has a bound of its own, which leading zeros can exceed whatever the integer.
-/

namespace SExprCalc

namespace Binary64

/-! ### Rounding an integer -/

/-- The rank of an integer's magnitude is the nearest one. -/
theorem nearestEven_natCast (k : ℕ) :
    NearestEven magnitude k (rankOfFraction (k * unitsPerOne) 1) := by
  have h := nearestEven_magnitude (k * unitsPerOne) Nat.one_pos
  rwa [Nat.cast_one, div_one, Nat.cast_mul, mul_div_cancel_right₀ _ unitsPerOne_cast_pos.ne'] at h

/-- The magnitudes from the first significand with the hidden bit that counts ones: a significand
and a power of two. -/
theorem magnitude_shift {m : ℕ} (e : ℕ) (hm : m ≤ 2 ^ 53) (hhidden : 2 ^ 52 ≤ m) :
    magnitude ((e + 1074) * 2 ^ 52 + m) = (m * 2 ^ e : ℕ) := by
  rw [magnitude_eq_natCast, units_shift hm (.inr hhidden), unitsPerOne_eq, pow_add,
    mul_assoc]

/-- The largest finite magnitude. -/
theorem magnitude_last : magnitude 0x7FEFFFFFFFFFFFFF = ((2 ^ 53 - 1) * 2 ^ (970 + 1) : ℕ) := by
  rw [show 0x7FEFFFFFFFFFFFFF = (970 + 1 + 1074) * 2 ^ 52 + (2 ^ 53 - 1) by omega]
  exact magnitude_shift (970 + 1) (by omega) (by omega)

/-- The magnitude that would follow the largest finite one. -/
theorem magnitude_beyond : magnitude 0x7FF0000000000000 = (2 ^ 53 * 2 ^ (970 + 1) : ℕ) := by
  rw [show 0x7FF0000000000000 = (970 + 1 + 1074) * 2 ^ 52 + 2 ^ 53 by omega]
  exact magnitude_shift (970 + 1) le_rfl (by omega)

/-- Rounding leaves the finite ranks exactly from the middle between the largest finite magnitude
and the power of two beyond it. -/
theorem beyond_iff_of_nearestEven {x : ℚ} {r : ℕ} (h : NearestEven magnitude x r) :
    0x7FF0000000000000 ≤ r ↔ 2 ^ 1024 - 2 ^ 970 ≤ x := by
  have heven : Even (0x7FEFFFFFFFFFFFFF + 1) := by decide
  have hiff := h.succ_le_iff magnitude_strictMono heven
  -- so that nothing tries to compute the power
  obtain ⟨half, hhalf⟩ : ∃ half : ℕ, half = 2 ^ 970 := ⟨_, rfl⟩
  have hsmall : (2 : ℚ) ^ 970 = half := by rw [hhalf, Nat.cast_pow, Nat.cast_ofNat]
  have hlarge : (2 : ℚ) ^ 1024 = 2 ^ 54 * half := by rw [← hsmall, ← pow_add]
  rw [magnitude_last, magnitude_beyond, pow_succ 2 970, ← hhalf] at hiff
  rw [hsmall, hlarge]
  refine hiff.trans ?_
  push_cast
  constructor <;> intro hle <;> linarith

/-- A whole number is out of range from there on. -/
theorem overflow_iff (k : ℕ) :
    0x7FF0000000000000 ≤ rankOfFraction (k * unitsPerOne) 1 ↔ 2 ^ 1024 ≤ k + 2 ^ 970 := by
  rw [beyond_iff_of_nearestEven (nearestEven_natCast k), sub_le_iff_le_add]
  generalize 1024 = a
  generalize 970 = b
  exact_mod_cast Iff.rfl

/-- The integers that are out of range. -/
theorem outOfRange_iff (n : ℤ) :
    2 ^ 1024 - 2 ^ 970 ≤ |n| ↔
      0x7FF0000000000000 ≤ rankOfFraction (n.natAbs * unitsPerOne) 1 := by
  rw [overflow_iff, Int.abs_eq_natAbs, tsub_le_iff_right]
  generalize 1024 = a
  generalize 970 = b
  exact_mod_cast Iff.rfl

/-- An integer becomes the value of its sign with the nearest rank, or an infinity. -/
theorem ofInt_cases (n : ℤ) :
    (2 ^ 1024 - 2 ^ 970 ≤ |n| ∧ ofInt n = infinite (n < 0)) ∨
      (|n| < 2 ^ 1024 - 2 ^ 970 ∧
        ∃ r, ofInt n = finite (n < 0) r ∧ NearestEven magnitude n.natAbs r) := by
  unfold ofInt ofFraction
  by_cases h : rankOfFraction (n.natAbs * unitsPerOne) 1 < 0x7FF0000000000000
  · refine .inr ⟨?_, ⟨_, h⟩, dif_pos h, nearestEven_natCast _⟩
    exact Int.not_le.mp fun hle => Nat.not_le.mpr h ((outOfRange_iff n).mp hle)
  · exact .inl ⟨(outOfRange_iff n).mpr (Nat.not_lt.mp h), dif_neg h⟩

/-- Up to `2 ^ 53` every whole number is a magnitude. -/
theorem exists_rank {k : ℕ} (hk : k ≤ 2 ^ 53) : ∃ r, magnitude r = k := by
  obtain ⟨r, hr⟩ := exists_units_eq hk 1074
  exact ⟨r, magnitude_eq_natCast.mpr (by rw [hr, unitsPerOne_eq])⟩

/-- So rounding does not change it. -/
theorem magnitude_of_nearestEven {k r : ℕ} (h : NearestEven magnitude k r) (hk : k ≤ 2 ^ 53) :
    magnitude r = k := by
  obtain ⟨s, hs⟩ := exists_rank hk
  rw [h.eq_of_term magnitude_strictMono hs, hs]

end Binary64

/-- An integer is its magnitude with its sign. -/
theorem signed_natAbs (n : ℤ) : signed (n < 0) n.natAbs = n := by
  rcases lt_or_ge n 0 with hn | hn
  · rw [decide_eq_true hn, signed_true, Nat.cast_natAbs, abs_of_neg hn, Int.cast_neg, neg_neg]
  · rw [decide_eq_false (Int.not_lt.mpr hn), signed_false, Nat.cast_natAbs, abs_of_nonneg hn]

/-! ### Reading a literal -/

namespace Numeral

/-- The integer that a number denotes. -/
def integer (n : Numeral) : ℤ :=
  if n.negative then -(Nat.ofDigitChars 10 n.digits 0 : ℤ) else Nat.ofDigitChars 10 n.digits 0

theorem split_text (n : Numeral) : Literal.split n.text = (n.negative, n.digits) := by
  have hsplit := split_text_append n []
  rwa [List.append_nil, List.append_nil] at hsplit

/-- A number that is too long or too large has no value. -/
theorem value?_eq_none {n : Numeral}
    (h : 4300 < n.digits.length ∨ 2 ^ 1024 - 2 ^ 970 ≤ |n.integer|) :
    Literal.value? n.text = none := by
  unfold Literal.value?
  rw [split_text]
  dsimp only
  split
  · rfl
  · rename_i hbounds
    rcases Binary64.ofInt_cases n.integer with ⟨-, hinfinite⟩ | ⟨hlt, -⟩
    · have hvalue : Binary64.ofInt (Literal.integer n.negative n.digits) = _ := hinfinite
      rw [hvalue]
    · exact absurd (h.resolve_left fun hlong => hbounds (.inr hlong)) (Int.not_le.mpr hlt)

/-- Any other number has the value of its sign with the rank nearest to its integer. -/
theorem exists_value? {n : Numeral}
    (h : ¬(4300 < n.digits.length ∨ 2 ^ 1024 - 2 ^ 970 ≤ |n.integer|)) :
    ∃ r, Literal.value? n.text = some (.finite (n.integer < 0) r) ∧
      NearestEven Binary64.magnitude n.integer.natAbs r := by
  obtain ⟨hshort, hsmall⟩ := not_or.mp h
  rcases Binary64.ofInt_cases n.integer with ⟨hle, -⟩ | ⟨-, r, hfinite, hnearest⟩
  · exact absurd hle hsmall
  · refine ⟨r, ?_, hnearest⟩
    have hvalue : Binary64.ofInt (Literal.integer n.negative n.digits) = _ := hfinite
    unfold Literal.value?
    rw [split_text]
    dsimp only
    rw [if_neg fun hbad => hbad.elim n.ne_nil hshort, hvalue]

end Numeral

/-- What reading a literal gives: a fault exactly if the literal is too long or its integer too
large, and the integer's correct rounding otherwise. -/
theorem readNumber_rounds {c : Cursor} (hin : c.Inside) (n : Numeral) {after : List Char}
    (hrest : c.rest = n.text ++ after) (hstop : StopsAt Char.isDigit after) :
    ((∃ fault, c.readNumber = .error fault ∧ fault.family = .malformed ∧
        fault.message = "numeric literal out of range: " ++ String.ofList n.text) ↔
      4300 < n.digits.length ∨ 2 ^ 1024 - 2 ^ 970 ≤ |n.integer|) ∧
    (¬(4300 < n.digits.length ∨ 2 ^ 1024 - 2 ^ 970 ≤ |n.integer|) →
      ∃ x, c.readNumber = .ok (x, c.moved n.text.length) ∧
        Word.RoundsTo x.toBits n.integer ∧
        (|n.integer| ≤ 2 ^ 53 → Word.exact x.toBits = n.integer) ∧
        (n.integer = 0 → x.toBits = 0)) := by
  have hread := Cursor.readNumber_text hin hrest hstop
  refine ⟨⟨?_, ?_⟩, ?_⟩
  · rintro ⟨fault, hfault, -, -⟩
    by_contra hrange
    obtain ⟨r, hvalue, -⟩ := Numeral.exists_value? hrange
    rw [hread, hvalue] at hfault
    cases hfault
  · intro hrange
    rw [Numeral.value?_eq_none hrange] at hread
    exact ⟨_, hread, rfl, rfl⟩
  · intro hrange
    obtain ⟨r, hvalue, hnearest⟩ := Numeral.exists_value? hrange
    rw [hvalue] at hread
    refine ⟨_, hread, ?_, ?_, ?_⟩
    · rw [← signed_natAbs n.integer]
      exact Word.roundsTo_of_nearestEven (Nat.cast_nonneg _) _ hnearest
    · intro hsmall
      have hexact := Binary64.magnitude_of_nearestEven hnearest
        (by rw [Int.abs_eq_natAbs] at hsmall; omega)
      rw [Word.exact_toBits, hexact, signed_natAbs]
    · intro hzero
      rw [hzero] at hnearest ⊢
      have hrank : r.val = 0 := hnearest.eq_of_term Binary64.magnitude_strictMono (by simp)
      simp [Word.toBits_finite, hrank]

/-- Midway between two numbers a literal is rounded all the same, and only its digits are read. -/
theorem readNumber_rounds_tie :
    ∃ x, Cursor.readNumber ⟨"-9007199254740993)".toList, 0⟩ =
        .ok (x, ⟨"-9007199254740993)".toList, 17⟩) ∧
      Word.RoundsTo x.toBits (-9007199254740993 : ℤ) := by
  let n : Numeral := { negative := true, digits := "9007199254740993".toList }
  have hinside : Cursor.Inside ⟨"-9007199254740993)".toList, 0⟩ := ⟨by decide, by decide⟩
  have hrest : Cursor.rest ⟨"-9007199254740993)".toList, 0⟩ = n.text ++ [')'] := by decide
  have hrange : ¬(4300 < n.digits.length ∨ 2 ^ 1024 - 2 ^ 970 ≤ |n.integer|) := by decide +kernel
  obtain ⟨x, hread, hrounds, -⟩ :=
    (readNumber_rounds hinside n hrest (stopsAt_cons.mpr (by decide))).2 hrange
  exact ⟨x, hread, hrounds⟩

end SExprCalc
