import Mathlib.Data.List.Basic
import SExprCalc.Fault
import SExprCalc.Proofs.Word

/-!
# Fixed-point text is correctly rounded

A number is printed with six decimal places, rounded from its exact value. Nothing is said here
about how the digits are found: the text is read as a decimal again (`decimalValue`), and that
decimal is compared with the exact value of the word. The digits are those of one whole number, the
value in millionths (`Numeral.fixed_spec`), so a carry from the places into the integer part is no
case of its own.
-/

namespace SExprCalc

/-! ### Decimals as they are written -/

/-- The integer part and the places of a decimal. -/
structure IsDecimal (places : ℕ) (whole fraction : List Char) : Prop where
  /-- both are made of digits -/
  isDigit : ∀ c ∈ whole ++ fraction, c.isDigit = true
  /-- there is an integer part -/
  ne_nil : whole ≠ []
  /-- it starts with a zero only if it is one -/
  leading : whole.head? = some '0' → whole = ['0']
  /-- there are as many places as asked for -/
  length : fraction.length = places

/-- The number that the digits before and after a point denote. -/
def decimalValue (whole fraction : List Char) : ℚ :=
  Nat.ofDigitChars 10 whole 0 + Nat.ofDigitChars 10 fraction 0 / 10 ^ fraction.length

namespace Numeral

theorem isDigit_of_mem_decimal {n : ℕ} {c : Char} (h : c ∈ decimal n) : c.isDigit = true :=
  Nat.isDigit_of_mem_toDigits (by decide) le_rfl h

theorem decimal_ne_nil (n : ℕ) : decimal n ≠ [] := Nat.toDigits_ne_nil

@[simp] theorem ofDigitChars_decimal (n : ℕ) : Nat.ofDigitChars 10 (decimal n) 0 = n :=
  Nat.ofDigitChars_ten_toDigits

/-- The digits of a number end with its last digit. -/
theorem decimal_eq (n : ℕ) :
    decimal n = (if n < 10 then [] else decimal (n / 10)) ++ [(n % 10).digitChar] := by
  rw [decimal, Nat.toDigits_eq_if (by decide)]
  split
  · rename_i h
    rw [Nat.mod_eq_of_lt h, List.nil_append]
  · rfl

/-- Only zero starts with a zero. -/
theorem eq_zero_of_head?_decimal {n : ℕ} (h : (decimal n).head? = some '0') : n = 0 := by
  induction n using Nat.strongRecOn with
  | ind n ih =>
    rw [decimal_eq] at h
    split at h
    · rename_i hlt
      rw [List.nil_append, List.head?_cons, Option.some.injEq, Nat.digitChar_eq_zero] at h
      omega
    · rename_i hge
      rw [List.head?_append_of_ne_nil _ (decimal_ne_nil _)] at h
      have := ih (n / 10) (by omega) h
      omega

/-! ### Digits with leading zeros -/

section Padded

variable (places n : ℕ)

theorem isDigit_of_mem_padded {c : Char} (h : c ∈ (decimal n).leftpad places '0') :
    c.isDigit = true := by
  rcases List.mem_append.mp h with hzero | hdigit
  · rw [(List.mem_replicate.mp hzero).2]
    rfl
  · exact isDigit_of_mem_decimal hdigit

/-- A number with no more digits than there are places is filled up to exactly these places. -/
theorem length_padded (hplaces : 0 < places) (h : n < 10 ^ places) :
    ((decimal n).leftpad places '0').length = places := by
  have hlength : (decimal n).length ≤ places :=
    (Nat.length_toDigits_le_iff (by decide) hplaces).mpr h
  rw [List.length_leftpad, Nat.max_eq_left hlength]

/-- Leading zeros do not change the number. -/
theorem ofDigitChars_padded :
    Nat.ofDigitChars 10 ((decimal n).leftpad places '0') 0 = n := by
  rw [List.leftpad, Nat.ofDigitChars_append, Nat.ofDigitChars_replicate_zero, Nat.mul_zero,
    ofDigitChars_decimal]

/-- Filling up with zeros in front does not touch the last digit. -/
theorem getLast?_padded :
    ((decimal n).leftpad places '0').getLast? = some (n % 10).digitChar := by
  rw [List.leftpad, decimal_eq, ← List.append_assoc, List.getLast?_concat]

end Padded

/-- What is printed for a whole number of `10 ^ (-places)` is a decimal of that value, and it ends
in an even digit exactly if that number is even. -/
theorem fixed_spec {places : ℕ} (hplaces : 0 < places) (n : ℕ) :
    ∃ whole fraction, fixed places n = whole ++ '.' :: fraction ∧
      IsDecimal places whole fraction ∧ decimalValue whole fraction = n / 10 ^ places ∧
      ∀ c ∈ fraction.getLast?, (Even (c.toNat - '0'.toNat) ↔ Even n) := by
  have hlength := length_padded places (n % 10 ^ places) hplaces
    (Nat.mod_lt _ (Nat.pow_pos (by decide)))
  refine ⟨decimal (n / 10 ^ places), (decimal (n % 10 ^ places)).leftpad places '0', rfl,
    ⟨?_, decimal_ne_nil _, ?_, hlength⟩, ?_, ?_⟩
  · intro c hc
    rcases List.mem_append.mp hc with hwhole | hfraction
    · exact isDigit_of_mem_decimal hwhole
    · exact isDigit_of_mem_padded _ _ hfraction
  · intro hhead
    rw [eq_zero_of_head?_decimal hhead]
    rfl
  · have hpower : (10 ^ places : ℚ) ≠ 0 := pow_ne_zero _ (by norm_num)
    rw [decimalValue, hlength, ofDigitChars_decimal, ofDigitChars_padded, eq_div_iff hpower,
      add_mul, div_mul_cancel₀ _ hpower]
    exact_mod_cast Nat.div_add_mod' n (10 ^ places)
  · intro c hc
    rw [getLast?_padded, Option.mem_some_iff] at hc
    have hten : 10 ∣ 10 ^ places := dvd_pow_self 10 hplaces.ne'
    rw [← hc, Nat.toNat_digitChar_of_lt_ten (Nat.mod_lt _ (by decide)), Nat.mod_mod_of_dvd n hten,
      Nat.even_iff, Nat.even_iff]
    change (48 + n % 10 - 48) % 2 = 0 ↔ _
    omega

end Numeral

/-! ### Rounding to a whole number -/

/-- A number of at least zero is at most a half away from the nearest whole number, and in the
middle between two the even one is taken. -/
theorem NearestEven.half {x : ℚ} {r : ℕ} (h : NearestEven (fun k => (k : ℚ)) x r) (hx : 0 ≤ x) :
    |(r : ℚ) - x| ≤ 1 / 2 ∧ (|(r : ℚ) - x| = 1 / 2 → Even r) := by
  have hup : x - r ≤ 1 / 2 := by
    have hnext := h.nearest (r + 1)
    have hdist := neg_le_abs ((r : ℚ) - x)
    rw [Nat.cast_succ] at hnext
    rcases abs_cases ((r : ℚ) + 1 - x) with ⟨heq, -⟩ | ⟨heq, -⟩ <;> linarith
  have hdown : r - x ≤ 1 / 2 := by
    cases r with
    | zero =>
      rw [Nat.cast_zero]
      linarith
    | succ k =>
      have hbefore := h.nearest k
      have hdist := le_abs_self ((k : ℚ) + 1 - x)
      rw [Nat.cast_succ] at hbefore ⊢
      rcases abs_cases ((k : ℚ) - x) with ⟨heq, -⟩ | ⟨heq, -⟩ <;> linarith
  refine ⟨abs_le.mpr ⟨by linarith, hdown⟩, ?_⟩
  intro htie
  rcases abs_cases ((r : ℚ) - x) with ⟨heq, -⟩ | ⟨heq, -⟩
  · -- the lower neighbour is as near: there is one, because the number is not negative
    cases r with
    | zero => exact Even.zero
    | succ k =>
      refine h.even k (Nat.succ_ne_self k).symm ?_
      rw [htie, Nat.cast_succ] at heq
      rw [htie, abs_of_neg (by linarith)]
      linarith
  · refine h.even (r + 1) (Nat.succ_ne_self r) ?_
    rw [htie] at heq
    rw [htie, Nat.cast_succ, abs_of_pos (by linarith)]
    linarith

/-! ### Printing a number -/

namespace Value

/-- A finite value is printed with its sign as the whole number of millionths nearest to it. -/
theorem exists_format_finite (s : Bool) (r : Fin 0x7FF0000000000000) :
    ∃ n : ℕ, (number (.finite s r)).format =
        .ok (String.ofList (Numeral.sign s ++ Numeral.fixed 6 n)) ∧
      |(n : ℚ) - Binary64.magnitude r * 10 ^ 6| ≤ 1 / 2 ∧
      (|(n : ℚ) - Binary64.magnitude r * 10 ^ 6| = 1 / 2 → Even n) := by
  have hnearest := nearestEven_roundDiv (Binary64.units r * 10 ^ 6) Binary64.unitsPerOne_pos
  have hmillionths : ((Binary64.units r * 10 ^ 6 : ℕ) / Binary64.unitsPerOne : ℚ) =
      Binary64.magnitude r * 10 ^ 6 := by
    rw [Nat.cast_mul, Nat.cast_pow, Nat.cast_ofNat, mul_div_right_comm, Binary64.magnitude]
  rw [hmillionths] at hnearest
  refine ⟨_, rfl, hnearest.half ?_⟩
  exact mul_nonneg (Binary64.magnitude_nonneg r) (by norm_num)

end Value

/-- The text of every number. A finite word is printed as an optional sign and a decimal of six
places, half a millionth away from its exact value at most, and in the middle between two such
decimals the last digit is even. The other words are the infinities and the NaNs. -/
theorem format_rounds {w : ℕ} (hw : w < 2 ^ 64) :
    (Word.exponent w ≠ 2047 → ∃ whole fraction,
      (Value.number (.ofBits w)).format = .ok (String.ofList
        ((if Word.negative w then ['-'] else []) ++ whole ++ '.' :: fraction)) ∧
      IsDecimal 6 whole fraction ∧
      |decimalValue whole fraction - (|Word.exact w|)| ≤ 1 / 2 * (10 ^ 6)⁻¹ ∧
      (|decimalValue whole fraction - (|Word.exact w|)| = 1 / 2 * (10 ^ 6)⁻¹ →
        ∀ c ∈ fraction.getLast?, Even (c.toNat - '0'.toNat))) ∧
    (Word.exponent w = 2047 → Word.fraction w = 0 →
      (Value.number (.ofBits w)).format = .ok (if Word.negative w then "-inf" else "inf")) ∧
    (Word.exponent w = 2047 → Word.fraction w ≠ 0 →
      (Value.number (.ofBits w)).format = .ok "nan") := by
  refine ⟨?_, ?_, ?_⟩
  · intro hexponent
    obtain ⟨s, r, rfl⟩ := Word.IsFinite.exists_toBits ⟨hw, hexponent⟩
    obtain ⟨n, hformat, hnear, htie⟩ := Value.exists_format_finite s r
    obtain ⟨whole, fraction, hfixed, hdecimal, hvalue, hlast⟩ :=
      @Numeral.fixed_spec 6 (by decide) n
    have hmillion : (0 : ℚ) < (10 ^ 6)⁻¹ := by norm_num
    have hexact : |Word.exact (Binary64.finite s r).toBits| = Binary64.magnitude r := by
      rw [Word.exact_toBits, abs_signed, abs_of_nonneg (Binary64.magnitude_nonneg r)]
    have hscale : |decimalValue whole fraction - Binary64.magnitude r| =
        |(n : ℚ) - Binary64.magnitude r * 10 ^ 6| * (10 ^ 6)⁻¹ := by
      rw [hvalue, ← abs_of_pos hmillion, ← abs_mul, sub_mul, mul_inv_cancel_right₀ (by norm_num),
        div_eq_mul_inv]
    rw [Binary64.ofBits_toBits, Word.negative_toBits, hexact]
    refine ⟨whole, fraction, ?_, hdecimal, ?_, ?_⟩
    · rw [hformat, hfixed, List.append_assoc]
      rfl
    · rw [hscale]
      exact mul_le_mul_of_nonneg_right hnear hmillion.le
    · rw [hscale]
      intro hhalf c hc
      exact (hlast c hc).mpr (htie (mul_right_cancel₀ hmillion.ne' hhalf))
  · intro hexponent hfraction
    rw [Word.ofBits_of_exponent_eq hexponent, if_pos hfraction]
    cases Word.negative w <;> rfl
  · intro hexponent hfraction
    rw [Word.ofBits_of_exponent_eq hexponent, if_neg hfraction]
    rfl

/-- A word is `2 ^ (-7)`, which is 0.0078125. -/
theorem exact_half_pow_seven : Word.exact 0x3F80000000000000 = 78125 / 10 ^ 7 := by
  have hexponent : Word.exponent 0x3F80000000000000 = 1016 := by decide
  have hfraction : Word.fraction 0x3F80000000000000 = 0 := by decide
  have hnegative : Word.negative 0x3F80000000000000 = false := by decide
  rw [Word.exact, Word.magnitude, Word.significand, hexponent, hfraction, hnegative]
  norm_num

/-- This number lies in the middle between two decimals of six places, half a millionth from each,
and the one with the even digit is printed. -/
theorem format_rounds_tie :
    (Value.number (.ofBits 0x3F80000000000000)).format = .ok "0.007812" ∧
      IsDecimal 6 "0".toList "007812".toList ∧
      |decimalValue "0".toList "007812".toList - (|Word.exact 0x3F80000000000000|)| =
        1 / 2 * (10 ^ 6)⁻¹ ∧
      ∀ c ∈ "007812".toList.getLast?, Even (c.toNat - '0'.toNat) := by
  have htext : (Value.number (.ofBits 0x3F80000000000000)).format = .ok "0.007812" := by
    decide +kernel
  have hhalf : |decimalValue "0".toList "007812".toList - (|Word.exact 0x3F80000000000000|)| =
      1 / 2 * (10 ^ 6)⁻¹ := by
    have hwhole : Nat.ofDigitChars 10 "0".toList 0 = 0 := by decide
    have hplaces : Nat.ofDigitChars 10 "007812".toList 0 = 7812 := by decide
    have hlength : "007812".toList.length = 6 := by decide
    rw [decimalValue, hwhole, hplaces, hlength, exact_half_pow_seven]
    norm_num
  obtain ⟨whole, fraction, hformat, hdecimal, -, htie⟩ :=
    (@format_rounds 0x3F80000000000000 (by decide)).1 (by decide)
  -- six places are behind the point, so the text can be divided in one way only
  have hsplit : whole ++ '.' :: fraction = "0".toList ++ '.' :: "007812".toList := by
    have hsame := congrArg String.toList (Except.ok.inj (hformat.symm.trans htext))
    rwa [String.toList_ofList] at hsame
  obtain ⟨rfl, hfraction⟩ := List.append_inj' hsplit (by simp [hdecimal.length])
  obtain rfl : fraction = "007812".toList := by simpa using hfraction
  exact ⟨htext, hdecimal, hhalf, htie hhalf⟩

end SExprCalc
