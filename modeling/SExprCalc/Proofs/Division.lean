import SExprCalc.Proofs.Reduction

/-!
# Division

Division is laid down for words in one table (`Word.IsQuotient`): which operands give NaN, which an
infinity or a zero, and that everything else is the exact quotient, rounded correctly. The library
divides along two paths. A quotient by zero does not exist (`Binary64.quotient?`), and the result
is then put together from signs alone (`Binary64.div_of_isZero`). Both paths follow the table, for
all pairs of words (`Word.isQuotient_div`).

A zero divisor can be negative, although no literal is: `(mult 0 -1)` is one. So a division by it
gives the infinity of the other sign.
-/

namespace SExprCalc

/-! ### The two paths -/

namespace Binary64

variable {x y : Binary64}

/-- A quotient by zero does not exist, whatever the sign of the zero and whatever is divided. -/
theorem quotient?_of_isZero (hy : y.isZero = true) : quotient? x y = none := if_pos hy

theorem div_of_quotient? {q : Binary64} (h : quotient? x y = some q) : x.div y = q := by
  rw [div, h]

/-- Division by anything but a zero is the quotient. -/
theorem quotient?_eq_some_div (hy : y.isZero = false) : quotient? x y = some (x.div y) := by
  have hsome : ∃ q, quotient? x y = some q := ⟨_, if_neg (by simp [hy])⟩
  obtain ⟨q, hq⟩ := hsome
  rw [div_of_quotient? hq, hq]

theorem ofInt_one : ofInt 1 = finite false ⟨0x3FF0000000000000, by decide⟩ := by decide +kernel

/-- An infinity with one sign times a one with the other: one is not zero, so this is no NaN. -/
theorem mul_copySign (x y : Binary64) :
    mul (copySign (infinite false) x) (copySign (ofInt 1) y) =
      infinite (x.isNegative ^^ y.isNegative) := by
  rw [ofInt_one]
  rfl

/-- Division by a zero is NaN for a zero and for NaN, and else the infinity whose sign tells the
two signs apart. -/
theorem div_of_isZero (hy : y.isZero = true) :
    x.div y = if x.isZero || x.isNaN then nan else infinite (x.isNegative ^^ y.isNegative) := by
  rw [div, quotient?_of_isZero hy, mul_copySign]

section Table

variable {s t : Bool} {r q : Fin 0x7FF0000000000000}

/-- A finite value counts as zero exactly if its magnitude is zero: both zeros do, and no other
value, however small, does. -/
theorem isZero_finite_iff : (finite s r).isZero = true ↔ magnitude r = 0 := by
  rw [magnitude_eq_zero_iff]
  exact beq_iff_eq

/-- NaN divided by anything is NaN. By a zero this is the second path, where NaN has to be asked for
like a zero. -/
theorem div_nan_left (y : Binary64) : div nan y = nan := by
  cases hy : y.isZero with
  | true =>
    rw [div_of_isZero hy]
    rfl
  | false => exact div_of_quotient? (if_neg (by simp [hy]))

theorem div_nan_right (x : Binary64) : div x nan = nan := by cases x <;> rfl

/-- An infinity divided by a number is infinite, also if that number is zero. -/
theorem div_infinite_finite : div (infinite s) (finite t q) = infinite (s ^^ t) := by
  cases hq : (finite t q).isZero with
  | true =>
    rw [div_of_isZero hq]
    rfl
  | false => exact div_of_quotient? (if_neg (by simp [hq]))

/-- A fraction of units becomes the value of its sign with the nearest rank, or an infinity. -/
theorem ofFraction_cases (s : Bool) (num : ℕ) {den : ℕ} (hden : 0 < den) :
    (2 ^ 1024 - 2 ^ 970 ≤ (num : ℚ) / den / unitsPerOne ∧ ofFraction s num den = infinite s) ∨
      ((num : ℚ) / den / unitsPerOne < 2 ^ 1024 - 2 ^ 970 ∧ ∃ r, ofFraction s num den = finite s r ∧
        NearestEven magnitude ((num : ℚ) / den / unitsPerOne) r) := by
  have hnearest := nearestEven_magnitude num hden
  have hbeyond := beyond_iff_of_nearestEven hnearest
  by_cases h : rankOfFraction num den < 0x7FF0000000000000
  · refine .inr ⟨?_, ⟨_, h⟩, dif_pos h, hnearest⟩
    exact not_le.mp fun hle => Nat.not_le.mpr h (hbeyond.mpr hle)
  · exact .inl ⟨hbeyond.mp (Nat.not_lt.mp h), dif_neg h⟩

/-- The quotient of two numbers is the nearest value to the exact one, or an infinity. -/
theorem div_finite_cases (hq : (finite t q).isZero = false) :
    (2 ^ 1024 - 2 ^ 970 ≤ magnitude r / magnitude q ∧
        div (finite s r) (finite t q) = infinite (s ^^ t)) ∨
      (magnitude r / magnitude q < 2 ^ 1024 - 2 ^ 970 ∧
        ∃ k, div (finite s r) (finite t q) = finite (s ^^ t) k ∧
          NearestEven magnitude (magnitude r / magnitude q) k) := by
  have hdiv : div (finite s r) (finite t q) =
      ofFraction (s ^^ t) (units r * unitsPerOne) (units q) :=
    div_of_quotient? (if_neg (by simp [hq]))
  have hpos : 0 < units q := by
    refine Nat.pos_of_ne_zero fun hzero => ?_
    rw [← Bool.not_eq_true, isZero_finite_iff, magnitude, hzero] at hq
    simp at hq
  have hexact : ((units r * unitsPerOne : ℕ) : ℚ) / units q / unitsPerOne =
      magnitude r / magnitude q := by
    have hne := unitsPerOne_cast_pos.ne'
    rw [magnitude, magnitude, div_div_div_cancel_right₀ hne, Nat.cast_mul, div_right_comm,
      mul_div_cancel_right₀ _ hne]
  rw [hdiv, ← hexact]
  exact ofFraction_cases _ _ hpos

end Table

end Binary64

/-! ### The table -/

/-- A quotient of magnitudes with signs has the sign that tells the two apart. -/
theorem signed_xor_div (s t : Bool) (x y : ℚ) :
    signed (s ^^ t) (x / y) = signed s x / signed t y := by
  cases s <;> cases t <;> simp [neg_div, div_neg]

namespace Word

/-- What division gives for two words. Where it gives a NaN, any one will do. -/
inductive IsQuotient (w v q : ℕ) : Prop where
  /-- a NaN is passed on -/
  | nan_left (hw : IsNaN w) (hq : IsNaN q)
  /-- a NaN is passed on -/
  | nan_right (hv : IsNaN v) (hq : IsNaN q)
  /-- two infinities have no quotient -/
  | infinite_infinite (hw : IsInfinite w) (hv : IsInfinite v) (hq : IsNaN q)
  /-- two zeros have no quotient -/
  | zero_zero (hw : IsZero w) (hv : IsZero v) (hq : IsNaN q)
  /-- an infinity stays infinite, even over zero -/
  | infinite_finite (hw : IsInfinite w) (hv : IsFinite v)
      (hq : q = infinity (negative w ^^ negative v))
  /-- a number over an infinity is zero -/
  | finite_infinite (hw : IsFinite w) (hv : IsInfinite v) (hq : IsZero q)
      (hsign : negative q = (negative w ^^ negative v))
  /-- a number other than zero over zero is infinite -/
  | finite_zero (hw : IsFinite w) (hne : ¬IsZero w) (hv : IsZero v)
      (hq : q = infinity (negative w ^^ negative v))
  /-- a quotient out of range is infinite -/
  | overflow (hw : IsFinite w) (hv : IsFinite v) (hne : ¬IsZero v)
      (hlarge : 2 ^ 1024 - 2 ^ 970 ≤ |exact w / exact v|)
      (hq : q = infinity (negative w ^^ negative v))
  /-- any other quotient is rounded, and a zero keeps its sign -/
  | rounded (hw : IsFinite w) (hv : IsFinite v) (hne : ¬IsZero v)
      (hsmall : |exact w / exact v| < 2 ^ 1024 - 2 ^ 970)
      (hq : RoundsTo q (exact w / exact v)) (hsign : negative q = (negative w ^^ negative v))

/-! ### Words and values -/

theorem isZero_toBits (s : Bool) : IsZero (Binary64.zero s).toBits := by
  cases s <;> exact ⟨by decide, by decide⟩

variable {w v : ℕ}

/-- A word is a NaN, an infinity or a number, and encodes a value of that kind and of its sign. -/
theorem ofBits_cases (hw : w < 2 ^ 64) :
    (IsNaN w ∧ Binary64.ofBits w = .nan) ∨
    (IsInfinite w ∧ Binary64.ofBits w = .infinite (negative w)) ∨
    (IsFinite w ∧ ∃ r, Binary64.ofBits w = .finite (negative w) r) := by
  by_cases hexponent : exponent w = 2047
  · have hvalue := ofBits_of_exponent_eq hexponent
    by_cases hfraction : fraction w = 0
    · exact .inr (.inl ⟨⟨hexponent, hfraction⟩, hvalue.trans (if_pos hfraction)⟩)
    · exact .inl ⟨⟨hexponent, hfraction⟩, hvalue.trans (if_neg hfraction)⟩
  · obtain ⟨s, r, rfl⟩ := IsFinite.exists_toBits ⟨hw, hexponent⟩
    refine .inr (.inr ⟨⟨hw, hexponent⟩, r, ?_⟩)
    rw [Binary64.ofBits_toBits, negative_toBits]

/-- A word is a NaN exactly if it is read as the one NaN of the library, although many words are
NaNs: the exponent field decides, with any fraction but zero. -/
theorem isNaN_iff (hw : w < 2 ^ 64) : IsNaN w ↔ (Binary64.ofBits w).isNaN = true := by
  rcases ofBits_cases hw with ⟨hnan, hx⟩ | ⟨hinf, hx⟩ | ⟨hfin, r, hx⟩
  · rw [hx]
    exact iff_of_true hnan rfl
  · rw [hx]
    exact iff_of_false (fun hnan => hnan.2 hinf.2) Bool.false_ne_true
  · rw [hx]
    exact iff_of_false (fun hnan => hfin.exponent_ne hnan.1) Bool.false_ne_true

/-- A word that is not a NaN is read as a value of the same sign. A NaN has to be left out, since
its sign bit is lost when all NaNs become one. -/
theorem isNegative_ofBits (hw : w < 2 ^ 64) (h : ¬IsNaN w) :
    (Binary64.ofBits w).isNegative = negative w := by
  rcases ofBits_cases hw with ⟨hnan, -⟩ | ⟨-, hx⟩ | ⟨-, r, hx⟩
  · exact absurd hnan h
  · rw [hx]
    rfl
  · rw [hx]
    rfl

/-- The zeros encode the two values that are zero. -/
theorem isZero_iff (hw : w < 2 ^ 64) : IsZero w ↔ (Binary64.ofBits w).isZero = true := by
  by_cases hexponent : exponent w = 2047
  · have hvalue := ofBits_of_exponent_eq hexponent
    rw [IsZero, hexponent, hvalue]
    split <;> simp [Binary64.isZero]
  · obtain ⟨s, r, rfl⟩ := IsFinite.exists_toBits ⟨hw, hexponent⟩
    rw [IsZero, exponent_toBits, fraction_toBits, Binary64.ofBits_toBits, Binary64.isZero,
      beq_iff_eq]
    omega

/-- For two numbers, the sign of a zero divisor decides as much as that of any other. -/
theorem isQuotient_div_finite (hw : IsFinite w) (hv : IsFinite v) :
    IsQuotient w v ((Binary64.ofBits w).div (Binary64.ofBits v)).toBits := by
  have hzero := isZero_iff hw.lt
  have hzero' := isZero_iff hv.lt
  obtain ⟨s, r, rfl⟩ := hw.exists_toBits
  obtain ⟨t, q, rfl⟩ := hv.exists_toBits
  simp only [Binary64.ofBits_toBits] at hzero hzero' ⊢
  have hsign : (negative (Binary64.finite s r).toBits ^^ negative (Binary64.finite t q).toBits) =
      (s ^^ t) := by
    rw [negative_toBits, negative_toBits]
  by_cases hdivisor : (Binary64.finite t q).isZero = true
  · rw [Binary64.div_of_isZero hdivisor]
    by_cases hdividend : (Binary64.finite s r).isZero = true
    · rw [hdividend]
      exact .zero_zero (hzero.mpr hdividend) (hzero'.mpr hdivisor) isNaN_toBits
    · rw [Bool.not_eq_true] at hdividend
      rw [hdividend]
      refine .finite_zero hw (hzero.not.mpr (by simp [hdividend])) (hzero'.mpr hdivisor) ?_
      rw [hsign]
      exact toBits_infinite _
  · have hexact : exact (Binary64.finite s r).toBits / exact (Binary64.finite t q).toBits =
        signed (s ^^ t) (Binary64.magnitude r / Binary64.magnitude q) := by
      rw [exact_toBits, exact_toBits, signed_xor_div]
    have hnonneg : 0 ≤ Binary64.magnitude r / Binary64.magnitude q :=
      div_nonneg (Binary64.magnitude_nonneg _) (Binary64.magnitude_nonneg _)
    have hcases := @Binary64.div_finite_cases s t r q (Bool.eq_false_of_not_eq_true hdivisor)
    rcases hcases with ⟨hle, h⟩ | ⟨hlt, k, h, hnearest⟩
    · refine .overflow hw hv (hzero'.not.mpr hdivisor) ?_ ?_
      · rwa [hexact, abs_signed, abs_of_nonneg hnonneg]
      · rw [h, hsign, toBits_infinite]
    · refine .rounded hw hv (hzero'.not.mpr hdivisor) ?_ ?_ ?_
      · rwa [hexact, abs_signed, abs_of_nonneg hnonneg]
      · rw [h, hexact]
        exact roundsTo_of_nearestEven hnonneg _ hnearest
      · rw [h, hsign, negative_toBits]

/-- Division follows the table for all pairs of words. NaNs come first, as they decide whatever the
other operand is; then there are four pairs of an infinity or a number. -/
theorem isQuotient_div (hw : w < 2 ^ 64) (hv : v < 2 ^ 64) :
    IsQuotient w v ((Binary64.ofBits w).div (Binary64.ofBits v)).toBits := by
  rcases ofBits_cases hw with ⟨hnan, hx⟩ | hdividend
  · rw [hx, Binary64.div_nan_left]
    exact .nan_left hnan isNaN_toBits
  rcases ofBits_cases hv with ⟨hnan, hy⟩ | hdivisor
  · rw [hy, Binary64.div_nan_right]
    exact .nan_right hnan isNaN_toBits
  rcases hdividend with ⟨hinf, hx⟩ | ⟨hfin, r, hx⟩ <;>
    rcases hdivisor with ⟨hinf', hy⟩ | ⟨hfin', q, hy⟩
  · rw [hx, hy]
    exact .infinite_infinite hinf hinf' isNaN_toBits
  · rw [hx, hy, Binary64.div_infinite_finite, toBits_infinite]
    exact .infinite_finite hinf hfin' rfl
  · rw [hx, hy]
    exact .finite_infinite hfin hinf' (isZero_toBits _) (negative_toBits _ _)
  · -- two numbers: the sign of a zero divisor, overflow and rounding are left
    exact isQuotient_div_finite hfin hfin'

/-- Where the divisor is zero, the kind of the dividend and the two signs tell the result. -/
theorem div_isZero (hw : w < 2 ^ 64) (hv : v < 2 ^ 64) (hzero : IsZero v) :
    (IsNaN ((Binary64.ofBits w).div (Binary64.ofBits v)).toBits ↔ IsNaN w ∨ IsZero w) ∧
    (¬(IsNaN w ∨ IsZero w) → ((Binary64.ofBits w).div (Binary64.ofBits v)).toBits =
      infinity (negative w ^^ negative v)) := by
  have hinvalid : ((Binary64.ofBits w).isZero || (Binary64.ofBits w).isNaN) = true ↔
      IsNaN w ∨ IsZero w := by
    rw [Bool.or_eq_true, ← isZero_iff hw, ← isNaN_iff hw, or_comm]
  have hdivisor : ¬IsNaN v := fun hnan => absurd (hzero.1.symm.trans hnan.1) (by decide)
  rw [Binary64.div_of_isZero ((isZero_iff hv).mp hzero)]
  by_cases h : IsNaN w ∨ IsZero w
  · rw [if_pos (hinvalid.mpr h)]
    exact ⟨iff_of_true isNaN_toBits h, fun hvalid => absurd h hvalid⟩
  · rw [if_neg (hinvalid.not.mpr h), toBits_infinite, isNegative_ofBits hw (h ∘ .inl),
      isNegative_ofBits hv hdivisor]
    exact ⟨iff_of_false (not_isNaN_infinity _) h, fun _ => rfl⟩

end Word

/-! ### Quotients as they are written -/

/-- A number divided by an operand of height at most two, both of which have values, gives the
quotient of these values, if there are three levels for it. -/
theorem evaluate_div_number {n : Numeral} {x y : Binary64} {e : Expr} {scope : Scope}
    (hvalue : Literal.value? n.text = some x) (hmeaning : e.meaning scope = pure (.number y))
    (hheight : e.height ≤ 2) {maxDepth : Int} (hdepth : 3 ≤ maxDepth) :
    (evaluate (Expr.div (.number n) e).source scope maxDepth).result =
      .ok (.number (x.div y)) := by
  have hnumber : n.value = .ok (.number x) := by rw [Numeral.value, hvalue]
  have htotal : (Expr.div (.number n) e).height ≤ 3 := by
    rw [Expr.height, Expr.height]
    omega
  have hmeans : (evaluate (Expr.div (.number n) e).source scope maxDepth).Means
      ((Expr.div (.number n) e).meaning scope) :=
    evaluate_means_of_height_le (Expr.layout_text _) (htotal.trans (by decide)) (by omega)
  rw [hmeans.result, Expr.meaning, Expr.meaning, hnumber, hmeaning]
  rfl

namespace Expr

theorem meaning_integer_zero (scope : Scope) :
    (integer 0).meaning scope = pure (.number (.zero false)) := by
  rw [integer, meaning, Numeral.value_canonical (by decide), Binary64.ofInt_zero]
  rfl

/-- The product of zero and minus one is the negative zero. -/
theorem meaning_negativeZero (scope : Scope) :
    (mult ([0, -1].map integer)).meaning scope = pure (.number (.zero true)) := by
  have hproduct : [0, -1].foldl (fun total n => Binary64.mul total (.ofInt n)) (.ofInt 1) =
      .zero true := by
    decide +kernel
  rw [meaning, meaningAll_integers _ _ _ (by decide), hproduct]
  rfl

end Expr

/-- A literal that is read has the sign of its integer. -/
theorem Numeral.exists_value?_of_readNumber {n : Numeral} {x : Binary64} {c : Cursor}
    (hread : Cursor.readNumber ⟨n.text, 0⟩ = .ok (x, c)) :
    ∃ r, x = .finite (n.integer < 0) r ∧ Literal.value? n.text = some x := by
  have hinside : Cursor.Inside ⟨n.text, 0⟩ := ⟨le_rfl, Int.natCast_nonneg _⟩
  have hrest : Cursor.rest ⟨n.text, 0⟩ = n.text ++ [] := (List.append_nil _).symm
  rw [Cursor.readNumber_text hinside hrest (stopsAt_nil _)] at hread
  by_cases hrange : 4300 < n.digits.length ∨ 2 ^ 1024 - 2 ^ 970 ≤ |n.integer|
  · rw [value?_eq_none hrange] at hread
    cases hread
  · obtain ⟨r, hvalue, -⟩ := exists_value? hrange
    rw [hvalue] at hread ⊢
    cases hread
    exact ⟨r, rfl, rfl⟩

/-! ### The theorem -/

/-- Division follows the table for all pairs of words; by a zero it does so without a quotient, and
else it is the quotient. So a literal other than zero, divided by the two zeros, gives the two
infinities. -/
theorem division_follows_table :
    (∀ w v : ℕ, w < 2 ^ 64 → v < 2 ^ 64 →
      Word.IsQuotient w v ((Binary64.ofBits w).div (Binary64.ofBits v)).toBits ∧
      (Word.IsZero v →
        (Word.IsNaN ((Binary64.ofBits w).div (Binary64.ofBits v)).toBits ↔
          Word.IsNaN w ∨ Word.IsZero w) ∧
        (¬(Word.IsNaN w ∨ Word.IsZero w) →
          ((Binary64.ofBits w).div (Binary64.ofBits v)).toBits =
            Word.infinity (Word.negative w ^^ Word.negative v))) ∧
      (¬Word.IsZero v → Binary64.quotient? (.ofBits w) (.ofBits v) =
        some ((Binary64.ofBits w).div (Binary64.ofBits v)))) ∧
    (∀ (n : Numeral) (x : Binary64) (c : Cursor),
      Cursor.readNumber ⟨n.text, 0⟩ = .ok (x, c) → Word.exact x.toBits ≠ 0 →
      ∀ (scope : Scope) (maxDepth : Int), 3 ≤ maxDepth →
        (evaluate ("(div " ++ String.ofList n.text ++ " 0)") scope maxDepth).result =
          .ok (.number (.infinite (n.integer < 0))) ∧
        (evaluate ("(div " ++ String.ofList n.text ++ " (mult 0 -1))") scope maxDepth).result =
          .ok (.number (.infinite !(n.integer < 0)))) := by
  refine ⟨?_, ?_⟩
  · intro w v hw hv
    refine ⟨Word.isQuotient_div hw hv, Word.div_isZero hw hv, ?_⟩
    intro hzero
    rw [Word.isZero_iff hv, Bool.not_eq_true] at hzero
    exact Binary64.quotient?_eq_some_div hzero
  · intro n x c hread hne scope maxDepth hdepth
    obtain ⟨r, rfl, hvalue⟩ := Numeral.exists_value?_of_readNumber hread
    have hdividend : (Binary64.finite (n.integer < 0) r).isZero = false := by
      rw [← Bool.not_eq_true, Binary64.isZero_finite_iff]
      intro hzero
      rw [Word.exact_toBits, hzero] at hne
      simp [signed] at hne
    have hinfinite (s : Bool) : Binary64.div (.finite (n.integer < 0) r) (.zero s) =
        .infinite (n.integer < 0 ^^ s) := by
      rw [Binary64.div_of_isZero rfl, hdividend]
      rfl
    have hzero : (Numeral.canonical 0).text = ['0'] := by decide
    have hone : (Numeral.canonical (-1)).text = ['-', '1'] := by decide
    have hsource : "(div " ++ String.ofList n.text ++ " 0)" =
        (Expr.div (.number n) (.integer 0)).source := by
      rw [← String.toList_inj]
      simp [Expr.source, Expr.text, Form.enclose, Form.head, Expr.integer, hzero]
    have hsource' : "(div " ++ String.ofList n.text ++ " (mult 0 -1))" =
        (Expr.div (.number n) (.mult ([0, -1].map .integer))).source := by
      rw [← String.toList_inj]
      simp [Expr.source, Expr.text, Expr.textAll, Form.enclose, Form.head, Expr.integer, hzero,
        hone]
    rw [hsource, evaluate_div_number hvalue (Expr.meaning_integer_zero scope) (by decide) hdepth,
      hsource', evaluate_div_number hvalue (Expr.meaning_negativeZero scope) (by decide) hdepth,
      hinfinite, hinfinite, Bool.xor_false, Bool.xor_true]
    exact ⟨rfl, rfl⟩

/-- Minus infinity and the least subnormal over the negative zero, and a literal over both zeros. -/
theorem division_follows_table_zeros :
    ((Binary64.ofBits 0xFFF0000000000000).div (.ofBits 0x8000000000000000)).toBits =
        0x7FF0000000000000 ∧
      ((Binary64.ofBits 1).div (.ofBits 0x8000000000000000)).toBits = 0xFFF0000000000000 ∧
      (evaluate "(div -05 0)" {} 3).result = .ok (.number (.infinite true)) ∧
      (evaluate "(div -05 (mult 0 -1))" {} 3).result = .ok (.number (.infinite false)) := by
  obtain ⟨hwords, hliterals⟩ := division_follows_table
  have hzero : Word.IsZero 0x8000000000000000 := ⟨by decide, by decide⟩
  have hinfinite : ¬(Word.IsNaN 0xFFF0000000000000 ∨ Word.IsZero 0xFFF0000000000000) := by
    simp [Word.IsNaN, Word.IsZero, Word.exponent, Word.fraction]
  have hleast : ¬(Word.IsNaN 1 ∨ Word.IsZero 1) := by
    simp [Word.IsNaN, Word.IsZero, Word.exponent, Word.fraction]
  let n : Numeral := { negative := true, digits := ['0', '5'] }
  have hread : Cursor.readNumber ⟨n.text, 0⟩ = .ok (.ofInt (-5), ⟨n.text, 3⟩) := by decide +kernel
  have hne : Word.exact (Binary64.ofInt (-5)).toBits ≠ 0 := by
    rw [(Binary64.denotes_ofInt (by decide)).exact.2]
    decide
  obtain ⟨hpositive, hnegative⟩ := hliterals n _ _ hread hne {} 3 (by decide)
  exact ⟨((hwords _ _ (by decide) (by decide)).2.1 hzero).2 hinfinite,
    ((hwords _ _ (by decide) (by decide)).2.1 hzero).2 hleast, hpositive, hnegative⟩

end SExprCalc
