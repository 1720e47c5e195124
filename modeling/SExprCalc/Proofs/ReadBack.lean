import SExprCalc.Proofs.FixedPoint
import SExprCalc.Proofs.LetNesting
import SExprCalc.Proofs.LiteralValue

/-!
# Printing a literal's value and reading it back

The value of a literal is a whole number, also where it is not the one that was written: beyond
`2 ^ 53` the numbers of binary64 are all whole (`Binary64.exists_magnitude_eq`). So its text is the
canonical decimal of an integer (`Numeral.canonical`), followed by a point and six zeros, and
reading that decimal needs no rounding: it gives the same value.
-/

namespace SExprCalc

/-! ### Canonical decimals -/

namespace Numeral

/-- A decimal without superfluous zeros: a zero alone and without a sign, or digits that do not
start with a zero. -/
def IsCanonical (n : Numeral) : Prop := n.text = ['0'] ∨ n.digits.head? ≠ some '0'

theorem text_eq_sign_append (n : Numeral) : n.text = sign n.negative ++ n.digits := by
  rw [text, sign]
  split <;> rfl

/-- The canonical decimal of an integer. -/
def canonical (k : ℤ) : Numeral where
  negative := k < 0
  digits := decimal k.natAbs
  ne_nil := decimal_ne_nil _
  isDigit _ := isDigit_of_mem_decimal

variable (k : ℤ)

theorem integer_canonical : (canonical k).integer = k := by
  simp only [integer, canonical, ofDigitChars_decimal, decide_eq_true_eq]
  split <;> omega

theorem isCanonical_canonical : (canonical k).IsCanonical := by
  by_cases hk : k = 0
  · subst hk
    exact .inl rfl
  · refine .inr fun hhead => hk ?_
    exact Int.natAbs_eq_zero.mp (eq_zero_of_head?_decimal hhead)

/-- The canonical decimal is how integers are shown everywhere. -/
theorem text_canonical : (canonical k).text = (toString k).toList := by
  rw [Int.toString_eq_repr, Int.repr_eq_if, text]
  rcases lt_or_ge k 0 with hk | hk
  · have hnegative : (canonical k).negative = true := decide_eq_true hk
    rw [if_neg (Int.not_le.mpr hk), if_pos hnegative, String.toList_append, Nat.toList_repr,
      show (-k).toNat = k.natAbs by omega]
    rfl
  · have hnegative : (canonical k).negative ≠ true := by
      simpa [canonical] using hk
    rw [if_pos hk, if_neg hnegative, Nat.toList_repr, show k.toNat = k.natAbs by omega]
    rfl

/-- With places, a whole number is its canonical decimal and zeros. -/
theorem fixed_mul {places : ℕ} (hplaces : 0 < places) (m : ℕ) :
    fixed places (m * 10 ^ places) = decimal m ++ '.' :: List.replicate places '0' := by
  have hpower : 0 < 10 ^ places := Nat.pow_pos (by decide)
  have hzeros : (decimal 0).leftpad places '0' = List.replicate places '0' := by
    obtain ⟨k, rfl⟩ := Nat.exists_eq_succ_of_ne_zero hplaces.ne'
    exact List.replicate_succ'.symm
  rw [fixed, Nat.pow_eq, Nat.mul_div_cancel m hpower, Nat.mul_mod_left, hzeros]

end Numeral

/-! ### Values of literals are whole -/

namespace Binary64

/-- The rank nearest to a whole number is one of a whole number. -/
theorem exists_magnitude_eq {k r : ℕ} (h : NearestEven magnitude k r) :
    ∃ m : ℕ, magnitude r = m := by
  by_cases hk : k ≤ 2 ^ 53
  · exact ⟨k, magnitude_of_nearestEven h hk⟩
  · -- from `2 ^ 53` on, the last bit of the significand counts a power of two that is at least one
    have hfirst : magnitude ((0 + 1074) * 2 ^ 52 + 2 ^ 53) = (2 ^ 53 * 2 ^ 0 : ℕ) :=
      magnitude_shift 0 le_rfl (by omega)
    have hrank : (0 + 1074) * 2 ^ 52 + 2 ^ 53 ≤ r := by
      refine h.le_of_term_le magnitude_strictMono ?_
      rw [hfirst, Nat.cast_le]
      omega
    obtain ⟨shift, m, rfl, hm, hhidden⟩ := exists_shift r
    obtain ⟨e, rfl⟩ : ∃ e, shift = e + 1074 := ⟨shift - 1074, by omega⟩
    exact ⟨_, magnitude_shift e hm.le (by omega)⟩

/-- Only zero is rounded to zero. -/
theorem one_le_magnitude {k r : ℕ} (h : NearestEven magnitude k r) (hk : 1 ≤ k) :
    1 ≤ magnitude r := by
  obtain ⟨s, hone⟩ := exists_rank (show 1 ≤ 2 ^ 53 by omega)
  have hrank : s ≤ r := h.le_of_term_le magnitude_strictMono (by rw [hone]; exact_mod_cast hk)
  have hmono := magnitude_strictMono.monotone hrank
  rwa [hone, Nat.cast_one] at hmono

/-- A finite value is an integer, with the sign of that integer. So zero is positive. -/
structure Whole (s : Bool) (r : Fin 0x7FF0000000000000) (k : ℤ) : Prop where
  /-- the magnitude is that of the integer -/
  magnitude_eq : magnitude r = k.natAbs
  /-- the sign is that of the integer -/
  negative_eq : s = decide (k < 0)

/-- The value nearest to an integer is an integer, and the same one up to `2 ^ 53`. -/
theorem exists_whole {n : ℤ} {r : Fin 0x7FF0000000000000}
    (h : NearestEven magnitude n.natAbs r) :
    ∃ k : ℤ, Whole (n < 0) r k ∧ (|n| ≤ 2 ^ 53 → k = n) := by
  obtain ⟨m, hm⟩ := exists_magnitude_eq h
  have hexact (hn : |n| ≤ 2 ^ 53) : m = n.natAbs := by
    have := magnitude_of_nearestEven h (by rw [Int.abs_eq_natAbs] at hn; omega)
    exact_mod_cast hm.symm.trans this
  rcases lt_or_ge n 0 with hn | hn
  · have hpos : 1 ≤ m := by
      have := one_le_magnitude h (by omega)
      rw [hm] at this
      exact_mod_cast this
    refine ⟨-m, ⟨by rw [hm, Int.natAbs_neg, Int.natAbs_natCast], ?_⟩, ?_⟩
    · rw [decide_eq_true hn, decide_eq_true (by omega)]
    · intro hsmall
      have := hexact hsmall
      omega
  · refine ⟨m, ⟨by rw [hm, Int.natAbs_natCast], ?_⟩, ?_⟩
    · rw [decide_eq_false (by omega), decide_eq_false (by omega)]
    · intro hsmall
      have := hexact hsmall
      omega

namespace Whole

variable {s : Bool} {r : Fin 0x7FF0000000000000} {k : ℤ}

theorem exact (h : Whole s r k) : Word.exact (finite s r).toBits = k := by
  rw [Word.exact_toBits, h.magnitude_eq, h.negative_eq, signed_natAbs]

/-- The text of a whole value is the canonical decimal of the integer and six zeros. -/
theorem format (h : Whole s r k) : (Value.number (finite s r)).format =
    .ok (String.ofList ((Numeral.canonical k).text ++ ".000000".toList)) := by
  have hunits := magnitude_eq_natCast.mp h.magnitude_eq
  have hmillionths : roundDiv (units r * 10 ^ 6) unitsPerOne = k.natAbs * 10 ^ 6 := by
    rw [hunits, Nat.mul_right_comm, roundDiv_mul_right _ unitsPerOne_pos]
  have htext : String.ofList (Numeral.sign s ++
      Numeral.fixed 6 (roundDiv (units r * 10 ^ 6) unitsPerOne)) =
      String.ofList ((Numeral.canonical k).text ++ ".000000".toList) := by
    rw [hmillionths, Numeral.fixed_mul (by decide), Numeral.text_eq_sign_append,
      List.append_assoc, h.negative_eq]
    rfl
  exact congrArg Except.ok htext

/-- A finite whole number has far fewer digits than a literal may have. -/
theorem length_digits_le (h : Whole s r k) : (Numeral.canonical k).digits.length ≤ 4300 := by
  have hlt := magnitude_strictMono r.isLt
  rw [h.magnitude_eq, magnitude_beyond, Nat.cast_lt, ← pow_add] at hlt
  refine (Nat.length_toDigits_le_iff (by decide) (by decide)).mpr (hlt.trans_le ?_)
  calc 2 ^ (53 + (970 + 1))
    _ ≤ 10 ^ (53 + (970 + 1)) := pow_le_pow_left₀ (by decide) (by decide) _
    _ ≤ 10 ^ 4300 := pow_le_pow_right₀ (by decide) (by decide)

/-- The canonical decimal of a whole value reads as that value. -/
theorem value? (h : Whole s r k) :
    Literal.value? (Numeral.canonical k).text = some (finite s r) := by
  have hrank : rankOfFraction (k.natAbs * unitsPerOne) 1 = r :=
    (nearestEven_natCast k.natAbs).eq_of_term magnitude_strictMono h.magnitude_eq
  have hrange : ¬(4300 < (Numeral.canonical k).digits.length ∨
      2 ^ 1024 - 2 ^ 970 ≤ |(Numeral.canonical k).integer|) := by
    rw [Numeral.integer_canonical, outOfRange_iff, hrank]
    exact not_or.mpr ⟨Nat.not_lt.mpr h.length_digits_le, Nat.not_le.mpr r.isLt⟩
  obtain ⟨r', hvalue, hnearest⟩ := Numeral.exists_value? hrange
  rw [Numeral.integer_canonical] at hvalue hnearest
  have hsame : r' = r := Fin.ext (hnearest.eq_of_term magnitude_strictMono h.magnitude_eq)
  rw [hvalue, hsame, h.negative_eq]

end Whole

end Binary64

/-! ### The theorem -/

/-- A number in parentheses after `print` is printed, whatever the scope, if there are two levels
for it. -/
theorem evaluate_print_number {n : Numeral} {x : Binary64} {line : String}
    (hvalue : Literal.value? n.text = some x) (hformat : (Value.number x).format = .ok line)
    (scope : Scope) {maxDepth : Int} (hdepth : 2 ≤ maxDepth) :
    (evaluate ("(print " ++ String.ofList n.text ++ ")") scope maxDepth).result = .ok .nil ∧
      (evaluate ("(print " ++ String.ofList n.text ++ ")") scope maxDepth).run.output =
        line ++ "\n" := by
  have hsource : "(print " ++ String.ofList n.text ++ ")" =
      String.ofList (Expr.print (.number n)).text := by
    rw [← String.toList_inj]
    simp [Expr.text, Form.enclose, Form.head]
  have hnumber : n.value = .ok (.number x) := by rw [Numeral.value, hvalue]
  have hmeaning : (Expr.print (.number n)).meaning scope = ⟨.ok .nil, [line]⟩ := by
    simp [Expr.meaning, Meaning.ofExcept, Meaning.say, hnumber, hformat]
  have hlevels : (Expr.print (.number n)).height ≤ stackLevels := by
    change 2 ≤ 600
    decide
  obtain ⟨hresult, houtput⟩ :=
    evaluate_means_of_height_le (Expr.print (.number n)).layout_text hlevels hdepth
  rw [hsource, hresult, houtput, hmeaning]
  exact ⟨rfl, by simp⟩

/-- For every literal that is read, the value's text is the canonical decimal of an integer that
is exactly the value, followed by a point and six zeros; and that decimal is read, to its end, as
the same value. Up to `2 ^ 53` it is the integer that the literal denotes, and so printing the
literal shows that integer. -/
theorem literal_reads_back {c c' : Cursor} (hin : c.Inside) (n : Numeral) {after : List Char}
    (hrest : c.rest = n.text ++ after) (hstop : StopsAt Char.isDigit after) {v : Binary64}
    (hread : c.readNumber = .ok (v, c')) :
    ∃ t : Numeral,
      (Value.number v).format = .ok (String.ofList (t.text ++ ".000000".toList)) ∧
      t.IsCanonical ∧
      Word.exact v.toBits = t.integer ∧
      Cursor.readNumber ⟨t.text, 0⟩ = .ok (v, ⟨t.text, t.text.length⟩) ∧
      (|n.integer| ≤ 2 ^ 53 →
        t.text = (toString n.integer).toList ∧
        ∀ (scope : Scope) (maxDepth : Int), 2 ≤ maxDepth →
          (evaluate ("(print " ++ String.ofList n.text ++ ")") scope maxDepth).result = .ok .nil ∧
          (evaluate ("(print " ++ String.ofList n.text ++ ")") scope maxDepth).run.output =
            toString n.integer ++ ".000000\n") := by
  rw [Cursor.readNumber_text hin hrest hstop] at hread
  have hrange : ¬(4300 < n.digits.length ∨ 2 ^ 1024 - 2 ^ 970 ≤ |n.integer|) := by
    intro hbad
    rw [Numeral.value?_eq_none hbad] at hread
    cases hread
  obtain ⟨r, hvalue, hnearest⟩ := Numeral.exists_value? hrange
  rw [hvalue] at hread
  cases hread
  obtain ⟨k, hwhole, hsame⟩ := Binary64.exists_whole hnearest
  refine ⟨.canonical k, hwhole.format, Numeral.isCanonical_canonical k, ?_, ?_, ?_⟩
  · rw [hwhole.exact, Numeral.integer_canonical]
  · have hinside : Cursor.Inside ⟨(Numeral.canonical k).text, 0⟩ :=
      ⟨le_rfl, Int.natCast_nonneg _⟩
    have hall : Cursor.rest ⟨(Numeral.canonical k).text, 0⟩ = (Numeral.canonical k).text ++ [] :=
      (List.append_nil _).symm
    rw [Cursor.readNumber_text hinside hall (stopsAt_nil _), hwhole.value?]
    simp [Cursor.moved]
  · intro hsmall
    have hformat := hwhole.format
    rw [hsame hsmall, Numeral.text_canonical] at hformat
    rw [hsame hsmall, Numeral.text_canonical]
    refine ⟨rfl, fun scope maxDepth hdepth => ?_⟩
    have hline : String.ofList ((toString n.integer).toList ++ ".000000".toList) ++ "\n" =
        toString n.integer ++ ".000000\n" := by
      rw [← String.toList_inj]
      simp
    rw [← hline]
    exact evaluate_print_number hvalue hformat scope hdepth

/-- Leading zeros are read over and not printed. -/
theorem literal_reads_back_leadingZeros :
    Cursor.readNumber ⟨"-007)".toList, 0⟩ = .ok (.ofInt (-7), ⟨"-007)".toList, 4⟩) ∧
      (evaluate "(print -007)" {} 2).run.output = "-7.000000\n" := by
  let n : Numeral := { negative := true, digits := "007".toList }
  have hinside : Cursor.Inside ⟨"-007)".toList, 0⟩ := ⟨by decide, by decide⟩
  have hrest : Cursor.rest ⟨"-007)".toList, 0⟩ = n.text ++ [')'] := by decide
  have hread : Cursor.readNumber ⟨"-007)".toList, 0⟩ =
      .ok (.ofInt (-7), ⟨"-007)".toList, 4⟩) := by
    decide +kernel
  obtain ⟨t, -, -, -, -, hsmall⟩ :=
    literal_reads_back hinside n hrest (stopsAt_cons.mpr (by decide)) hread
  have hprint := ((hsmall (by decide)).2 {} 2 (by decide)).2
  exact ⟨hread, hprint⟩

end SExprCalc
