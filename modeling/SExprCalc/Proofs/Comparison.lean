import SExprCalc.Fault
import SExprCalc.Proofs.Word

/-!
# Comparison

Two values of one kind are compared by what they are, not by how they are held. Booleans are the
same or not, and nil is nil. Numbers are laid down for words (`Word.SameNumber`): equal are two
words that encode the same exact number, whatever their signs if that is zero, and two infinities of
one sign. A NaN is equal to nothing, not even to itself. `Value.equal_iff` says that the comparison
of the library is this one.
-/

namespace SExprCalc

/-- Magnitudes with signs are the same number if magnitude and sign are, or if there is nothing to
have a sign. -/
theorem signed_eq_signed_iff {s t : Bool} {a b : ℚ} (ha : 0 ≤ a) (hb : 0 ≤ b) :
    signed s a = signed t b ↔ a = b ∧ (s = t ∨ a = 0) := by
  cases s <;> cases t
  · simp
  · simp only [signed_false, signed_true, Bool.false_eq_true, false_or]
    constructor
    · intro h
      exact ⟨by linarith, by linarith⟩
    · rintro ⟨rfl, rfl⟩
      exact neg_zero.symm
  · simp only [signed_false, signed_true, Bool.true_eq_false, false_or]
    constructor
    · intro h
      exact ⟨by linarith, by linarith⟩
    · rintro ⟨rfl, rfl⟩
      exact neg_zero
  · simp

namespace Word

/-- Two words are equal as numbers. -/
inductive SameNumber (w v : ℕ) : Prop where
  /-- they encode the same number; both zeros encode zero -/
  | finite (hw : IsFinite w) (hv : IsFinite v) (h : exact w = exact v)
  /-- they are the same infinity -/
  | infinite (hw : IsInfinite w) (hv : IsInfinite v) (h : negative w = negative v)

variable {w v : ℕ}

theorem SameNumber.symm (h : SameNumber w v) : SameNumber v w := by
  cases h with
  | finite hw hv h => exact .finite hv hw h.symm
  | infinite hw hv h => exact .infinite hv hw h.symm

/-- A NaN is equal to nothing. -/
theorem not_sameNumber_of_isNaN (h : IsNaN w) : ¬SameNumber w v := by
  rintro (⟨hw, -, -⟩ | ⟨hw, -, -⟩)
  · exact hw.exponent_ne h.1
  · exact h.2 hw.2

/-- An infinity is no number. -/
theorem not_sameNumber_of_isInfinite (hw : IsInfinite w) (hv : IsFinite v) : ¬SameNumber w v := by
  rintro (⟨hw', -, -⟩ | ⟨-, hv', -⟩)
  · exact hw'.exponent_ne hw.1
  · exact hv.exponent_ne hv'.1

/-- An infinity is the same number as another one only if their signs agree. -/
theorem sameNumber_infinity_iff {s t : Bool} : SameNumber (infinity s) (infinity t) ↔ s = t := by
  constructor
  · rintro (⟨hw, -, -⟩ | ⟨-, -, h⟩)
    · exact absurd (isInfinite_infinity s).1 hw.exponent_ne
    · rwa [negative_infinity, negative_infinity] at h
  · rintro rfl
    exact .infinite (isInfinite_infinity s) (isInfinite_infinity s) rfl

/-- Words that encode numbers are the same number exactly if these are equal. So the two zeros are
the same number, although they are different words. -/
theorem sameNumber_iff_of_isFinite (hw : IsFinite w) (hv : IsFinite v) :
    SameNumber w v ↔ exact w = exact v := by
  refine ⟨?_, .finite hw hv⟩
  rintro (⟨-, -, h⟩ | ⟨hw', -, -⟩)
  · exact h
  · exact absurd hw'.1 hw.exponent_ne

end Word

open Word

namespace Binary64

/-- Equality of ranks and signs is equality of numbers: different ranks are different magnitudes. -/
theorem equal_finite_iff {s t : Bool} {r q : Fin 0x7FF0000000000000} :
    (finite s r).equal (finite t q) = true ↔
      exact (finite s r).toBits = exact (finite t q).toBits := by
  rw [exact_toBits, exact_toBits, signed_eq_signed_iff (magnitude_nonneg r) (magnitude_nonneg q),
    magnitude_strictMono.injective.eq_iff, magnitude_eq_zero_iff]
  simp [equal]

/-- Numbers are compared by what the words that encode them stand for, not as words: the two zeros
are equal, and NaN is not equal to itself. -/
theorem equal_iff {x y : Binary64} : x.equal y = true ↔ SameNumber x.toBits y.toBits := by
  have hnan (y : Binary64) : ¬SameNumber nan.toBits y.toBits := not_sameNumber_of_isNaN isNaN_toBits
  -- different kinds of words are never the same number, in either order
  have hinf (s t : Bool) (r : Fin 0x7FF0000000000000) :
      ¬SameNumber (infinite s).toBits (finite t r).toBits := by
    rw [toBits_infinite]
    exact not_sameNumber_of_isInfinite (isInfinite_infinity s) (isFinite_toBits t r)
  cases x with
  | nan => exact iff_of_false Bool.false_ne_true (hnan y)
  | infinite s =>
    cases y with
    | nan => exact iff_of_false Bool.false_ne_true fun h => hnan _ h.symm
    | infinite t =>
      rw [toBits_infinite, toBits_infinite, sameNumber_infinity_iff]
      exact beq_iff_eq
    | finite t q => exact iff_of_false Bool.false_ne_true (hinf s t q)
  | finite s r =>
    cases y with
    | nan => exact iff_of_false Bool.false_ne_true fun h => hnan _ h.symm
    | infinite t => exact iff_of_false Bool.false_ne_true fun h => hinf t s r h.symm
    | finite t q =>
      rw [equal_finite_iff, sameNumber_iff_of_isFinite (isFinite_toBits s r) (isFinite_toBits t q)]

end Binary64

namespace Value

/-- Two values are equal: the same number, the same boolean, or both nil. -/
inductive Equal : Value → Value → Prop where
  /-- numbers are equal as words are -/
  | number {x y : Binary64} (h : SameNumber x.toBits y.toBits) : Equal (.number x) (.number y)
  /-- a boolean is equal to itself -/
  | boolean (b : Bool) : Equal (.boolean b) (.boolean b)
  /-- nil is equal to nil -/
  | nil : Equal .nil .nil

/-- What the library calls equal is equal. -/
theorem equal_iff {v w : Value} : v.equal w = true ↔ v.Equal w := by
  constructor
  · intro h
    cases v <;> cases w <;> try cases h
    · exact .number (Binary64.equal_iff.mp h)
    · obtain rfl := eq_of_beq h
      exact .boolean _
    · exact .nil
  · intro h
    cases h with
    | number h => exact Binary64.equal_iff.mpr h
    | boolean b => exact beq_self_eq_true b
    | nil => rfl

variable {v w : Value} {k l : Kind}

/-- Two values of one kind are compared. -/
theorem compare_of_kind_eq (hv : v.kind? = some k) (hw : w.kind? = some k) :
    ∃ answer, v.compare w = .ok answer ∧ (answer = true ↔ v.Equal w) := by
  refine ⟨v.equal w, ?_, equal_iff⟩
  rw [compare, kind_eq_ok_iff.mpr hv, kind_eq_ok_iff.mpr hw]
  exact if_pos rfl

/-- Two values of different kinds are not. -/
theorem compare_of_kind_ne (hv : v.kind? = some k) (hw : w.kind? = some l) (hne : k ≠ l) :
    v.compare w = .error (.kindsDiffer k l) := by
  rw [compare, kind_eq_ok_iff.mpr hv, kind_eq_ok_iff.mpr hw]
  exact if_neg hne

end Value

end SExprCalc
