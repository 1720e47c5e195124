import Mathlib.Data.List.Forall2
import SExprCalc.Proofs.IntegerText

/-!
# What settings say

The environment says where lines go and how deep expressions may nest, and this module has what
counts as saying so, without any reading. A word may be written with any mix of upper-case and
lower-case letters and with white space around it (`Text.SpellsWord`); lines go to the standard
output if the setting spells its name so, and otherwise to the standard error output. A limit is the
positive integer that its setting spells, or else 200 levels.

The reader changes every letter to lower case, also the few beyond ASCII whose lower-case form is
ASCII. None of the letters of a stream's name is such a form, so each of them has exactly two
spellings (`Text.lowerChar_eq_iff`).
-/

namespace SExprCalc

namespace Text

/-! ### Letters in either case -/

/-- A lower-case letter, or the same letter in upper case. -/
def EitherCase (c letter : Char) : Prop := c = letter ∨ c = letter.toUpper

/-- Lower-casing moves the 26 upper-case letters up by 32 code points and leaves everything else
alone, ... -/
theorem toNat_toLower (c : Char) :
    c.toLower.toNat = if 65 ≤ c.toNat ∧ c.toNat ≤ 90 then c.toNat + 32 else c.toNat := by
  have hrange : (c.val ≥ 'A'.val ∧ c.val ≤ 'Z'.val) ↔ 65 ≤ c.toNat ∧ c.toNat ≤ 90 := by
    simp [UInt32.le_iff_toNat_le]
  unfold Char.toLower
  simp only [hrange]
  split
  · rename_i h
    have hshift : ('a'.val - 'A'.val).toNat = 32 := by decide
    change (c.val + ('a'.val - 'A'.val)).toNat = c.toNat + 32
    rw [UInt32.toNat_add, hshift, Char.toNat_val]
    omega
  · rfl

/-- ... and upper-casing moves the 26 lower-case letters back. -/
theorem toNat_toUpper (c : Char) :
    c.toUpper.toNat = if 97 ≤ c.toNat ∧ c.toNat ≤ 122 then c.toNat - 32 else c.toNat := by
  have hrange : ('a'.val ≤ c.val ∧ c.val ≤ 'z'.val) ↔ 97 ≤ c.toNat ∧ c.toNat ≤ 122 := by
    simp [UInt32.le_iff_toNat_le]
  unfold Char.toUpper
  simp only [hrange]
  split
  · rename_i h
    -- going down is adding and wrapping around
    have hshift : ('A'.val - 'a'.val).toNat = 2 ^ 32 - 32 := by decide
    change (c.val + ('A'.val - 'a'.val)).toNat = c.toNat - 32
    rw [UInt32.toNat_add, hshift, Char.toNat_val]
    omega
  · rfl

theorem isLower_iff {c : Char} : c.isLower = true ↔ 97 ≤ c.toNat ∧ c.toNat ≤ 122 := by
  change (c.val ≥ 'a'.val && c.val ≤ 'z'.val) = true ↔ _
  simp [UInt32.le_iff_toNat_le]

/-- Only the letter itself and its upper-case form become a letter other than `k`. -/
theorem lowerChar_eq_iff {c letter : Char} (hletter : letter.isLower = true)
    (hk : letter ≠ 'k') : lowerChar c = letter ↔ EitherCase c letter := by
  have hrange := isLower_iff.mp hletter
  have hne : letter.toNat ≠ 107 := fun h => hk (Char.toNat_inj.mp h)
  rw [EitherCase, lowerChar, ← Char.toNat_inj, ← Char.toNat_inj, ← Char.toNat_inj, toNat_toUpper,
    if_pos hrange]
  split
  · -- the Kelvin sign is the only other character that becomes an ASCII letter, and that is `k`
    change 107 = letter.toNat ↔ _
    omega
  · rw [toNat_toLower]
    split <;> omega

/-- Letters are not white space. -/
theorem blankRanges_not_letter : ∀ range ∈ blankRanges, range.2 < 65 ∨ 122 < range.1 := by
  decide

/-- A letter is not white space in either case, so nothing of a word is taken off with the white
space around it. -/
theorem EitherCase.isBlank_eq_false {c letter : Char} (h : EitherCase c letter)
    (hletter : letter.isLower = true) : isBlank c = false := by
  have hrange := isLower_iff.mp hletter
  have hc : 65 ≤ c.toNat ∧ c.toNat ≤ 122 := by
    rcases h with rfl | rfl
    · omega
    · rw [toNat_toUpper, if_pos hrange]
      omega
  refine List.any_eq_false.mpr fun range hmem => ?_
  have := blankRanges_not_letter range hmem
  simp only [Bool.and_eq_true, decide_eq_true_eq]
  omega

/-! ### Words -/

/-- A text spells a word: it is the word, each letter in either case, with white space around
it. -/
def SpellsWord (word text : List Char) : Prop :=
  ∃ before t after, Blank before ∧ Blank after ∧ List.Forall₂ EitherCase t word ∧
    text = before ++ (t ++ after)

variable {word t text : List Char}

/-- In lower case a text is a word of letters other than `k` exactly if it has these letters, one by
one, in either case. -/
theorem lower_eq_iff (hword : ∀ c ∈ word, c.isLower = true ∧ c ≠ 'k') :
    lower t = word ↔ List.Forall₂ EitherCase t word := by
  induction word generalizing t with
  | nil => simp [lower]
  | cons letter word ih =>
    obtain ⟨⟨hletter, hk⟩, hmore⟩ := List.forall_mem_cons.mp hword
    cases t with
    | nil => simp [lower]
    | cons c t =>
      rw [List.forall₂_cons, ← lowerChar_eq_iff hletter hk, ← ih hmore]
      exact List.cons_eq_cons

theorem isBlank_eq_false_of_forall₂ (hword : ∀ c ∈ word, c.isLower = true ∧ c ≠ 'k')
    (h : List.Forall₂ EitherCase t word) : ∀ c ∈ t, isBlank c = false := by
  induction h with
  | nil => nofun
  | cons hcase _ ih =>
    obtain ⟨hletter, hmore⟩ := List.forall_mem_cons.mp hword
    exact List.forall_mem_cons.mpr ⟨hcase.isBlank_eq_false hletter.1, ih hmore⟩

/-- A word in either case begins and ends with something that is not white space. -/
theorem solid_of_forall₂ (hne : word ≠ []) (hword : ∀ c ∈ word, c.isLower = true ∧ c ≠ 'k')
    (h : List.Forall₂ EitherCase t word) : Solid t := by
  have hsolid := isBlank_eq_false_of_forall₂ hword h
  have ht : t ≠ [] := by
    rintro rfl
    exact hne (List.forall₂_nil_left_iff.mp h)
  exact ⟨⟨_, List.head?_eq_some_head ht, hsolid _ (List.head_mem ht)⟩,
    _, List.getLast?_eq_some_getLast ht, hsolid _ (List.getLast_mem ht)⟩

/-- Taking off white space and case, a text becomes a word exactly if it spells the word. -/
theorem lower_trim_eq_iff (hne : word ≠ []) (hword : ∀ c ∈ word, c.isLower = true ∧ c ≠ 'k') :
    lower (trim text) = word ↔ SpellsWord word text := by
  constructor
  · intro h
    obtain ⟨before, after, hbefore, hafter, htext⟩ := exists_eq_append_trim text
    exact ⟨before, trim text, after, hbefore, hafter, (lower_eq_iff hword).mp h, htext⟩
  · rintro ⟨before, t, after, hbefore, hafter, ht, rfl⟩
    rw [trim_append hbefore (solid_of_forall₂ hne hword ht) hafter]
    exact (lower_eq_iff hword).mpr ht

end Text

/-! ### Settings -/

namespace Settings

variable {env : Environment}

/-- The environment names the standard output as the place for lines. -/
def NamesStdout (env : Environment) : Prop :=
  ∃ text, env "SIGMA_DIAGNOSTIC_STREAM" = some text ∧
    Text.SpellsWord "stdout".toList text.toList

/-- The environment sets a limit to the nesting of expressions. -/
inductive Limits (env : Environment) : ℤ → Prop where
  /-- it spells a positive integer -/
  | spelled {text : String} {n : ℤ} (htext : env "SIGMA_MAX_DEPTH" = some text)
      (h : Text.Spells text.toList n) (hpos : 0 < n) : Limits env n
  /-- it does not, so the limit is 200 levels -/
  | unset (h : ∀ text n, env "SIGMA_MAX_DEPTH" = some text → Text.Spells text.toList n → n ≤ 0) :
      Limits env 200

/-- A text that is there names the standard output exactly if the reader finds the name. -/
theorem namesStdout_iff {text : String} (htext : env "SIGMA_DIAGNOSTIC_STREAM" = some text) :
    NamesStdout env ↔ Text.lower (Text.trim text.toList) = "stdout".toList := by
  rw [NamesStdout, htext, Text.lower_trim_eq_iff (by decide) (by simp)]
  simp

/-- Lines go to the standard output if the environment names it, ... -/
theorem sink_of_namesStdout (h : NamesStdout env) : sink env = .stdout := by
  obtain ⟨text, htext, -⟩ := id h
  rw [sink, htext]
  exact if_pos ((namesStdout_iff htext).mp h)

/-- ... and otherwise to the standard error output, also if the environment names nothing. -/
theorem sink_of_not_namesStdout (h : ¬NamesStdout env) : sink env = .stderr := by
  rw [sink]
  split
  · rfl
  · rename_i text htext
    exact if_neg fun hlower => h ((namesStdout_iff htext).mpr hlower)

/-- Two environments that both name the standard output, or both do not, send lines to the same
place. -/
theorem sink_congr {env' : Environment} (h : NamesStdout env' ↔ NamesStdout env) :
    sink env' = sink env := by
  by_cases hstdout : NamesStdout env
  · rw [sink_of_namesStdout hstdout, sink_of_namesStdout (h.mpr hstdout)]
  · rw [sink_of_not_namesStdout hstdout, sink_of_not_namesStdout (mt h.mp hstdout)]

/-- The limit is the one that the environment sets. -/
theorem limits_maxDepth (env : Environment) : Limits env (maxDepth env) := by
  by_cases h : ∃ text n, env "SIGMA_MAX_DEPTH" = some text ∧ Text.Spells text.toList n ∧ 0 < n
  · obtain ⟨text, n, htext, hspells, hpos⟩ := h
    rw [maxDepth, positive_of_spells htext hspells hpos]
    exact .spelled htext hspells hpos
  · have hnone : ∀ text n, env "SIGMA_MAX_DEPTH" = some text → Text.Spells text.toList n →
        n ≤ 0 := by
      intro text n htext hspells
      exact Int.not_lt.mp fun hpos => h ⟨text, n, htext, hspells, hpos⟩
    rw [maxDepth, positive_eq_default hnone]
    exact .unset hnone

end Settings

end SExprCalc
