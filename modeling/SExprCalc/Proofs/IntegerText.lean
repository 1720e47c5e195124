import Mathlib.Data.List.Induction
import Mathlib.Data.List.TakeWhile
import Mathlib.Data.Nat.Digits.Defs
import SExprCalc.Settings

/-!
# Integers in settings, as they may be spelled

A setting that has to be a positive integer may be spelled in many ways, and everything else counts
as absent. This module has the grammar of these spellings, without any reading: digits of any script
(`Text.IsDigit`), runs of them in which single underscores stand between two digits
(`Text.DigitRun`), an optional sign in front (`Text.IntegerText`) and white space around it all
(`Text.Spells`). Reading accepts exactly the spellings (`Text.integer?_trim_eq_some_iff`): each
function of the reader is matched with one layer of the grammar, in both directions.

The layers do not get in each other's way: an underscore or a sign is no digit, and no digit or sign
is white space, so where a spelling begins and ends is not a matter of choice.
-/

namespace SExprCalc

namespace Text

/-! ### Digits -/

/-- A character is a decimal digit of some script, with a value. -/
def IsDigit (c : Char) (d : ℕ) : Prop := d < 10 ∧ ∃ start ∈ zeros, c.toNat = start + d

/-- No two scripts share a digit. -/
theorem zeros_apart : ∀ a ∈ zeros, ∀ b ∈ zeros, a = b ∨ a + 10 ≤ b ∨ b + 10 ≤ a := by
  decide +kernel

/-- The table finds a digit exactly if its character is one of the ten that belong to one zero, and
finds the value that its place among them gives. -/
theorem digit?_eq_some_iff {c : Char} {d : ℕ} : digit? c = some d ↔ IsDigit c d := by
  constructor
  · intro h
    refine ⟨digit?_lt_ten h, ?_⟩
    obtain ⟨start, hfind, rfl⟩ := Option.map_eq_some_iff.mp h
    have hrange := List.find?_some hfind
    simp only [Bool.and_eq_true, decide_eq_true_eq] at hrange
    exact ⟨start, List.mem_of_find?_eq_some hfind, by omega⟩
  · rintro ⟨hd, start, hstart, hc⟩
    have hin : (start ≤ c.toNat && c.toNat < start + 10) = true := by
      simp only [Bool.and_eq_true, decide_eq_true_eq]
      omega
    obtain ⟨other, hother⟩ := Option.isSome_iff_exists.mp
      (List.find?_isSome.mpr ⟨start, hstart, hin⟩ :
        (zeros.find? fun start => start ≤ c.toNat && c.toNat < start + 10).isSome = true)
    have hrange := List.find?_some hother
    simp only [Bool.and_eq_true, decide_eq_true_eq] at hrange
    -- scripts do not overlap, so the first range found is the only one
    have hsame : other = start := by
      have := zeros_apart other (List.mem_of_find?_eq_some hother) start hstart
      omega
    rw [digit?, hother, hsame, Option.map_some, hc, Nat.add_sub_cancel_left]

/-- One or more digits, with their values. A single underscore may stand between two digits. -/
inductive DigitRun : List Char → List ℕ → Prop where
  /-- one digit -/
  | one {c : Char} {d : ℕ} (hc : IsDigit c d) : DigitRun [c] [d]
  /-- a digit directly before others -/
  | cons {c : Char} {d : ℕ} {t : List Char} {ds : List ℕ} (hc : IsDigit c d)
      (h : DigitRun t ds) : DigitRun (c :: t) (d :: ds)
  /-- a digit and an underscore before others -/
  | underscore {c : Char} {d : ℕ} {t : List Char} {ds : List ℕ} (hc : IsDigit c d)
      (h : DigitRun t ds) : DigitRun (c :: '_' :: t) (d :: ds)

/-- The number that digits denote. -/
def digitsValue (ds : List ℕ) : ℕ := Nat.ofDigits 10 ds.reverse

theorem not_isDigit {c : Char} (h : digit? c = none) (d : ℕ) : ¬IsDigit c d := by
  rw [← digit?_eq_some_iff, h]
  nofun

namespace DigitRun

variable {t : List Char} {ds : List ℕ}

theorem exists_first (h : DigitRun t ds) : ∃ c more d, t = c :: more ∧ IsDigit c d := by
  cases h with
  | one hc => exact ⟨_, _, _, rfl, hc⟩
  | cons hc _ => exact ⟨_, _, _, rfl, hc⟩
  | underscore hc _ => exact ⟨_, _, _, rfl, hc⟩

theorem exists_last (h : DigitRun t ds) : ∃ c d, t.getLast? = some c ∧ IsDigit c d := by
  induction h with
  | one hc => exact ⟨_, _, rfl, hc⟩
  | cons _ _ ih =>
    obtain ⟨c, d, hlast, hc⟩ := ih
    exact ⟨c, d, by simp [List.getLast?_cons, hlast], hc⟩
  | underscore _ _ ih =>
    obtain ⟨c, d, hlast, hc⟩ := ih
    exact ⟨c, d, by simp [List.getLast?_cons, hlast], hc⟩

theorem digits?_eq (h : DigitRun t ds) : digits? t = some ds := by
  induction h with
  | one hc => rw [digits?, digit?_eq_some_iff.mpr hc]; rfl
  | @cons c d t ds hc h ih =>
    obtain ⟨c', more, d', rfl, hc'⟩ := h.exists_first
    rw [digits?, digit?_eq_some_iff.mpr hc, ih]
    · rfl
    · nofun
    · rintro more ⟨⟩
      exact not_isDigit (by decide) d' hc'
  | underscore hc _ ih => rw [digits?, digit?_eq_some_iff.mpr hc, ih]; rfl

end DigitRun

theorem digitRun_of_digits? {t : List Char} {ds : List ℕ} (h : digits? t = some ds) :
    DigitRun t ds := by
  fun_induction digits? t generalizing ds with
  | case1 => cases h
  | case2 c =>
    obtain ⟨d, hd, rfl⟩ := Option.map_eq_some_iff.mp h
    exact .one (digit?_eq_some_iff.mp hd)
  | case3 c more ih =>
    obtain ⟨d, hd, h⟩ := Option.bind_eq_some_iff.mp h
    obtain ⟨ds', hds, h⟩ := Option.bind_eq_some_iff.mp h
    cases h
    exact .underscore (digit?_eq_some_iff.mp hd) (ih hds)
  | case4 c more _ _ ih =>
    obtain ⟨d, hd, h⟩ := Option.bind_eq_some_iff.mp h
    obtain ⟨ds', hds, h⟩ := Option.bind_eq_some_iff.mp h
    cases h
    exact .cons (digit?_eq_some_iff.mp hd) (ih hds)

/-- The reader of digits accepts exactly the runs of digits with single underscores between them. -/
theorem digits?_eq_some_iff {t : List Char} {ds : List ℕ} :
    digits? t = some ds ↔ DigitRun t ds :=
  ⟨digitRun_of_digits?, DigitRun.digits?_eq⟩

theorem ofDigits_eq (ds : List ℕ) : ofDigits ds = digitsValue ds := by
  induction ds using List.reverseRecOn with
  | nil => rfl
  | append_singleton ds d ih =>
    rw [ofDigits, List.foldl_append, ← ofDigits, ih, digitsValue, digitsValue,
      List.reverse_append]
    simp [Nat.ofDigits_cons, Nat.add_comm]

/-! ### Signs -/

/-- The text of an integer: an optional sign and a run of at most as many digits as are read. -/
inductive IntegerText : List Char → ℤ → Prop where
  /-- without a sign -/
  | plain {t : List Char} {ds : List ℕ} (h : DigitRun t ds) (hlength : ds.length ≤ 4300) :
      IntegerText t (digitsValue ds)
  /-- with a plus sign -/
  | plus {t : List Char} {ds : List ℕ} (h : DigitRun t ds) (hlength : ds.length ≤ 4300) :
      IntegerText ('+' :: t) (digitsValue ds)
  /-- with a minus sign -/
  | minus {t : List Char} {ds : List ℕ} (h : DigitRun t ds) (hlength : ds.length ≤ 4300) :
      IntegerText ('-' :: t) (-(digitsValue ds))

/-- A natural number is read exactly if it is written as a run of at most 4300 digits; underscores
do not count. -/
theorem natural?_eq_some_iff {t : List Char} {n : ℕ} :
    natural? t = some n ↔ ∃ ds, DigitRun t ds ∧ ds.length ≤ 4300 ∧ n = digitsValue ds := by
  constructor
  · intro h
    obtain ⟨ds, hds, h⟩ := Option.bind_eq_some_iff.mp h
    obtain ⟨hlength, h⟩ := Option.ite_none_right_eq_some.mp h
    exact ⟨ds, digits?_eq_some_iff.mp hds, hlength, by rw [← ofDigits_eq, Option.some.inj h]⟩
  · rintro ⟨ds, hrun, hlength, rfl⟩
    rw [natural?, hrun.digits?_eq, ← ofDigits_eq]
    exact if_pos hlength

theorem exists_digitRun_of_map {t : List Char} {sign : ℕ → ℤ} {n : ℤ}
    (h : (natural? t).map sign = some n) :
    ∃ ds, DigitRun t ds ∧ ds.length ≤ 4300 ∧ n = sign (digitsValue ds) := by
  obtain ⟨k, hk, rfl⟩ := Option.map_eq_some_iff.mp h
  obtain ⟨ds, hrun, hlength, rfl⟩ := natural?_eq_some_iff.mp hk
  exact ⟨ds, hrun, hlength, rfl⟩

/-- What is read as an integer is written as one: a sign or none, and then digits. -/
theorem integerText_of_integer? {t : List Char} {n : ℤ} (h : integer? t = some n) :
    IntegerText t n := by
  unfold integer? at h
  split at h
  · obtain ⟨ds, hrun, hlength, rfl⟩ := exists_digitRun_of_map h
    exact .plus hrun hlength
  · obtain ⟨ds, hrun, hlength, rfl⟩ := exists_digitRun_of_map h
    exact .minus hrun hlength
  · obtain ⟨ds, hrun, hlength, rfl⟩ := exists_digitRun_of_map h
    exact .plain hrun hlength

/-- What is written as an integer is read as the one it is. A sign is not a digit, so the reader
cannot take the text in another way. -/
theorem IntegerText.integer?_eq {t : List Char} {n : ℤ} (h : IntegerText t n) :
    integer? t = some n := by
  cases h with
  | plain h hlength =>
    obtain ⟨c, more, d, rfl, hc⟩ := h.exists_first
    rw [integer?, natural?_eq_some_iff.mpr ⟨_, h, hlength, rfl⟩]
    · rfl
    · rintro _ ⟨⟩
      exact not_isDigit (by decide) d hc
    · rintro _ ⟨⟩
      exact not_isDigit (by decide) d hc
  | plus h hlength =>
    rw [integer?, natural?_eq_some_iff.mpr ⟨_, h, hlength, rfl⟩]
    rfl
  | minus h hlength =>
    rw [integer?, natural?_eq_some_iff.mpr ⟨_, h, hlength, rfl⟩]
    rfl

/-! ### White space -/

/-- A text that begins and ends with something else than white space. -/
def Solid (t : List Char) : Prop :=
  (∃ c ∈ t.head?, isBlank c = false) ∧ ∃ c ∈ t.getLast?, isBlank c = false

/-- A text of white space only. -/
def Blank (t : List Char) : Prop := ∀ c ∈ t, isBlank c = true

/-- White space before a text is dropped, and nothing of the text, if it begins with something else.
-/
theorem dropWhile_isBlank_append {before t : List Char} (hbefore : Blank before)
    (ht : ∃ c ∈ t.head?, isBlank c = false) : (before ++ t).dropWhile isBlank = t := by
  obtain ⟨c, hc, hsolid⟩ := ht
  obtain ⟨more, rfl⟩ := List.head?_eq_some_iff.mp hc
  rw [List.dropWhile_append_of_pos hbefore, List.dropWhile_cons_of_neg (by simp [hsolid])]

/-- White space around a text is taken off. -/
theorem trim_append {before t after : List Char} (hbefore : Blank before) (ht : Solid t)
    (hafter : Blank after) : trim (before ++ (t ++ after)) = t := by
  obtain ⟨hfirst, hlast⟩ := ht
  have hstart : ∃ c ∈ (t ++ after).head?, isBlank c = false := by
    obtain ⟨c, hc, hsolid⟩ := hfirst
    exact ⟨c, by simp [Option.mem_def.mp hc], hsolid⟩
  rw [trim, dropWhile_isBlank_append hbefore hstart, List.reverse_append,
    dropWhile_isBlank_append, List.reverse_reverse]
  · intro c hc
    exact hafter c (List.mem_reverse.mp hc)
  · rwa [List.head?_reverse]

/-- Nothing but white space is taken off. -/
theorem exists_eq_append_trim (text : List Char) :
    ∃ before after, Blank before ∧ Blank after ∧ text = before ++ (trim text ++ after) := by
  refine ⟨text.takeWhile isBlank,
    ((text.dropWhile isBlank).reverse.takeWhile isBlank).reverse, ?_, ?_, ?_⟩
  · intro c hc
    exact List.mem_takeWhile_imp hc
  · intro c hc
    exact List.mem_takeWhile_imp (List.mem_reverse.mp hc)
  · rw [trim, ← List.reverse_append, List.takeWhile_append_dropWhile, List.reverse_reverse,
      List.takeWhile_append_dropWhile]

/-- No digit is white space. -/
theorem zeros_not_blank : ∀ start ∈ zeros, ∀ range ∈ blankRanges,
    start + 10 ≤ range.1 ∨ range.2 < start := by
  decide +kernel

/-- No digit of any script is white space: the two tables have no character in common. -/
theorem IsDigit.isBlank_eq_false {c : Char} {d : ℕ} (h : IsDigit c d) : isBlank c = false := by
  obtain ⟨hd, start, hstart, hc⟩ := h
  refine List.any_eq_false.mpr fun range hrange => ?_
  have := zeros_not_blank start hstart range hrange
  simp only [Bool.and_eq_true, decide_eq_true_eq]
  omega

theorem DigitRun.solid {t : List Char} {ds : List ℕ} (h : DigitRun t ds) : Solid t := by
  obtain ⟨c, more, d, rfl, hc⟩ := h.exists_first
  obtain ⟨c', d', hlast, hc'⟩ := h.exists_last
  exact ⟨⟨c, rfl, hc.isBlank_eq_false⟩, c', hlast, hc'.isBlank_eq_false⟩

theorem DigitRun.solid_cons {t : List Char} {ds : List ℕ} (h : DigitRun t ds) {sign : Char}
    (hsign : isBlank sign = false) : Solid (sign :: t) := by
  obtain ⟨c, d, hlast, hc⟩ := h.exists_last
  exact ⟨⟨sign, rfl, hsign⟩, c, by simp [List.getLast?_cons, hlast], hc.isBlank_eq_false⟩

/-- An integer begins and ends with something that is not white space, so taking off the white space
around it leaves all of it. -/
theorem IntegerText.solid {t : List Char} {n : ℤ} (h : IntegerText t n) : Solid t := by
  cases h with
  | plain h => exact h.solid
  | plus h => exact h.solid_cons (by decide)
  | minus h => exact h.solid_cons (by decide)

/-! ### Spellings -/

/-- A text spells an integer: it is the text of the integer with white space around it. -/
def Spells (text : List Char) (n : ℤ) : Prop :=
  ∃ before t after, Blank before ∧ Blank after ∧ IntegerText t n ∧ text = before ++ (t ++ after)

/-- Reading accepts exactly the spellings. -/
theorem integer?_trim_eq_some_iff {text : List Char} {n : ℤ} :
    integer? (trim text) = some n ↔ Spells text n := by
  constructor
  · intro h
    obtain ⟨before, after, hbefore, hafter, htext⟩ := exists_eq_append_trim text
    exact ⟨before, trim text, after, hbefore, hafter, integerText_of_integer? h, htext⟩
  · rintro ⟨before, t, after, hbefore, hafter, ht, rfl⟩
    rw [trim_append hbefore ht.solid hafter]
    exact ht.integer?_eq

/-! ### Canonical decimals -/

/-- The digits of ASCII are digits. -/
theorem isDigit_of_isDigit {c : Char} (h : c.isDigit = true) :
    IsDigit c (c.toNat - '0'.toNat) := by
  have hrange : 48 ≤ c.toNat ∧ c.toNat ≤ 57 := by
    simpa [Char.isDigit, Char.le_def, UInt32.le_iff_toNat_le] using h
  refine ⟨?_, 0x30, by decide, ?_⟩
  · change c.toNat - 48 < 10
    omega
  · change c.toNat = 48 + (c.toNat - 48)
    omega

theorem digitRun_of_isDigit {t : List Char} (hne : t ≠ []) (h : ∀ c ∈ t, c.isDigit = true) :
    DigitRun t (t.map fun c => c.toNat - '0'.toNat) := by
  induction t with
  | nil => exact absurd rfl hne
  | cons c t ih =>
    have hc := isDigit_of_isDigit (h c List.mem_cons_self)
    cases t with
    | nil => exact .one hc
    | cons c' t => exact .cons hc (ih (by simp) fun x hx => h x (List.mem_cons_of_mem _ hx))

/-- Every positive integer of at most as many digits as are read has a spelling. -/
theorem spells_toString {n : ℕ} (hn : n < 10 ^ 4300) : Spells (toString n).toList n := by
  have htext : (toString n).toList = Nat.toDigits 10 n := Nat.toList_repr
  have hrun : DigitRun (Nat.toDigits 10 n) _ :=
    digitRun_of_isDigit Nat.toDigits_ne_nil fun c hc =>
      Nat.isDigit_of_mem_toDigits (by decide) le_rfl hc
  -- for any power, so that nothing tries to compute this one
  have hdigits {k : ℕ} (hk : 0 < k) (hn : n < 10 ^ k) : (Nat.toDigits 10 n).length ≤ k :=
    (Nat.length_toDigits_le_iff (by decide) hk).mpr hn
  have hlength := hdigits (by decide) hn
  have hvalue : digitsValue ((Nat.toDigits 10 n).map fun c => c.toNat - '0'.toNat) = n := by
    rw [← ofDigits_eq, ofDigits, List.foldl_map]
    exact Nat.ofDigitChars_ten_toDigits
  have hinteger := IntegerText.plain hrun (by rwa [List.length_map])
  rw [hvalue] at hinteger
  refine ⟨[], _, [], nofun, nofun, hinteger, ?_⟩
  rw [htext, List.append_nil, List.nil_append]

end Text

namespace Settings

variable {env : Environment} {name text : String} {n default : ℤ}

/-- A positive integer that is spelled counts. -/
theorem positive_of_spells (htext : env name = some text) (h : Text.Spells text.toList n)
    (hpos : 0 < n) : positive env name default = n := by
  rw [positive, htext, Option.bind_some, Text.integer?_trim_eq_some_iff.mpr h]
  exact if_pos hpos

/-- If none is spelled, then the default counts. -/
theorem positive_eq_default
    (h : ∀ text n, env name = some text → Text.Spells text.toList n → n ≤ 0) :
    positive env name default = default := by
  unfold positive
  split
  · rename_i n hn
    obtain ⟨text, htext, hinteger⟩ := Option.bind_eq_some_iff.mp hn
    have hle := h text n htext (Text.integer?_trim_eq_some_iff.mp hinteger)
    exact if_neg (Int.not_lt.mpr hle)
  · rfl

end Settings

/-! ### The theorem -/

/-- **A setting counts if it spells a positive integer, and otherwise the default does.** Every
positive integer of up to 4300 digits has a spelling, and the limit of nesting is always positive,
since its default is. -/
theorem positive_iff_spelled (env : Environment) (name : String) (default : ℤ) :
    (∀ text n, env name = some text → Text.Spells text.toList n → 0 < n →
      Settings.positive env name default = n) ∧
    ((∀ text n, env name = some text → Text.Spells text.toList n → n ≤ 0) →
      Settings.positive env name default = default) ∧
    (∀ n : ℕ, 1 ≤ n → n < 10 ^ 4300 → Text.Spells (toString n).toList n) ∧
    1 ≤ Settings.maxDepth env := by
  refine ⟨fun _ _ => Settings.positive_of_spells, Settings.positive_eq_default,
    fun n _ hn => Text.spells_toString hn, ?_⟩
  unfold Settings.maxDepth Settings.positive
  split
  · split
    · assumption
    · decide
  · decide

/-- White space of two kinds around a plus sign, leading zeros, an underscore and digits of two
scripts. -/
theorem positive_iff_spelled_mixed :
    Settings.positive (.ofList [("LIMIT", "\u3000 +0_0٣7\t")]) "LIMIT" 5 = 37 ∧
      Settings.positive (.ofList [("LIMIT", "3_")]) "LIMIT" 5 = 5 ∧
      Text.Spells (toString 37).toList 37 := by
  have hspells : Text.Spells "\u3000 +0_0٣7\t".toList 37 :=
    Text.integer?_trim_eq_some_iff.mp (by decide +kernel)
  have hunspelled (n : ℤ) : ¬Text.Spells "3_".toList n := by
    have hnone : Text.integer? (Text.trim "3_".toList) = none := by decide
    rw [← Text.integer?_trim_eq_some_iff, hnone]
    nofun
  have hpower {k : ℕ} (hk : 2 ≤ k) : 37 < 10 ^ k :=
    lt_of_lt_of_le (by decide) (Nat.pow_le_pow_right (by decide) hk)
  obtain ⟨hspelled, -, hexists, -⟩ :=
    positive_iff_spelled (.ofList [("LIMIT", "\u3000 +0_0٣7\t")]) "LIMIT" 5
  obtain ⟨-, hother, -⟩ := positive_iff_spelled (.ofList [("LIMIT", "3_")]) "LIMIT" 5
  refine ⟨hspelled _ 37 rfl hspells (by decide), hother ?_, hexists 37 (by decide) ?_⟩
  · rintro _ n ⟨⟩ h
    exact absurd h (hunspelled n)
  · exact hpower (by decide)

end SExprCalc
