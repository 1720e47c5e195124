import SExprCalc.Proofs.Tree
import SExprCalc.Proofs.Unread

/-!
# Layouts

A layout of an expression is a text of it. Any number of spaces may stand before a token, and none
has to, except where a token would otherwise go on into the next one (`Expr.EndsBefore`): a number
into a digit, an identifier into a letter or digit. Two places allow no spaces at all: between an
opening parenthesis and the head of a form, and between a `let` body that is a mere name and the
closing parenthesis, since a name followed by a space would be taken for a binding.

The token readers take exactly the tokens of a layout (`identifierLength_text_append`,
`numeralLength_text_append`), and what they take is always a token (`exists_identifier`,
`exists_numeral`).
-/

namespace SExprCalc

open Cursor

/-- Some spaces. -/
def spaces (k : Nat) : List Char := List.replicate k ' '

@[simp] theorem length_spaces (k : Nat) : (spaces k).length = k := List.length_replicate

@[simp] theorem spaces_zero : spaces 0 = [] := rfl

theorem spaces_append (k l : Nat) : spaces k ++ spaces l = spaces (k + l) :=
  List.replicate_append_replicate

namespace Expr

/-- A text does not go on with the last token of an expression: a number is not followed by a
digit, and a name is not followed by a letter or digit. -/
def EndsBefore : Expr → List Char → Prop
  | number _, after => StopsAt Char.isDigit after
  | name _, after => StopsAt Char.isAlphanum after
  | _, _ => True

/-- A `let` whose body is a mere name. -/
def bodyIsName : Expr → Bool
  | letIn _ (name _) => true
  | _ => false

end Expr

mutual

/-- The texts of an expression, from its first token on. -/
inductive Written : Expr → List Char → Prop where
  /-- a number -/
  | number (n : Numeral) : Written (.number n) n.text
  /-- a name -/
  | name (x : Identifier) : Written (.name x) x.text
  /-- a form in parentheses; a body that is a name is closed at once -/
  | form (j : Nat) {f : Form} {e : Expr} {t : List Char} (inner : InnerLayout f e t)
      (close : e.bodyIsName = true → j = 0) :
      Written e ('(' :: (f.head.toList ++ (t ++ (spaces j ++ [')']))))

/-- What stands between the head of a form and the spaces before its closing parenthesis. -/
inductive InnerLayout : Form → Expr → List Char → Prop where
  /-- the terms of a sum -/
  | add {es : List Expr} {t : List Char} (h : OperandsLayout es t) : InnerLayout .add (.add es) t
  /-- the factors of a product -/
  | mult {es : List Expr} {t : List Char} (h : OperandsLayout es t) :
      InnerLayout .mult (.mult es) t
  /-- a dividend and a divisor -/
  | div {a b : Expr} {t : List Char} (h : OperandsLayout [a, b] t) : InnerLayout .div (.div a b) t
  /-- two expressions to compare -/
  | eq {a b : Expr} {t : List Char} (h : OperandsLayout [a, b] t) : InnerLayout .eq (.eq a b) t
  /-- bindings and a body -/
  | letIn {bs : List (Identifier × Expr)} {body : Expr} {t : List Char}
      (h : BlockLayout bs body t) : InnerLayout .letIn (.letIn bs body) t
  /-- an expression to print -/
  | print {a : Expr} {t : List Char} (h : OperandsLayout [a] t) : InnerLayout .print (.print a) t

/-- Expressions one after the other. -/
inductive OperandsLayout : List Expr → List Char → Prop where
  /-- no expression -/
  | nil : OperandsLayout [] []
  /-- an expression after any spaces, and those after it -/
  | cons (k : Nat) {e : Expr} {es : List Expr} {t u : List Char} (first : Written e t)
      (ends : e.EndsBefore u) (others : OperandsLayout es u) :
      OperandsLayout (e :: es) (spaces k ++ (t ++ u))

/-- Bindings and then a body. -/
inductive BlockLayout : List (Identifier × Expr) → Expr → List Char → Prop where
  /-- only the body, after any spaces -/
  | body (k : Nat) {body : Expr} {t : List Char} (written : Written body t) :
      BlockLayout [] body (spaces k ++ t)
  /-- a name and its expression, each after any spaces, and what comes after them -/
  | bind (k i : Nat) {x : Identifier} {e : Expr} {bs : List (Identifier × Expr)} {body : Expr}
      {t u : List Char} (nameEnds : StopsAt Char.isAlphanum (spaces i ++ t)) (value : Written e t)
      (ends : e.EndsBefore u) (others : BlockLayout bs body u) :
      BlockLayout ((x, e) :: bs) body (spaces k ++ (x.text ++ (spaces i ++ (t ++ u))))

end

/-- The texts of an expression: any spaces, and then the expression from its first token on. -/
def Layout (e : Expr) (t : List Char) : Prop := ∃ k u, Written e u ∧ t = spaces k ++ u

/-! ### Tokens in a text -/

theorem isAlphanum_of_isAlpha {c : Char} (h : c.isAlpha = true) : c.isAlphanum = true := by
  simp [Char.isAlphanum, h]

/-- A letter is not a digit: all digits come before all letters. -/
theorem isDigit_of_isAlpha {c : Char} (h : c.isAlpha = true) : c.isDigit = false := by
  have hletter : 65 ≤ c.val.toNat := by
    rcases (Bool.or_eq_true _ _).mp h with hupper | hlower
    · exact UInt32.le_iff_toNat_le.mp (of_decide_eq_true hupper).1
    · obtain ⟨hfirst, -⟩ := (Bool.and_eq_true _ _).mp hlower
      have : 97 ≤ c.val.toNat := UInt32.le_iff_toNat_le.mp (of_decide_eq_true hfirst)
      omega
  rcases hdigit : c.isDigit with _ | _
  · rfl
  · obtain ⟨-, hlast⟩ := (Bool.and_eq_true _ _).mp hdigit
    have : c.val.toNat ≤ 57 := UInt32.le_iff_toNat_le.mp (of_decide_eq_true hlast)
    omega

/-- A number does not start with a letter. -/
theorem isAlpha_of_numeral {c : Char} (h : c = '-' ∨ c.isDigit = true) : c.isAlpha = false := by
  rcases h with rfl | h
  · decide
  · rcases ha : c.isAlpha with _ | _
    · rfl
    · rw [isDigit_of_isAlpha ha] at h
      cases h

theorem length_text_pos (n : Numeral) : 0 < n.text.length := by
  have hdigits := List.length_pos_iff.mpr n.ne_nil
  rw [Numeral.text]
  split
  · exact Nat.succ_pos _
  · exact hdigits

/-- A digit is not a minus sign, so digits alone have no sign to split off. -/
theorem split_of_isDigit {c : Char} (h : c.isDigit = true) (more : List Char) :
    Literal.split (c :: more) = (false, c :: more) := by
  unfold Literal.split
  split
  · rename_i heq
    obtain ⟨rfl, -⟩ := List.cons.inj heq
    cases h
  · rfl

theorem split_text_append (n : Numeral) (after : List Char) :
    Literal.split (n.text ++ after) = (n.negative, n.digits ++ after) := by
  cases hn : n.negative with
  | true => rw [Numeral.text, hn]; rfl
  | false =>
    rw [Numeral.text, hn]
    cases hd : n.digits with
    | nil => exact absurd hd n.ne_nil
    | cons c more =>
      have hmem : c ∈ n.digits := by
        rw [hd]
        exact List.mem_cons_self ..
      exact split_of_isDigit (n.isDigit c hmem) _

/-- A number that is not followed by a digit is read as a whole. -/
theorem numeralLength_text_append (n : Numeral) {after : List Char}
    (h : StopsAt Char.isDigit after) : numeralLength (n.text ++ after) = n.text.length := by
  rw [numeralLength, split_text_append]
  simp only [takeWhile_append_eq n.isDigit h, if_neg n.ne_nil]
  cases hn : n.negative <;> simp [Numeral.text, hn, Nat.add_comm]

/-- An identifier that is not followed by a letter or digit is read as a whole. -/
theorem identifierLength_text_append (x : Identifier) {after : List Char}
    (h : StopsAt Char.isAlphanum after) : identifierLength (x.text ++ after) = x.text.length := by
  rw [Identifier.text, List.cons_append, identifierLength, if_pos x.isAlpha,
    takeWhile_append_eq x.isAlphanum h, List.length_cons, Nat.add_comm]

/-- What is read as an identifier is one, and no longer one starts there. -/
theorem exists_identifier {text : List Char} (h : identifierLength text ≠ 0) :
    ∃ (x : Identifier) (after : List Char), text = x.text ++ after ∧
      StopsAt Char.isAlphanum after := by
  cases text with
  | nil => exact absurd rfl h
  | cons c more =>
    by_cases hc : c.isAlpha = true
    · refine ⟨⟨c, more.takeWhile Char.isAlphanum, hc, List.all_eq_true.mp List.all_takeWhile⟩,
        more.drop (more.takeWhile Char.isAlphanum).length, ?_, stopsAt_drop_takeWhile _ _⟩
      rw [drop_length_takeWhile, Identifier.text, List.cons_append,
        List.takeWhile_append_dropWhile]
    · rw [identifierLength, if_neg hc] at h
      exact absurd rfl h

/-- What is read as a number is one, and no longer one starts there. -/
theorem exists_numeral {text : List Char} (h : numeralLength text ≠ 0) :
    ∃ (n : Numeral) (after : List Char), text = n.text ++ after ∧ StopsAt Char.isDigit after := by
  rcases hs : Literal.split text with ⟨negative, more⟩
  have hmore : text = if negative then '-' :: more else more := by
    unfold Literal.split at hs
    split at hs <;> cases hs <;> rfl
  have hd : more.takeWhile Char.isDigit ≠ [] := by
    intro hd
    rw [numeralLength, hs] at h
    exact h (if_pos hd)
  refine ⟨⟨negative, more.takeWhile Char.isDigit, hd, List.all_eq_true.mp List.all_takeWhile⟩,
    more.drop (more.takeWhile Char.isDigit).length, ?_, stopsAt_drop_takeWhile _ _⟩
  rw [drop_length_takeWhile, hmore, Numeral.text]
  cases negative <;> simp [List.takeWhile_append_dropWhile]

/-- An identifier is read up to where it ends. -/
theorem Cursor.readIdentifier_text {c : Cursor} (hin : c.Inside) {x : Identifier}
    {after : List Char} (hrest : c.rest = x.text ++ after)
    (hstop : StopsAt Char.isAlphanum after) :
    c.readIdentifier = .ok (x.name, c.moved x.text.length) := by
  have hlen : identifierLength c.rest = x.text.length := by
    rw [hrest, identifierLength_text_append x hstop]
  rw [readIdentifier_eq hin, hlen, hrest, List.take_left]
  exact if_neg (Nat.succ_ne_zero _)

/-- An identifier that lies ahead and does not go on is read in full, as the name it is. -/
theorem Eval.readIdentifier_text {run : Run} (hin : run.Inside) {x : Identifier}
    {after : List Char} (hu : run.unread = x.text ++ after)
    (hstop : StopsAt Char.isAlphanum after) :
    Eval.readIdentifier run = (.ok x.name, run.moved x.text.length) :=
  Eval.read_of_ok (Cursor.readIdentifier_text hin hu hstop)

/-- A number is read up to where it ends, if it is in range. -/
theorem Cursor.readNumber_text {c : Cursor} (hin : c.Inside) {n : Numeral} {after : List Char}
    (hrest : c.rest = n.text ++ after) (hstop : StopsAt Char.isDigit after) :
    c.readNumber = match Literal.value? n.text with
      | some x => .ok (x, c.moved n.text.length)
      | none => .error (.literalOutOfRange (String.ofList n.text)) := by
  have hlen : numeralLength c.rest = n.text.length := by
    rw [hrest, numeralLength_text_append n hstop]
  have hne : numeralLength c.rest ≠ 0 := by
    have := length_text_pos n
    omega
  have heq := readNumber_eq hin
  rw [if_neg hne, hlen, hrest, List.take_left] at heq
  refine heq.trans ?_
  cases Literal.value? n.text <;> rfl

/-- A numeral that lies ahead and does not go on is read in full, unless its value is out of range.
-/
theorem Eval.readNumber_text {run : Run} (hin : run.Inside) {n : Numeral} {after : List Char}
    (hu : run.unread = n.text ++ after) (hstop : StopsAt Char.isDigit after) :
    Eval.readNumber run = match Literal.value? n.text with
      | some x => (.ok x, run.moved n.text.length)
      | none => (.error (.literalOutOfRange (String.ofList n.text)), run) := by
  rw [Eval.readNumber, Eval.read, Cursor.readNumber_text hin hu hstop]
  cases Literal.value? n.text <;> rfl

/-! ### How a layout starts -/

namespace Expr

/-- The characters with which an expression starts, after its spaces. -/
def Starts : Expr → Char → Prop
  | number _, c => c = '-' ∨ c.isDigit = true
  | name _, c => c.isAlpha = true
  | _, c => c = '('

/-- Neither a number nor a name nor an opening parenthesis starts like this. -/
theorem Starts.ne {e : Expr} {c d : Char} (h : e.Starts c)
    (hnumber : ¬ (d = '-' ∨ d.isDigit = true)) (hname : ¬ d.isAlpha = true) (hform : d ≠ '(') :
    c ≠ d := by
  rintro rfl
  cases e with
  | number n => exact hnumber h
  | name x => exact hname h
  | _ => exact hform h

theorem Starts.ne_space {e : Expr} {c : Char} (h : e.Starts c) : c ≠ ' ' :=
  h.ne (by decide) (by decide) (by decide)

/-- No expression starts with a closing parenthesis, so a form is closed where there is one. -/
theorem Starts.ne_close {e : Expr} {c : Char} (h : e.Starts c) : c ≠ ')' :=
  h.ne (by decide) (by decide) (by decide)

theorem not_starts_open_number (n : Numeral) : ¬ (number n).Starts '(' := by
  change ¬ ('(' = '-' ∨ '('.isDigit = true)
  decide

theorem not_starts_open_name (x : Identifier) : ¬ (name x).Starts '(' := by
  change ¬ '('.isAlpha = true
  decide

/-- What can start with an opening parenthesis starts with nothing else. -/
theorem Starts.eq_open {e : Expr} {c : Char} (h : e.Starts '(') (hc : e.Starts c) : c = '(' := by
  cases e with
  | number n => exact absurd h (not_starts_open_number n)
  | name x => exact absurd h (not_starts_open_name x)
  | _ => exact hc

/-- What starts with an opening parenthesis is closed, so it ends before any text. -/
theorem Starts.endsBefore {e : Expr} (h : e.Starts '(') (after : List Char) :
    e.EndsBefore after := by
  cases e with
  | number n => exact absurd h (not_starts_open_number n)
  | name x => exact absurd h (not_starts_open_name x)
  | _ => trivial

end Expr

theorem Numeral.text_eq_cons (n : Numeral) :
    ∃ c more, n.text = c :: more ∧ (c = '-' ∨ c.isDigit = true) := by
  cases hn : n.negative with
  | true => exact ⟨'-', n.digits, by rw [Numeral.text, hn]; rfl, .inl rfl⟩
  | false =>
    cases hd : n.digits with
    | nil => exact absurd hd n.ne_nil
    | cons c more =>
      refine ⟨c, more, by rw [Numeral.text, hn]; exact hd, .inr (n.isDigit c ?_)⟩
      rw [hd]
      exact List.mem_cons_self ..

/-- The expression inside parentheses is a form. -/
theorem InnerLayout.starts {f : Form} {e : Expr} {t : List Char} (h : InnerLayout f e t) :
    e.Starts '(' := by
  cases h <;> rfl

/-- A name is written in one way. -/
theorem Written.eq_text {x : Identifier} {t : List Char} (h : Written (.name x) t) :
    t = x.text := by
  cases h with
  | name => rfl
  | form j inner _ => cases inner

/-- The first character of an expression tells numbers, names and forms apart. -/
theorem Written.exists_first {e : Expr} {t : List Char} (h : Written e t) :
    ∃ c more, t = c :: more ∧ e.Starts c := by
  cases h with
  | number n => exact n.text_eq_cons
  | name x => exact ⟨x.first, x.more, rfl, x.isAlpha⟩
  | form j inner _ => exact ⟨'(', _, rfl, inner.starts⟩

/-- Past its spaces, the text of an expression is at a character that starts it. -/
theorem spaceCount_append {k : Nat} {c : Char} (hc : c ≠ ' ') (more : List Char) :
    spaceCount (spaces k ++ c :: more) = k := by
  have hstop : StopsAt (· == ' ') (c :: more) := stopsAt_cons.mpr (by simpa using hc)
  have hall : ∀ a ∈ spaces k, (a == ' ') = true := by
    intro a ha
    simpa using List.eq_of_mem_replicate ha
  rw [spaceCount, takeWhile_append_eq hall hstop, length_spaces]

theorem Expr.endsBefore_nil (e : Expr) : e.EndsBefore [] := by
  cases e with
  | number n => exact stopsAt_nil _
  | name x => exact stopsAt_nil _
  | _ => trivial

/-- No token goes on into a space. -/
theorem Expr.endsBefore_space (e : Expr) (more : List Char) : e.EndsBefore (' ' :: more) := by
  cases e with
  | number n => exact stopsAt_cons.mpr rfl
  | name x => exact stopsAt_cons.mpr rfl
  | _ => trivial

/-- No token goes on into the spaces and the closing parenthesis of a form. -/
theorem Expr.endsBefore_close (e : Expr) (j : Nat) (after : List Char) :
    e.EndsBefore (spaces j ++ ')' :: after) := by
  have hhead : ∀ c ∈ (spaces j ++ ')' :: after).head?, c = ' ' ∨ c = ')' := by
    cases j with
    | zero => simp
    | succ j => simp [spaces, List.replicate_succ]
  cases e with
  | number n =>
    intro c hc
    rcases hhead c hc with rfl | rfl <;> decide
  | name x =>
    intro c hc
    rcases hhead c hc with rfl | rfl <;> decide
  | _ => trivial

/-- If an expression ends before a text, it also ends before that text with more behind it, as
long as the text is not empty or what comes behind is the end of the form. -/
theorem Expr.EndsBefore.append_close {e : Expr} {u : List Char} (h : e.EndsBefore u) (j : Nat)
    (after : List Char) : e.EndsBefore (u ++ (spaces j ++ ')' :: after)) := by
  cases u with
  | nil => exact e.endsBefore_close j after
  | cons c u =>
    cases e with
    | number n => exact stopsAt_cons.mpr (stopsAt_cons.mp h)
    | name x => exact stopsAt_cons.mpr (stopsAt_cons.mp h)
    | _ => trivial

/-- What ends before a text ends before the first part of it. -/
theorem Expr.EndsBefore.of_append {e : Expr} {u rest : List Char} (h : e.EndsBefore (u ++ rest)) :
    e.EndsBefore u := by
  cases e with
  | number n => exact StopsAt.of_append h
  | name x => exact StopsAt.of_append h
  | _ => trivial

/-! ### Layouts are long enough for their levels -/

theorem InnerLayout.one_le_height {f : Form} {e : Expr} {t : List Char} (h : InnerLayout f e t) :
    1 ≤ e.height := by
  cases h <;> simp only [Expr.height] <;> omega

theorem Written.one_le_height {e : Expr} {t : List Char} (h : Written e t) : 1 ≤ e.height := by
  cases h with
  | number | name => exact Nat.le_refl 1
  | form j inner _ => exact inner.one_le_height

mutual

/-- An expression is written with at least one character for each of its levels, so a text bounds
the height of what is written in it. -/
theorem Written.height_le {e : Expr} {t : List Char} : Written e t → e.height ≤ t.length
  | .number n => length_text_pos n
  | .name x => Nat.succ_le_succ (Nat.zero_le _)
  | .form j inner _ => by
    have := inner.height_le
    simp only [List.length_append, List.length_cons, List.length_nil]
    omega

theorem InnerLayout.height_le {f : Form} {e : Expr} {t : List Char} :
    InnerLayout f e t → e.height ≤ 1 + t.length
  | .add h | .mult h => by
    have := h.height_le
    simp only [Expr.height]
    omega
  | .div h | .eq h | .print h => by
    have := h.height_le
    simp only [Expr.height, Expr.heightAll] at this ⊢
    omega
  | .letIn h => by
    have := h.height_le
    simp only [Expr.height]
    omega

theorem OperandsLayout.height_le {es : List Expr} {t : List Char} :
    OperandsLayout es t → Expr.heightAll es ≤ t.length
  | .nil => Nat.zero_le _
  | .cons k first _ others => by
    have := first.height_le
    have := others.height_le
    simp only [Expr.heightAll, List.length_append]
    omega

theorem BlockLayout.height_le {bs : List (Identifier × Expr)} {body : Expr} {t : List Char} :
    BlockLayout bs body t → max (Expr.heightBindings bs) body.height ≤ t.length
  | .body k written => by
    have := written.height_le
    simp only [Expr.heightBindings, List.length_append]
    omega
  | .bind k i _ value _ others => by
    have := value.height_le
    have := others.height_le
    simp only [Expr.heightBindings, List.length_append]
    omega

end

/-- Spaces in front only add to the text, so this holds for layouts as well. -/
theorem Layout.height_le {e : Expr} {t : List Char} (h : Layout e t) : e.height ≤ t.length := by
  obtain ⟨k, u, hu, rfl⟩ := h
  have := hu.height_le
  rw [List.length_append]
  omega

end SExprCalc
