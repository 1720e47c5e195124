import SExprCalc.Eval.Expr

/-!
# Reading depends on the unread text

Inside the text, a cursor is what has been passed and what is still unread. Every reader looks at
the unread text alone and, if it succeeds, moves the cursor forward over some of it. This module
says so once for each reader: first for cursors (`Cursor.skipSpaces_eq` and the like, under
`Cursor.Inside`), then for runs (`Eval.skipSpaces_apply` and the like). Nothing later looks at
positions, at `Cursor.ahead` or at `Cursor.slice` again.
-/

namespace SExprCalc

/-! ### Runs of characters -/

/-- A text does not start with a character of a class. -/
def StopsAt (p : Char → Bool) (after : List Char) : Prop := ∀ c ∈ after.head?, p c = false

theorem stopsAt_nil (p : Char → Bool) : StopsAt p [] := by
  intro c hc
  cases hc

theorem stopsAt_cons {p : Char → Bool} {c : Char} {after : List Char} :
    StopsAt p (c :: after) ↔ p c = false := by
  simp [StopsAt]

theorem StopsAt.append {p : Char → Bool} {l : List Char} (h : StopsAt p l) (hl : l ≠ [])
    (after : List Char) : StopsAt p (l ++ after) := by
  cases l with
  | nil => exact absurd rfl hl
  | cons c l => exact stopsAt_cons.mpr (stopsAt_cons.mp h)

theorem StopsAt.of_append {p : Char → Bool} {l after : List Char} (h : StopsAt p (l ++ after)) :
    StopsAt p l := by
  cases l with
  | nil => exact stopsAt_nil p
  | cons c l => exact stopsAt_cons.mpr (stopsAt_cons.mp h)

/-- A run of characters of a class, cut off by another character, is all that is taken. -/
theorem takeWhile_append_eq {p : Char → Bool} {l after : List Char} (hl : ∀ c ∈ l, p c = true)
    (ha : StopsAt p after) : (l ++ after).takeWhile p = l := by
  rw [List.takeWhile_append_of_pos hl]
  cases after with
  | nil => simp
  | cons c after => simp [stopsAt_cons.mp ha]

theorem drop_length_takeWhile (p : Char → Bool) (text : List Char) :
    text.drop (text.takeWhile p).length = text.dropWhile p := by
  induction text with
  | nil => rfl
  | cons c text ih => by_cases hc : p c = true <;> simp [hc, ih]

/-- What follows the longest run of characters of a class does not go on with it. -/
theorem stopsAt_drop_takeWhile (p : Char → Bool) (text : List Char) :
    StopsAt p (text.drop (text.takeWhile p).length) := by
  rw [drop_length_takeWhile]
  intro c hc
  have := List.head?_dropWhile_not p text
  rw [Option.mem_def.mp hc] at this
  exact this

/-! ### Cursors within the text -/

namespace Cursor

/-- The position is one of the text, its end included. -/
def Inside (c : Cursor) : Prop := 0 ≤ c.pos ∧ c.pos ≤ c.size

/-- The cursor some characters further on. -/
def moved (c : Cursor) (n : Nat) : Cursor := { c with pos := c.pos + n }

/-- At the start of a text the cursor is within it, even if the text is empty. -/
theorem inside_ofString (s : String) : (ofString s).Inside :=
  ⟨Int.le_refl 0, Int.natCast_nonneg _⟩

@[simp] theorem source_moved (c : Cursor) (n : Nat) : (c.moved n).source = c.source := rfl

@[simp] theorem pos_moved (c : Cursor) (n : Nat) : (c.moved n).pos = c.pos + n := rfl

@[simp] theorem moved_zero (c : Cursor) : c.moved 0 = c := by
  simp [moved]

/-- The unread text starts at the position. -/
theorem Inside.rest_eq_drop {c : Cursor} (h : c.Inside) : c.rest = c.source.drop c.pos.toNat := by
  rw [rest, index_of_nonneg c h.1]

/-- Moving over some characters takes them off the unread text. -/
theorem rest_moved {c : Cursor} (h : c.Inside) (n : Nat) : (c.moved n).rest = c.rest.drop n := by
  have h₁ : c.index c.pos = c.pos.toNat := index_of_nonneg c h.1
  have h₂ : (c.moved n).index (c.moved n).pos = (c.pos + n).toNat :=
    index_of_nonneg _ (by have := h.1; simp only [pos_moved]; omega)
  rw [rest, rest, h₁, h₂, List.drop_drop, source_moved]
  congr 1
  have := h.1
  omega

/-- The unread text is as long as the way to the end. -/
theorem Inside.length_rest {c : Cursor} (h : c.Inside) :
    (c.rest.length : Int) = c.size - c.pos := by
  obtain ⟨h₀, h₁⟩ := h
  rw [rest, index_of_nonneg c h₀, List.length_drop]
  simp only [size] at h₁ ⊢
  omega

theorem Inside.remaining_eq {c : Cursor} (h : c.Inside) : c.remaining = c.rest.length := by
  have := h.length_rest
  rw [remaining, ← this, Int.toNat_natCast]

theorem Inside.moved {c : Cursor} (h : c.Inside) {n : Nat} (hn : n ≤ c.rest.length) :
    (c.moved n).Inside := by
  have hlen := h.length_rest
  refine ⟨?_, ?_⟩
  · have := h.1
    simp only [pos_moved]
    omega
  · simp only [pos_moved, size, source_moved] at hlen ⊢
    omega

/-! ### Cursors as readers see them -/

/-- The number of spaces with which a text starts. -/
def spaceCount (text : List Char) : Nat := (text.takeWhile (· == ' ')).length

/-- The length of the number with which a text starts: an optional minus sign and digits. -/
def numeralLength (text : List Char) : Nat :=
  let (negative, more) := Literal.split text
  let digits := more.takeWhile Char.isDigit
  if digits = [] then 0 else (if negative then 1 else 0) + digits.length

theorem spaceCount_le (text : List Char) : spaceCount text ≤ text.length :=
  (List.takeWhile_prefix _).length_le

theorem identifierLength_le (text : List Char) : identifierLength text ≤ text.length := by
  cases text with
  | nil => simp [identifierLength]
  | cons c more =>
    have : (more.takeWhile Char.isAlphanum).length ≤ more.length :=
      (List.takeWhile_prefix _).length_le
    simp only [identifierLength, List.length_cons]
    split <;> omega

/-- The text between the cursor and a place further on. -/
theorem slice_pos {c : Cursor} (h : c.Inside) (n : Nat) :
    c.slice c.pos (c.pos + n) = c.rest.take n := by
  have h₀ := h.1
  rw [slice, rest, index_of_nonneg c h₀, index_of_nonneg c (by omega)]
  congr 1
  omega

/-- Within the text, skipping spaces cannot fail: it moves the cursor by the number of spaces ahead.
-/
theorem skipSpaces_eq {c : Cursor} (h : c.Inside) :
    c.skipSpaces = .ok (c.moved (spaceCount c.rest)) := by
  rw [skipSpaces, ahead_of_nonneg c h.1]
  rfl

theorem startsWith_eq {c : Cursor} (h : c.Inside) (text : String) :
    c.startsWith text = text.toList.isPrefixOf c.rest := by
  simp [startsWith, h.2]

/-- Advancing stops at the end of the text, so by no more than what is left it is a plain move. -/
theorem advance_eq {c : Cursor} (h : c.Inside) {n : Nat} (hn : n ≤ c.rest.length) :
    c.advance n = c.moved n := by
  have hlen := h.length_rest
  have : min (c.pos + n) c.size = c.pos + n := by omega
  rw [advance, this, Cursor.moved]

theorem expect_eq {c : Cursor} (h : c.Inside) :
    c.expect ")" =
      if c.rest.head? = some ')' then .ok (c.moved 1)
      else .error (.expectedToken ")" c.restText) := by
  rw [expect, peek_of_nonneg c h.1]
  change (if c.rest.head?.toList = [')'] then _ else _) = _
  cases c.rest.head? with
  | none => simp
  | some x => simp [Cursor.moved]

theorem identifierEnd_eq {c : Cursor} (h : c.Inside) :
    c.identifierEnd = .ok (c.pos + identifierLength c.rest) := by
  rw [identifierEnd, ahead_of_nonneg c h.1]
  rfl

/-- Within the text, an identifier is read off the unread text alone: the longest one that starts
there, or a fault that shows the rest. -/
theorem readIdentifier_eq {c : Cursor} (h : c.Inside) :
    c.readIdentifier =
      if identifierLength c.rest = 0 then .error (.expectedIdentifier c.restText)
      else .ok (String.ofList (c.rest.take (identifierLength c.rest)),
        c.moved (identifierLength c.rest)) := by
  rw [readIdentifier, identifierEnd_eq h]
  change (if c.pos + identifierLength c.rest = c.pos then _ else _) = _
  rw [slice_pos h]
  by_cases hn : identifierLength c.rest = 0
  · simp [hn]
  · rw [if_neg (by omega), if_neg hn]
    rfl

/-- A number is read as a minus sign, if there is one, and as many digits as follow. Without a digit
it is a fault, and so is a value out of range; both leave the cursor where it was. -/
theorem readNumber_eq {c : Cursor} (h : c.Inside) :
    c.readNumber =
      if numeralLength c.rest = 0 then .error (.expectedDigits c.restText)
      else match Literal.value? (c.rest.take (numeralLength c.rest)) with
        | some x => .ok (x, c.moved (numeralLength c.rest))
        | none =>
          .error (.literalOutOfRange (String.ofList (c.rest.take (numeralLength c.rest)))) := by
  rcases hs : Literal.split c.rest with ⟨negative, more⟩
  have hlen : numeralLength c.rest = if more.takeWhile Char.isDigit = [] then 0
      else (if negative then 1 else 0) + (more.takeWhile Char.isDigit).length := by
    simp only [numeralLength, hs]
  rw [readNumber, ahead_of_nonneg c h.1]
  simp only [bind, Except.bind, hs]
  by_cases hd : more.takeWhile Char.isDigit = []
  · simp [hlen, hd]
  · have hne : numeralLength c.rest ≠ 0 := by
      have := List.length_pos_iff.mpr hd
      rw [hlen, if_neg hd]
      omega
    -- the sign and the digits together are the number, so reading ends behind its length
    have hstop : c.pos + (if negative then 1 else 0) + (more.takeWhile Char.isDigit).length =
        c.pos + (numeralLength c.rest : Int) := by
      rw [hlen, if_neg hd]
      cases negative <;> simp [Int.add_assoc]
    simp only [if_neg hd, if_neg hne, hstop, slice_pos h]
    rfl

/-- A binding lies ahead if an identifier does that is not directly followed by a closing
parenthesis. The character behind it is looked at without skipping spaces. -/
theorem bindingAhead_eq {c : Cursor} (h : c.Inside) :
    Form.bindingAhead c = .ok (identifierLength c.rest != 0 &&
      (c.rest.drop (identifierLength c.rest)).head? != some ')') := by
  have hin := h.moved (identifierLength_le c.rest)
  have hslice := slice_pos hin 1
  rw [rest_moved h] at hslice
  rw [Form.bindingAhead, identifierEnd_eq h]
  change Except.ok (c.pos + (identifierLength c.rest : Int) != c.pos &&
    c.slice (c.pos + identifierLength c.rest) (c.pos + identifierLength c.rest + 1) != [')']) = _
  have hfirst : (c.pos + (identifierLength c.rest : Int) != c.pos) =
      (identifierLength c.rest != 0) := by
    rw [Bool.eq_iff_iff]
    simp only [bne_iff_ne]
    omega
  have hnext : (c.slice (c.pos + identifierLength c.rest)
        (c.pos + identifierLength c.rest + 1) != [')']) =
      ((c.rest.drop (identifierLength c.rest)).head? != some ')') := by
    rw [show c.slice (c.pos + identifierLength c.rest) (c.pos + identifierLength c.rest + 1) =
      (c.rest.drop (identifierLength c.rest)).take 1 from hslice]
    cases c.rest.drop (identifierLength c.rest) with
    | nil => rfl
    | cons a more =>
      rw [Bool.eq_iff_iff]
      simp
  rw [hfirst, hnext]

/-! ### Spaces -/

theorem take_spaceCount (text : List Char) :
    text.take (spaceCount text) = List.replicate (spaceCount text) ' ' := by
  have htake : text.take (spaceCount text) = text.takeWhile (· == ' ') :=
    (List.prefix_iff_eq_take.mp (List.takeWhile_prefix _)).symm
  rw [htake]
  refine List.eq_replicate_iff.mpr ⟨rfl, ?_⟩
  intro c hc
  have := List.all_eq_true.mp List.all_takeWhile c hc
  exact eq_of_beq this

theorem spaceCount_eq_zero {text : List Char} {c : Char} (h : text.head? = some c) (hc : c ≠ ' ') :
    spaceCount text = 0 := by
  obtain ⟨more, rfl⟩ := List.head?_eq_some_iff.mp h
  simp [spaceCount, hc]

/-- Past its spaces a text does not start with one. -/
theorem head?_drop_spaceCount (text : List Char) :
    (text.drop (spaceCount text)).head? ≠ some ' ' := by
  intro h
  have := stopsAt_drop_takeWhile (· == ' ') text ' ' h
  simp at this

end Cursor

/-! ### Runs -/

namespace Run

/-- The text that has not been read yet. -/
def unread (run : Run) : List Char := run.cursor.rest

/-- The cursor is within the text. -/
def Inside (run : Run) : Prop := run.cursor.Inside

/-- The run some characters further on. -/
def moved (run : Run) (n : Nat) : Run := { run with cursor := run.cursor.moved n }

/-- The run past the spaces that lie ahead. -/
def skipped (run : Run) : Run := run.moved (Cursor.spaceCount run.unread)

/-- The run after an event. -/
def noted (run : Run) (event : Event) : Run := { run with history := event :: run.history }

@[simp] theorem moved_zero (run : Run) : run.moved 0 = run := by
  simp [moved]

@[simp] theorem cursor_moved (run : Run) (n : Nat) : (run.moved n).cursor = run.cursor.moved n :=
  rfl

@[simp] theorem history_moved (run : Run) (n : Nat) : (run.moved n).history = run.history := rfl

@[simp] theorem history_noted (run : Run) (event : Event) :
    (run.noted event).history = event :: run.history := rfl

@[simp] theorem unread_noted (run : Run) (event : Event) :
    (run.noted event).unread = run.unread := rfl

theorem unread_moved {run : Run} (h : run.Inside) (n : Nat) :
    (run.moved n).unread = run.unread.drop n :=
  Cursor.rest_moved h n

theorem Inside.moved {run : Run} (h : run.Inside) {n : Nat} (hn : n ≤ run.unread.length) :
    (run.moved n).Inside :=
  Cursor.Inside.moved h hn

/-- Moving past the first part of the unread text leaves the second. -/
theorem unread_moved_of_append {run : Run} (h : run.Inside) {t rest : List Char}
    (hu : run.unread = t ++ rest) : (run.moved t.length).unread = rest := by
  rw [unread_moved h, hu, List.drop_left]

theorem Inside.moved_of_append {run : Run} (h : run.Inside) {t rest : List Char}
    (hu : run.unread = t ++ rest) : (run.moved t.length).Inside :=
  h.moved (by rw [hu, List.length_append]; omega)

theorem Inside.noted {run : Run} (h : run.Inside) (event : Event) : (run.noted event).Inside := h

theorem Inside.skipped {run : Run} (h : run.Inside) : run.skipped.Inside :=
  h.moved (Cursor.spaceCount_le _)

theorem unread_skipped {run : Run} (h : run.Inside) :
    run.skipped.unread = run.unread.drop (Cursor.spaceCount run.unread) :=
  unread_moved h _

/-- After spaces have been skipped, no space lies ahead. -/
theorem head?_unread_skipped {run : Run} (h : run.Inside) :
    run.skipped.unread.head? ≠ some ' ' := by
  rw [unread_skipped h]
  exact Cursor.head?_drop_spaceCount _

/-- Past its spaces, a run has no more spaces ahead. -/
theorem spaceCount_skipped {run : Run} (h : run.Inside) :
    Cursor.spaceCount run.skipped.unread = 0 := by
  rcases hc : run.skipped.unread.head? with _ | c
  · rw [List.head?_eq_none_iff.mp hc]
    rfl
  · refine Cursor.spaceCount_eq_zero hc ?_
    rintro rfl
    exact head?_unread_skipped h hc

/-- So skipping a second time changes nothing. -/
theorem skipped_skipped {run : Run} (h : run.Inside) : run.skipped.skipped = run.skipped := by
  rw [skipped, spaceCount_skipped h, moved_zero]

end Run

namespace Eval

variable {run : Run}

/-- A computation that goes on succeeds only if its first part does. -/
theorem bind_eq_ok {α β : Type} {x : Eval α} {f : α → Eval β} {run run' : Run} {b : β}
    (h : (x >>= f) run = (.ok b, run')) :
    ∃ a run₁, x run = (.ok a, run₁) ∧ f a run₁ = (.ok b, run') := by
  rcases hx : x run with ⟨fault | a, run₁⟩
  · rw [bind_of_error hx] at h
    cases h
  · rw [bind_of_ok hx] at h
    exact ⟨a, run₁, rfl, h⟩

/-- The next level is within the limit, if there is one, or beyond it. -/
theorem within_or_beyond (limit : Option Int) (depth : Int) :
    (∀ d ∈ limit, depth + 1 ≤ d) ∨ ∃ d, limit = some d ∧ d < depth + 1 := by
  cases limit with
  | none => exact .inl (fun _ h => by cases h)
  | some d =>
    by_cases h : d < depth + 1
    · exact .inr ⟨d, rfl, h⟩
    · exact .inl (by simpa using h)

/-- A computation one level deeper succeeds only within the limit. -/
theorem nested_eq_ok {α : Type} {limit : Option Int} {x : Eval α} {run run' : Run} {a : α}
    (h : nested limit x run = (.ok a, run')) :
    (∀ d ∈ limit, run.depth + 1 ≤ d) ∧ ∃ run₁, x run.deeper = (.ok a, run₁) ∧
      run' = { run₁ with depth := run₁.depth - 1 } := by
  rcases within_or_beyond limit run.depth with hle | ⟨d, rfl, hlt⟩
  · rw [nested_of_le hle, thenLeave] at h
    rcases hout : x run.deeper with ⟨result, run₁⟩
    rw [hout] at h
    obtain ⟨rfl, rfl⟩ := Prod.mk.inj h
    exact ⟨hle, run₁, rfl, rfl⟩
  · rw [nested_of_lt hlt] at h
    cases h

theorem skipSpaces_apply (h : run.Inside) : skipSpaces run = (.ok (), run.skipped) := by
  rw [skipSpaces, move, Cursor.skipSpaces_eq h]
  rfl

theorem peek_apply (h : run.Inside) : peek run = (.ok run.unread.head?, run) := by
  rw [peek, lookAhead_apply, Cursor.peek_of_nonneg _ h.1]
  rfl

theorem advance_apply (h : run.Inside) {n : Nat} (hn : n ≤ run.unread.length) :
    advance n run = (.ok (), run.moved n) := by
  rw [advance, move, Cursor.advance_eq h hn]
  rfl

/-- A closing parenthesis that lies ahead is passed, and without one the run fails where it is. -/
theorem expect_apply (h : run.Inside) :
    expect ")" run =
      if run.unread.head? = some ')' then (.ok (), run.moved 1)
      else (.error (.expectedToken ")" run.cursor.restText), run) := by
  rw [expect, move, Cursor.expect_eq h, Run.unread]
  by_cases hc : run.cursor.rest.head? = some ')'
  · simp only [if_pos hc]
    rfl
  · simp only [if_neg hc]

theorem readIdentifier_apply (h : run.Inside) (hn : Cursor.identifierLength run.unread ≠ 0) :
    readIdentifier run =
      (.ok (String.ofList (run.unread.take (Cursor.identifierLength run.unread))),
        run.moved (Cursor.identifierLength run.unread)) := by
  refine read_of_ok ?_
  rw [Cursor.readIdentifier_eq h]
  exact if_neg hn

theorem readNumber_apply (h : run.Inside) :
    readNumber run =
      if Cursor.numeralLength run.unread = 0 then
        (.error (.expectedDigits run.cursor.restText), run)
      else match Literal.value? (run.unread.take (Cursor.numeralLength run.unread)) with
        | some x => (.ok x, run.moved (Cursor.numeralLength run.unread))
        | none => (.error (.literalOutOfRange
            (String.ofList (run.unread.take (Cursor.numeralLength run.unread)))), run) := by
  rw [readNumber, read, Cursor.readNumber_eq h, Run.unread]
  by_cases hn : Cursor.numeralLength run.cursor.rest = 0
  · simp only [if_pos hn]
  · simp only [if_neg hn]
    cases Literal.value? (run.cursor.rest.take (Cursor.numeralLength run.cursor.rest)) <;> rfl

theorem bindingAhead_apply (h : run.Inside) :
    lookAhead Form.bindingAhead run =
      (.ok (Cursor.identifierLength run.unread != 0 &&
        (run.unread.drop (Cursor.identifierLength run.unread)).head? != some ')'), run) := by
  rw [lookAhead_apply, Cursor.bindingAhead_eq h]
  rfl

/-- Loops are given one round more than there are characters left, and each of their rounds reads at
least one. -/
theorem rounds_apply (h : run.Inside) : Form.rounds run = (.ok (run.unread.length + 1), run) := by
  rw [Form.rounds, look_apply, Cursor.Inside.remaining_eq h]
  rfl

theorem note_eq_noted (event : Event) (run : Run) : note event run = (.ok (), run.noted event) :=
  rfl

/-- An operand lies ahead unless the text ends or the form is closed. The spaces before it are
skipped in either case. -/
theorem operandAhead_apply (h : run.Inside) :
    Form.operandAhead run = (.ok (run.skipped.unread.head?.any (· != ')')), run.skipped) := by
  rw [Form.operandAhead, bind_of_ok (skipSpaces_apply h), bind_of_ok (peek_apply h.skipped)]
  rfl

end Eval

/-! ### Forms -/

namespace Form

/-- No two heads start with the same character. -/
theorem head_injective_first {f g : Form} (h : f.head.toList.head? = g.head.toList.head?) :
    f = g := by
  revert h
  cases f <;> cases g <;> decide

theorem head?_head_append (f : Form) (u : List Char) :
    (f.head.toList ++ u).head? = f.head.toList.head? := by
  cases f <;> rfl

/-- At most one head starts a text. -/
theorem eq_of_both_heads {f g : Form} {text : List Char} (hf : f.head.toList <+: text)
    (hg : g.head.toList <+: text) : f = g := by
  obtain ⟨u, rfl⟩ := hf
  obtain ⟨v, hv⟩ := hg
  refine head_injective_first ?_
  have hhead := congrArg List.head? hv
  rw [head?_head_append, head?_head_append] at hhead
  exact hhead.symm

theorem length_head_le {f : Form} {text : List Char} (h : f.head.toList <+: text) :
    f.head.length ≤ text.length := by
  rw [← String.length_toList]
  exact h.length_le

/-- The form whose head starts a text. -/
def ahead? (text : List Char) : Option Form := all.find? fun f => f.head.toList.isPrefixOf text

theorem head_prefix_of_ahead? {text : List Char} {f : Form} (h : ahead? text = some f) :
    f.head.toList <+: text := by
  have := List.find?_some (p := fun f : Form => f.head.toList.isPrefixOf text) h
  exact List.isPrefixOf_iff_prefix.mp this

/-- A form is recognised exactly if the text starts with its head. No head begins another one, so
the order in which they are tried does not matter. -/
theorem ahead?_eq_some_iff {text : List Char} {f : Form} :
    ahead? text = some f ↔ f.head.toList <+: text := by
  refine ⟨head_prefix_of_ahead?, fun h => ?_⟩
  rcases hg : ahead? text with _ | g
  · have := List.find?_eq_none.mp hg f (mem_all f)
    exact absurd (List.isPrefixOf_iff_prefix.mpr h) this
  · rw [eq_of_both_heads h (head_prefix_of_ahead? hg)]

theorem ahead?_eq_none_iff {text : List Char} :
    ahead? text = none ↔ ∀ f : Form, ¬ f.head.toList <+: text := by
  constructor
  · intro h f hf
    rw [ahead?_eq_some_iff.mpr hf] at h
    cases h
  · intro h
    rcases hg : ahead? text with _ | g
    · rfl
    · exact absurd (ahead?_eq_some_iff.mp hg) (h g)

/-- What is left to do once the operands of a form have been evaluated. -/
def close (form : Form) (value : Value) : Eval Value := do
  Eval.skipSpaces
  Eval.expect ")"
  Eval.note (.closed form (← Eval.look (·.pos)))
  return value

end Form

namespace Run

/-- The run past the head of a form, which has been recognised. -/
def opened (run : Run) (form : Form) : Run :=
  (run.moved form.head.length).noted (.dispatched form (run.cursor.pos + form.head.length))

/-- The run past the closing parenthesis of a form. -/
def closed (run : Run) (form : Form) : Run :=
  (run.moved 1).noted (.closed form (run.cursor.pos + 1))

theorem unread_opened {run : Run} (h : run.Inside) {form : Form} {more : List Char}
    (hmore : run.unread = form.head.toList ++ more) : (run.opened form).unread = more := by
  rw [opened, unread_noted, unread_moved h, hmore, ← String.length_toList]
  exact List.drop_left

theorem Inside.opened {run : Run} (h : run.Inside) {form : Form}
    (hp : form.head.toList <+: run.unread) : (run.opened form).Inside :=
  (h.moved (Form.length_head_le hp)).noted _

theorem Inside.closed {run : Run} (h : run.Inside) (form : Form)
    (hp : run.unread.head? = some ')') : (run.closed form).Inside := by
  refine (h.moved ?_).noted _
  cases hu : run.unread with
  | nil => simp [hu] at hp
  | cons c more => simp

end Run

variable {run : Run} {operand : Scope → Eval Value} {scope : Scope}

/-- A form is closed by the parenthesis behind any spaces, which notes that it is; anything else in
its place is a fault. -/
theorem Form.close_apply (h : run.Inside) (form : Form) (value : Value) :
    form.close value run =
      if run.skipped.unread.head? = some ')' then (.ok value, run.skipped.closed form)
      else (.error (.expectedToken ")" run.skipped.cursor.restText), run.skipped) := by
  rw [Form.close, Eval.bind_of_ok (Eval.skipSpaces_apply h)]
  by_cases hc : run.skipped.unread.head? = some ')'
  · have := Eval.expect_apply h.skipped
    rw [if_pos hc] at this
    rw [if_pos hc, Eval.bind_of_ok this]
    rfl
  · have := Eval.expect_apply h.skipped
    rw [if_neg hc] at this
    rw [if_neg hc, Eval.bind_of_error this]

/-- Behind an opening parenthesis stands the head of a form, which is then evaluated and closed, or
else there is nothing to call. -/
theorem formAhead_apply (h : run.Inside) :
    formAhead operand scope run =
      match Form.ahead? run.unread with
      | none => (.error (.notCallable run.cursor.restText), run)
      | some form => (form.eval operand scope >>= form.close) (run.opened form) := by
  have hfind : Form.all.find? (run.cursor.startsWith ·.head) = Form.ahead? run.unread := by
    simp only [Cursor.startsWith_eq h]
    rfl
  rw [formAhead, Eval.bind_of_ok (Eval.look_apply _ _), hfind]
  rcases hf : Form.ahead? run.unread with _ | form
  · rfl
  · have hp := Form.ahead?_eq_some_iff.mp hf
    simp only
    rw [Eval.bind_of_ok (Eval.advance_apply h (Form.length_head_le hp))]
    rfl

/-- What an expression is, is decided by its first character behind the spaces: a form, a number, a
name, or nothing that could be one. -/
theorem expressionAhead_apply (h : run.Inside) :
    expressionAhead operand scope run =
      match run.skipped.unread.head? with
      | none => (.error .emptyExpression, run.skipped)
      | some c =>
        if c = '(' then formAhead operand scope (run.skipped.moved 1)
        else if c = '-' || c.isDigit then
          (do return .number (← Eval.readNumber) : Eval Value) run.skipped
        else if c.isAlpha then
          (do Eval.ofExcept (scope.resolve (.text (← Eval.readIdentifier))) : Eval Value)
            run.skipped
        else (.error (.unexpectedChar c), run.skipped) := by
  -- after the first two steps the two sides are the same case analysis
  rw [expressionAhead, Eval.bind_of_ok (Eval.skipSpaces_apply h),
    Eval.bind_of_ok (Eval.peek_apply h.skipped)]
  rcases hc : run.skipped.unread.head? with _ | c
  · rfl
  · simp only
    by_cases hp : c = '('
    · have hlen : 1 ≤ run.skipped.unread.length := by
        cases hu : run.skipped.unread with
        | nil => simp [hu] at hc
        | cons a more => simp
      simp only [if_pos hp]
      exact Eval.bind_of_ok (Eval.advance_apply h.skipped hlen)
    · simp only [if_neg hp]
      split
      · rfl
      · split <;> rfl

/-! ### Evaluations -/

theorem result_evaluate (source : String) (scope : Scope) (maxDepth : Int) :
    (evaluate source scope maxDepth).result =
      (expressionWithin (some maxDepth) stackLevels scope { cursor := .ofString source }).1 := rfl

theorem run_evaluate (source : String) (scope : Scope) (maxDepth : Int) :
    (evaluate source scope maxDepth).run =
      (expressionWithin (some maxDepth) stackLevels scope { cursor := .ofString source }).2 := rfl

theorem Run.inside_ofString (source : String) : Run.Inside { cursor := .ofString source } :=
  Cursor.inside_ofString source

end SExprCalc
