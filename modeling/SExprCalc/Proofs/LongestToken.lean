import SExprCalc.Cursor.Step
import SExprCalc.Proofs.LiteralValue

/-!
# The longest token or nothing

Of the tokens of one sort with which a text starts, identifiers or numbers, a reader takes the
longest (`Longest`). No reader looks for it in this way: each scans on for as long as characters of
one class follow. That comes to the same, because a token that goes on after another of its sort
goes on with a character of that class (`longest_of_stopsAt`).

Where an identifier ends is found out twice in the loop over bindings: once by the look ahead that
tells a binding from a body, and once by the reader. Both scan the same text, so a round of the loop
goes on exactly where it has looked (`Form.bindings_of_skipSpaces`).
-/

namespace SExprCalc

open Cursor

/-! ### The longest token of a sort -/

/-- A text starts with a token, and with no longer token of the same sort. -/
structure Longest {τ : Type} (text : τ → List Char) (ahead : List Char) (x : τ) : Prop where
  /-- the text starts with the token -/
  starts : text x <+: ahead
  /-- no other token with which it starts is longer -/
  longest : ∀ y, text y <+: ahead → (text y).length ≤ (text x).length

/-- A token is the longest one if longer ones go on with characters of a class, and none of these
follows. -/
theorem longest_of_stopsAt {τ : Type} {text : τ → List Char} {p : Char → Bool} {x : τ}
    {after : List Char} (hgrow : ∀ y c more, text y = text x ++ c :: more → p c = true)
    (hstop : StopsAt p after) : Longest text (text x ++ after) x := by
  refine ⟨List.prefix_append _ _, fun y hy => ?_⟩
  by_contra hlonger
  obtain ⟨more, hmore⟩ := List.prefix_of_prefix_length_le (List.prefix_append _ after) hy
    (Nat.le_of_not_le hlonger)
  cases more with
  | nil => simp [← hmore] at hlonger
  | cons c more =>
    rw [← hmore, List.prefix_append_right_inj] at hy
    obtain ⟨rest, rfl⟩ := hy
    have hc := stopsAt_cons.mp hstop
    rw [hgrow y c more hmore.symm] at hc
    cases hc

theorem Identifier.longest (x : Identifier) {after : List Char}
    (hstop : StopsAt Char.isAlphanum after) : Longest Identifier.text (x.text ++ after) x := by
  refine longest_of_stopsAt (fun y c more h => ?_) hstop
  obtain ⟨-, hmore⟩ := List.cons.inj h
  exact y.isAlphanum c (by simp [hmore])

/-- Behind its first character a number has only digits. -/
theorem Numeral.isDigit_of_mem_tail {n : Numeral} {c : Char} (h : c ∈ n.text.tail) :
    c.isDigit = true := by
  rw [Numeral.text] at h
  split at h
  · exact n.isDigit c h
  · exact n.isDigit c (List.mem_of_mem_tail h)

theorem Numeral.longest (n : Numeral) {after : List Char} (hstop : StopsAt Char.isDigit after) :
    Longest Numeral.text (n.text ++ after) n := by
  refine longest_of_stopsAt (fun m c more h => m.isDigit_of_mem_tail ?_) hstop
  obtain ⟨first, others, htext, -⟩ := n.text_eq_cons
  simp [h, htext]

/-! ### Where a token starts -/

/-- An identifier starts with a letter, and any letter starts one. -/
theorem identifierLength_ne_zero_iff {text : List Char} :
    identifierLength text ≠ 0 ↔ text.head?.any Char.isAlpha = true := by
  cases text with
  | nil => simp [identifierLength]
  | cons c more => by_cases hc : c.isAlpha = true <;> simp [identifierLength, hc]

/-- Where a number starts, one is found. -/
theorem numeralLength_ne_zero {n : Numeral} {text : List Char} (h : n.text <+: text) :
    numeralLength text ≠ 0 := by
  obtain ⟨after, rfl⟩ := h
  have hdigits : (n.digits ++ after).takeWhile Char.isDigit ≠ [] := by
    simp [List.takeWhile_append_of_pos n.isDigit, n.ne_nil]
  rw [numeralLength, split_text_append]
  simp [hdigits]

/-! ### The readers -/

section

variable {c : Cursor} (hin : c.Inside)

include hin

/-- Reading an identifier: a letter starts the longest one, which is read, and anything else starts
none. -/
theorem Cursor.apply_readIdentifier :
    if c.rest.head?.any Char.isAlpha then
      ∃ x : Identifier, Longest Identifier.text c.rest x ∧
        identifierLength c.rest = x.text.length ∧
        c.apply .readIdentifier = (.ok (.text x.name), c.moved x.text.length)
    else identifierLength c.rest = 0 ∧ (∀ x : Identifier, ¬ x.text <+: c.rest) ∧
      c.apply .readIdentifier = (.error (.expectedIdentifier c.restText), c) := by
  split
  · rename_i hletter
    obtain ⟨x, after, hrest, hstop⟩ := exists_identifier (identifierLength_ne_zero_iff.mpr hletter)
    refine ⟨x, hrest ▸ x.longest hstop, ?_, ?_⟩
    · rw [hrest, identifierLength_text_append x hstop]
    · rw [apply, readIdentifier_text hin hrest hstop]
  · rename_i hletter
    have hzero : identifierLength c.rest = 0 :=
      not_ne_iff.mp fun hne => hletter (identifierLength_ne_zero_iff.mp hne)
    refine ⟨hzero, ?_, ?_⟩
    · rintro x ⟨after, hrest⟩
      exact hletter (by simp [← hrest, Identifier.text, x.isAlpha])
    · rw [apply, readIdentifier_eq hin, if_pos hzero]

/-- Reading a number: there is none, or the longest one is out of range, or it is read. -/
theorem Cursor.apply_readNumber :
    ((∀ n : Numeral, ¬ n.text <+: c.rest) ∧
      c.apply .readNumber = (.error (.expectedDigits c.restText), c)) ∨
    ∃ n : Numeral, Longest Numeral.text c.rest n ∧
      if 4300 < n.digits.length ∨ 2 ^ 1024 - 2 ^ 970 ≤ |n.integer| then
        c.apply .readNumber = (.error (.literalOutOfRange (String.ofList n.text)), c)
      else ∃ x, Literal.value? n.text = some x ∧
        c.apply .readNumber = (.ok (.value (.number x)), c.moved n.text.length) := by
  by_cases hzero : numeralLength c.rest = 0
  · refine .inl ⟨fun n hn => numeralLength_ne_zero hn hzero, ?_⟩
    rw [apply, readNumber_eq hin, if_pos hzero]
  · obtain ⟨n, after, hrest, hstop⟩ := exists_numeral hzero
    have hread := readNumber_text hin hrest hstop
    refine .inr ⟨n, hrest ▸ n.longest hstop, ?_⟩
    split
    · rename_i hrange
      rw [apply, hread, Numeral.value?_eq_none hrange]
    · rename_i hrange
      obtain ⟨r, hvalue, -⟩ := Numeral.exists_value? hrange
      rw [apply, hread, hvalue]
      exact ⟨_, rfl, rfl⟩

end

/-- A reader that ends in a fault leaves the run as it was. -/
theorem Eval.snd_read_of_error {α : Type} {f : Cursor → Except Fault (α × Cursor)} {run : Run}
    {fault : Fault} (h : (Eval.read f run).1 = .error fault) : (Eval.read f run).2 = run := by
  rcases hf : f run.cursor with fault' | ⟨a, cursor⟩
  · rw [Eval.read_of_error hf]
  · rw [Eval.read_of_ok hf] at h
    cases h

/-- A round of the loop over bindings, from where the spaces end. It leaves the loop without having
moved, or goes on from where the look ahead has found the identifier to end. -/
theorem Form.bindings_of_skipSpaces {run : Run} {c : Cursor} (hin : c.Inside)
    (hskip : Eval.skipSpaces run = (.ok (), { run with cursor := c }))
    (operand : Scope → Eval Value) (bound : ℕ) (scope : Scope) :
    Form.bindings operand (bound + 1) scope run =
      if identifierLength c.rest = 0 ∨ c.rest[identifierLength c.rest]? = some ')' then
        (.ok scope, { run with cursor := c })
      else (operand scope >>= fun value => Form.bindings operand bound (scope.define
          (String.ofList (c.rest.take (identifierLength c.rest))) value))
        { run with cursor := c.moved (identifierLength c.rest) } := by
  have hinside : Run.Inside { run with cursor := c } := hin
  have hahead : Eval.lookAhead Form.bindingAhead { run with cursor := c } =
      (.ok (identifierLength c.rest != 0 && c.rest[identifierLength c.rest]? != some ')'),
        { run with cursor := c }) := by
    rw [Eval.bindingAhead_apply hinside, List.head?_drop]
    rfl
  rw [Form.bindings, Eval.bind_of_ok hskip, Eval.bind_of_ok hahead]
  by_cases hname : identifierLength c.rest = 0
  · simp [hname]
  · by_cases hclose : c.rest[identifierLength c.rest]? = some ')'
    · simp [hclose]
    · have hbinding : (identifierLength c.rest != 0 &&
          c.rest[identifierLength c.rest]? != some ')') = true := by
        simp [hname, hclose]
      rw [if_pos hbinding, if_neg (not_or.mpr ⟨hname, hclose⟩)]
      exact Eval.bind_of_ok (Eval.readIdentifier_apply hinside hname)

/-! ### The theorem -/

/-- **The token readers take the longest token or nothing.** At any place of any text:

* where a letter stands, the identifier that is read is the longest one that starts there, the
  cursor moves exactly past it, and the look ahead, which does not move, finds the same end. Where
  none stands, nothing is read, and the end is the place itself;
* a round of the loop over bindings whose spaces end there leaves the loop if there is no
  identifier, or if a closing parenthesis stands at the end that the look ahead finds. Otherwise
  that end is where the reader moves to and where the operand is evaluated;
* a number is read if one starts there, and then it is the longest one, and the cursor moves exactly
  past it; unless it is out of range, having too many digits or too large a value;
* a reader that ends in a fault leaves the text and the position as they were, and in an evaluation
  the whole run. -/
theorem readers_take_longest {source : List Char} {p : ℕ} (hp : p ≤ source.length) :
    let c : Cursor := ⟨source, p⟩
    (∃ stop : ℕ, c.apply .identifierEnd = (.ok (.integer stop), c) ∧
      (if (source[p]?).any Char.isAlpha then
        ∃ x : Identifier, Longest Identifier.text (source.drop p) x ∧ stop = p + x.text.length ∧
          c.apply .readIdentifier = (.ok (.text x.name), ⟨source, stop⟩)
      else stop = p ∧ (∀ x : Identifier, ¬ x.text <+: source.drop p) ∧
        c.apply .readIdentifier =
          (.error (.expectedIdentifier (String.ofList (source.drop p))), c)) ∧
      ∀ (run : Run) (operand : Scope → Eval Value) (bound : ℕ) (scope : Scope),
        Eval.skipSpaces run = (.ok (), { run with cursor := c }) →
          if stop = p ∨ source[stop]? = some ')' then
            Form.bindings operand (bound + 1) scope run = (.ok scope, { run with cursor := c })
          else ∃ name, c.apply .readIdentifier = (.ok (.text name), ⟨source, stop⟩) ∧
            Form.bindings operand (bound + 1) scope run =
              (operand scope >>= fun value =>
                Form.bindings operand bound (scope.define name value))
                { run with cursor := ⟨source, stop⟩ }) ∧
    (((∀ n : Numeral, ¬ n.text <+: source.drop p) ∧ c.apply .readNumber =
        (.error (.expectedDigits (String.ofList (source.drop p))), c)) ∨
      ∃ n : Numeral, Longest Numeral.text (source.drop p) n ∧
        if 4300 < n.digits.length ∨ 2 ^ 1024 - 2 ^ 970 ≤ |n.integer| then
          c.apply .readNumber = (.error (.literalOutOfRange (String.ofList n.text)), c)
        else ∃ x, Literal.value? n.text = some x ∧ c.apply .readNumber =
          (.ok (.value (.number x)), ⟨source, p + n.text.length⟩)) ∧
    ∀ (run : Run) (fault : Fault),
      ((Eval.readIdentifier run).1 = .error fault → (Eval.readIdentifier run).2 = run) ∧
      ((Eval.readNumber run).1 = .error fault → (Eval.readNumber run).2 = run) := by
  intro c
  have hin : c.Inside := ⟨Int.natCast_nonneg p, Int.ofNat_le.mpr hp⟩
  have hrest : c.rest = source.drop p := hin.rest_eq_drop
  have hhead : c.rest.head? = source[p]? := by rw [hrest, List.head?_drop]
  have hend : c.identifierEnd = .ok (p + identifierLength c.rest) := identifierEnd_eq hin
  refine ⟨⟨p + identifierLength c.rest, ?_, ?_, ?_⟩, hrest ▸ apply_readNumber hin, ?_⟩
  · rw [apply, hend]
    rfl
  · have hread := apply_readIdentifier hin
    rw [← hhead, ← hrest]
    by_cases hletter : c.rest.head?.any Char.isAlpha = true
    · rw [if_pos hletter] at hread ⊢
      obtain ⟨x, hx, hlen, hread⟩ := hread
      exact ⟨x, hx, congrArg (p + ·) hlen, hlen ▸ hread⟩
    · rw [if_neg hletter] at hread ⊢
      obtain ⟨hlen, hnone, hread⟩ := hread
      exact ⟨congrArg (p + ·) hlen, hnone, hread⟩
  · intro run operand bound scope hskip
    have hnext : c.rest[identifierLength c.rest]? = source[p + identifierLength c.rest]? := by
      rw [hrest, List.getElem?_drop]
    have hround := Form.bindings_of_skipSpaces hin hskip operand bound scope
    rw [hnext] at hround
    by_cases hleave : identifierLength c.rest = 0 ∨
        source[p + identifierLength c.rest]? = some ')'
    · rw [if_pos (by simpa using hleave), hround, if_pos hleave]
    · rw [if_neg (by simpa using hleave)]
      refine ⟨_, ?_, hround.trans (if_neg hleave)⟩
      rw [apply, readIdentifier_eq hin, if_neg fun hzero => hleave (.inl hzero)]
      rfl
  · intro run fault
    exact ⟨Eval.snd_read_of_error, Eval.snd_read_of_error⟩

/-- Letters and digits that are not ASCII end an identifier and a number, and a minus sign without
digits starts none. -/
theorem readers_take_longest_foreign :
    let source := "(let abé -007٣ -)".toList
    5 ≤ source.length ∧ 9 ≤ source.length ∧ 15 ≤ source.length ∧
    (∃ x : Identifier, Longest Identifier.text (source.drop 5) x ∧ 7 = 5 + x.text.length ∧
      Cursor.apply ⟨source, 5⟩ .readIdentifier = (.ok (.text x.name), ⟨source, 7⟩)) ∧
    (∀ operand scope, Form.bindings operand 1 scope { cursor := ⟨source, 4⟩ } =
      (operand scope >>= fun value => Form.bindings operand 0 (scope.define "ab" value))
        { cursor := ⟨source, 7⟩ }) ∧
    (∃ n : Numeral, Longest Numeral.text (source.drop 9) n ∧ ∃ x, Literal.value? n.text = some x ∧
      Cursor.apply ⟨source, 9⟩ .readNumber =
        (.ok (.value (.number x)), ⟨source, 9 + n.text.length⟩)) ∧
    (∀ n : Numeral, ¬ n.text <+: source.drop 15) ∧
      Cursor.apply ⟨source, 15⟩ .readNumber = (.error (.expectedDigits "-)"), ⟨source, 15⟩) := by
  intro source
  have hname : 5 ≤ source.length := by decide
  have hnumber : 9 ≤ source.length := by decide
  have hminus : 15 ≤ source.length := by decide
  have hend : Cursor.apply ⟨source, (5 : ℕ)⟩ .identifierEnd =
      (.ok (.integer (7 : ℕ)), ⟨source, (5 : ℕ)⟩) := by
    decide +kernel
  refine ⟨hname, hnumber, hminus, ?_, ?_, ?_, ?_⟩
  · obtain ⟨⟨stop, hstop, hread, -⟩, -⟩ := readers_take_longest hname
    cases hend.symm.trans hstop
    rwa [if_pos (by decide)] at hread
  · intro operand scope
    have hread : Cursor.apply ⟨source, (5 : ℕ)⟩ .readIdentifier =
        (.ok (.text "ab"), ⟨source, (7 : ℕ)⟩) := by
      decide +kernel
    have hskip : Eval.skipSpaces { cursor := ⟨source, 4⟩ } =
        (.ok (), { cursor := ⟨source, (5 : ℕ)⟩ }) := by
      decide +kernel
    obtain ⟨⟨stop, hstop, -, hround⟩, -⟩ := readers_take_longest hname
    cases hend.symm.trans hstop
    have hround := hround _ operand 0 scope hskip
    rw [if_neg (by decide)] at hround
    obtain ⟨name, hname, hround⟩ := hround
    cases hread.symm.trans hname
    exact hround
  · have hmoved : (Cursor.apply ⟨source, (9 : ℕ)⟩ .readNumber).2.pos = 13 := by decide +kernel
    obtain ⟨-, ⟨-, hread⟩ | ⟨n, hn, hread⟩, -⟩ := readers_take_longest hnumber
    · rw [hread] at hmoved
      cases hmoved
    · split at hread
      · rw [hread] at hmoved
        cases hmoved
      · exact ⟨n, hn, hread⟩
  · have hfault : (Cursor.apply ⟨source, (15 : ℕ)⟩ .readNumber).1 =
        .error (.expectedDigits "-)") := by
      decide +kernel
    obtain ⟨-, ⟨hnone, hread⟩ | ⟨n, -, hread⟩, -⟩ := readers_take_longest hminus
    · exact ⟨hnone, hread⟩
    · split at hread
      · rw [hread] at hfault
        cases hfault
      · obtain ⟨x, -, hread⟩ := hread
        rw [hread] at hfault
        cases hfault

end SExprCalc
