import SExprCalc.Proofs.Acceptance
import SExprCalc.Proofs.Levels

/-!
# An expression is evaluated alike wherever it stands

What an evaluation does depends on the text of the expression alone. There are two sides to that.

* **Text in front.** With any text put in front of it and the cursor moved along
  (`Cursor.behind`), evaluation goes through the same steps, also on a text that is no expression
  at all. The two runs are in lockstep: the same text lies ahead of both, and every position of one
  is that of the other plus the length of the text in front (`Run.Translated`).
* **Text behind.** After a success, what comes behind the expression can be replaced by any text
  with which its last token does not go on. What was read is a layout of an expression, and a
  layout is evaluated to what the expression means, whatever follows it.
-/

namespace SExprCalc

open Eval

/-! ### Text in front -/

namespace Cursor

variable {c : Cursor}

/-- The cursor at the same character of the text, with another text in front of it. -/
def behind (before : List Char) (c : Cursor) : Cursor where
  source := before ++ c.source
  pos := c.pos + before.length

theorem moved_behind (before : List Char) (c : Cursor) (n : Nat) :
    (c.behind before).moved n = (c.moved n).behind before := by
  simp only [moved, behind, mk.injEq, true_and]
  omega

theorem Inside.behind (h : c.Inside) (before : List Char) : (c.behind before).Inside := by
  obtain ⟨hfirst, hlast⟩ := h
  simp only [size] at hlast
  refine ⟨?_, ?_⟩
  · simp only [Cursor.behind]
    omega
  · simp only [Cursor.behind, size, List.length_append]
    omega

/-- The text in front is not ahead. -/
theorem rest_behind (h : c.Inside) (before : List Char) : (c.behind before).rest = c.rest := by
  have hindex : (c.pos + before.length).toNat = before.length + c.pos.toNat := by
    have := h.1
    omega
  rw [(h.behind before).rest_eq_drop, h.rest_eq_drop]
  simp only [Cursor.behind]
  rw [hindex, List.drop_append]
  simp

end Cursor

namespace Run

variable {before : List Char} {r s : Run}

/-- The output of a run is made of the lines it has printed. -/
theorem output_eq (h : s.printed = r.printed) : s.output = r.output := by
  change String.join (s.printed.map (· ++ "\n")) = String.join (r.printed.map (· ++ "\n"))
  rw [h]

/-- Entering an expression prints nothing. -/
theorem printed_deeper (run : Run) : run.deeper.printed = run.printed :=
  (run.printed_noted (.entered (run.depth + 1) run.cursor.pos)).trans (List.append_nil _)

/-- Two runs at the same character of a text, of which the second has another text in front. They
have the same depth and have printed the same. -/
structure Translated (before : List Char) (r s : Run) : Prop where
  /-- the first is within its text -/
  inside : r.Inside
  /-- the cursors differ by the text in front -/
  cursor : s.cursor = r.cursor.behind before
  /-- the depths are the same -/
  depth : s.depth = r.depth
  /-- the lines printed are the same -/
  printed : s.printed = r.printed

theorem Translated.inside_second (h : Translated before r s) : s.Inside := by
  rw [Inside, h.cursor]
  exact Cursor.Inside.behind h.inside before

/-- The two runs have the same text before them, and this is all that readers look at. -/
theorem Translated.unread (h : Translated before r s) : s.unread = r.unread := by
  rw [Run.unread, h.cursor]
  exact Cursor.rest_behind h.inside before

theorem Translated.moved (h : Translated before r s) {n : Nat} (hn : n ≤ r.unread.length) :
    Translated before (r.moved n) (s.moved n) where
  inside := h.inside.moved hn
  cursor := by rw [cursor_moved, cursor_moved, h.cursor, Cursor.moved_behind]
  depth := h.depth
  printed := h.printed

/-- Events may differ in their positions, as long as both or neither print a line. -/
theorem Translated.noted (h : Translated before r s) {event event' : Event}
    (hlines : lines [event'] = lines [event]) :
    Translated before (r.noted event) (s.noted event') where
  inside := h.inside.noted event
  cursor := h.cursor
  depth := h.depth
  printed := by rw [printed_noted, printed_noted, h.printed, hlines]

theorem Translated.deeper (h : Translated before r s) : Translated before r.deeper s.deeper where
  inside := h.inside
  cursor := h.cursor
  depth := congrArg (· + 1) h.depth
  printed := by rw [printed_deeper, printed_deeper, h.printed]

theorem Translated.shallower (h : Translated before r s) :
    Translated before r.shallower s.shallower where
  inside := h.inside
  cursor := h.cursor
  depth := congrArg (· - 1) h.depth
  printed := h.printed

end Run

/-- Evaluation in a text and in the same text with another one in front. -/
def translation (before : List Char) : Lockstep where
  runs := Run.Translated before
  scopes σ τ := σ = τ
  value _ := True
  fault _ := Run.Translated before
  gone _ _ _ := False
  inside h := ⟨h.inside, h.inside_second⟩
  unread h := h.unread
  moved h hn := h.moved hn
  dispatched h := h.noted rfl
  closed h := h.noted rfl
  printed h := h.noted rfl
  scopeOpened h _ := h.noted rfl
  child hσ := congrArg Scope.child hσ
  define hσ _ := by rw [hσ]
  find? _ hσ _ := by rw [hσ]
  found _ _ := trivial
  number _ := trivial
  boolean _ := trivial
  nil := trivial
  raised h _ := h
  gone_mono h _ := h

theorem nests_translation (before : List Char) (limit : Option Int) :
    (translation before).Nests limit where
  depth h := h.depth
  deeper h := h.deeper
  shallower h := h.shallower
  fault_shallower h := h.shallower
  tooDeep h := h.deeper
  exhausted h := h
  together h := h

theorem translated_of_ends {before : List Char} {out out' : Except Fault Value × Run}
    (h : (translation before).Ends (translation before).Same out out') :
    out'.1 = out.1 ∧ Run.Translated before out.2 out'.2 := by
  cases h with
  | ok h hr => exact ⟨congrArg Except.ok h.1.symm, hr⟩
  | error h => exact ⟨rfl, h⟩
  | gone h => exact h.elim

/-! ### Text behind -/

variable {limit : Option Int} {scope : Scope} {run run' : Run} {v : Value} {e : Expr}

/-- The run in a text that is the same up to some position and goes on differently from there. -/
def Run.goingOn (run : Run) (stop : Int) (after : List Char) : Run :=
  { run with cursor := { run.cursor with source := run.cursor.source.take stop.toNat ++ after } }

theorem Run.Past.size_goingOn {t : List Char} (h : run.Past run' t) (after : List Char) :
    ((run.goingOn run'.cursor.pos after).cursor.size : Int) =
      run'.cursor.pos + after.length := by
  have hfirst := h.inside.1
  have hsize : run'.cursor.pos ≤ run.cursor.source.length := h.source ▸ h.inside.2
  simp only [Run.goingOn, Cursor.size, List.length_append, List.length_take]
  omega

/-- A run stays within its text if the text is changed only behind the place where reading stops. -/
theorem Run.Past.inside_goingOn {t : List Char} (h : run.Past run' t) (hin : run.Inside)
    (after : List Char) : (run.goingOn run'.cursor.pos after).Inside := by
  have hpos := h.pos_eq hin
  refine ⟨hin.1, ?_⟩
  rw [h.size_goingOn after]
  change run.cursor.pos ≤ _
  omega

/-- Up to where reading stopped, the text ahead is the same. -/
theorem Run.Past.unread_goingOn {t : List Char} (h : run.Past run' t) (hin : run.Inside)
    (after : List Char) : (run.goingOn run'.cursor.pos after).unread = t ++ after := by
  have hpos := h.pos_eq hin
  have hsize : run'.cursor.pos ≤ run.cursor.source.length := h.source ▸ h.inside.2
  have hfirst := hin.1
  have hread : run.cursor.rest = t ++ run'.unread := h.unread
  rw [Cursor.Inside.rest_eq_drop hin] at hread
  -- the part of the text that is kept ends exactly where reading did
  have htaken : (run.cursor.source.take run'.cursor.pos.toNat).drop run.cursor.pos.toNat = t := by
    rw [List.drop_take, hread, show run'.cursor.pos.toNat - run.cursor.pos.toNat = t.length by
      omega, List.take_left]
  have hlength : run.cursor.pos.toNat ≤
      (run.cursor.source.take run'.cursor.pos.toNat).length := by
    rw [List.length_take]
    omega
  rw [Run.unread, Cursor.Inside.rest_eq_drop (h.inside_goingOn hin after)]
  change (run.cursor.source.take run'.cursor.pos.toNat ++ after).drop run.cursor.pos.toNat = _
  rw [List.drop_append_of_le_length hlength, htaken]

/-- A text that is a number or a name, after any spaces, does not go on into what follows it. -/
def TokenEnds (t after : List Char) : Prop :=
  (∀ (k : Nat) (n : Numeral), t = spaces k ++ n.text → StopsAt Char.isDigit after) ∧
    ∀ (k : Nat) (x : Identifier), t = spaces k ++ x.text → StopsAt Char.isAlphanum after

/-- Only numbers and names can go on, so that is all there is to ask of what follows. -/
theorem Written.endsBefore {t after : List Char} {k : Nat} (hw : Written e t)
    (h : TokenEnds (spaces k ++ t) after) : e.EndsBefore after := by
  cases hw with
  | number n => exact h.1 k n rfl
  | name x => exact h.2 k x rfl
  | form j inner _ => exact inner.starts.endsBefore after

/-- A success does not depend on the text behind the expression, as long as the last token still
ends where it did. -/
theorem expression_goingOn (hin : run.Inside)
    (h : Eval.expression limit scope run = (.ok v, run')) {after : List Char}
    (hends : TokenEnds (run.cursor.slice run.cursor.pos run'.cursor.pos) after) :
    ∃ run'', Eval.expression limit scope (run.goingOn run'.cursor.pos after) = (.ok v, run'') ∧
      run''.printed = run'.printed ∧ run''.depth = run'.depth ∧
      run''.cursor.pos = run'.cursor.pos := by
  obtain ⟨e, k, t, hw, hbefore, hroom, hpast⟩ := expressionWithin_accepts _ scope hin h
  rw [hpast.slice_eq hin] at hends
  have hlayout : Layout e (spaces k ++ t) := ⟨k, t, hw, rfl⟩
  have hin' := hpast.inside_goingOn hin after
  -- both texts start with one layout, so both evaluations give what its expression means
  have hfirst := hlayout.agrees scope hin hpast.unread hbefore hroom
  have hroom' : Room limit (run.goingOn run'.cursor.pos after) e := hroom
  have hsecond := hlayout.agrees scope hin' (hpast.unread_goingOn hin after)
    (hw.endsBefore hends) hroom'
  rw [h] at hfirst
  have hresult := hsecond.result.trans hfirst.result.symm
  obtain ⟨hinside, hunread⟩ := hsecond.stops v hresult
  refine ⟨(Eval.expression limit scope (run.goingOn run'.cursor.pos after)).2,
    Prod.ext hresult rfl, hsecond.printed.trans hfirst.printed.symm,
    hsecond.depth.trans hfirst.depth.symm, ?_⟩
  -- what is left to read tells the position
  have hlength := Cursor.Inside.length_rest hinside
  have hsize := hpast.size_goingOn after
  rw [show Cursor.rest _ = after from hunread, Cursor.size, hsecond.source] at hlength
  rw [Cursor.size] at hsize
  omega

/-! ### The theorem -/

/-- The evaluation of an expression depends only on its text, started anywhere in a text, in any
scope, at any depth and with any limit:

* with another text in front, it ends in the same result or the same fault, prints the same and
  leaves the same depth, and the cursor ends at the same character;
* if it succeeds, the text behind where it stopped can be replaced by any other one, with which a
  number or a name does not go on: it gives the same value, prints the same and stops at the same
  position. -/
theorem expression_local (hin : run.Inside) (limit : Option Int) (scope : Scope) :
    (∀ before : List Char, ∃ run',
      Eval.expression limit scope { run with cursor := run.cursor.behind before } =
        ((Eval.expression limit scope run).1, run') ∧
      run'.output = (Eval.expression limit scope run).2.output ∧
      run'.depth = (Eval.expression limit scope run).2.depth ∧
      run'.cursor.source = before ++ (Eval.expression limit scope run).2.cursor.source ∧
      run'.cursor.pos = (Eval.expression limit scope run).2.cursor.pos + before.length) ∧
    ∀ (v : Value) (run' : Run) (after : List Char),
      Eval.expression limit scope run = (.ok v, run') →
      TokenEnds (run.cursor.slice run.cursor.pos run'.cursor.pos) after →
      ∃ run'', Eval.expression limit scope (run.goingOn run'.cursor.pos after) = (.ok v, run'') ∧
        run''.output = run'.output ∧ run''.cursor.pos = run'.cursor.pos := by
  refine ⟨?_, ?_⟩
  · intro before
    have hstart : Run.Translated before run { run with cursor := run.cursor.behind before } :=
      ⟨hin, rfl, rfl, rfl⟩
    obtain ⟨hresult, htranslated⟩ := translated_of_ends
      ((nests_translation before limit).expression_ends (σ := scope) rfl hstart)
    refine ⟨(Eval.expression limit scope { run with cursor := run.cursor.behind before }).2,
      Prod.ext hresult rfl, Run.output_eq htranslated.printed, htranslated.depth, ?_, ?_⟩
    · rw [htranslated.cursor]
      rfl
    · rw [htranslated.cursor]
      rfl
  · intro v run' after h hends
    obtain ⟨run'', heq, hprinted, -, hpos⟩ := expression_goingOn hin h hends
    exact ⟨run'', heq, Run.output_eq hprinted, hpos⟩

/-- A cursor before a number. -/
def numberRun : Run := { cursor := .ofString " 42)" }

/-- The number is the same behind the head of a form, and with a point and a digit behind it. -/
theorem expression_local_number :
    (∃ run', Eval.expression (some 1) {}
        { numberRun with cursor := numberRun.cursor.behind "(add".toList } =
          (.ok (.number (.ofInt 42)), run') ∧ run'.cursor.pos = 7) ∧
      ∃ run'', Eval.expression (some 1) {} (numberRun.goingOn 3 ".5".toList) =
        (.ok (.number (.ofInt 42)), run'') ∧ run''.cursor.pos = 3 := by
  have hin : numberRun.Inside := Cursor.inside_ofString _
  have h : Eval.expression (some 1) {} numberRun =
      (.ok (.number (.ofInt 42)), (Eval.expression (some 1) {} numberRun).2) := by
    decide +kernel
  have hpos : (Eval.expression (some 1) {} numberRun).2.cursor.pos = 3 := by
    decide +kernel
  obtain ⟨hfront, hbehind⟩ := expression_local hin (some 1) {}
  refine ⟨?_, ?_⟩
  · obtain ⟨run', heq, -, -, -, hpos'⟩ := hfront "(add".toList
    rw [congrArg Prod.fst h] at heq
    rw [hpos] at hpos'
    exact ⟨run', heq, hpos'⟩
  · have hends : TokenEnds (numberRun.cursor.slice numberRun.cursor.pos
        (Eval.expression (some 1) {} numberRun).2.cursor.pos) ".5".toList :=
      ⟨fun _ _ _ => stopsAt_cons.mpr rfl, fun _ _ _ => stopsAt_cons.mpr rfl⟩
    obtain ⟨run'', heq, -, hpos'⟩ := hbehind _ _ _ h hends
    rw [hpos] at heq hpos'
    exact ⟨run'', heq, hpos'⟩

end SExprCalc
