import Mathlib.Control.Monad.Basic
import SExprCalc.Proofs.Levels

/-!
# Where a fault points

When evaluation ends in a fault, the cursor stays where the fault was raised: readers that fail do
not move it, and coming back through the levels does not touch it. So the cursor that is left splits
the text into a part that has been passed and a part that is unread, and every fault about the text
tells something about that place. `Fault.Points` says what: most messages show exactly the unread
text, and what stands next to the place is the reason for the fault.

A fault is raised for what lies ahead (`Raised`), so this is an invariant of a single run, and what
has to be shown is that each reason puts the fault at the right place (`points_of_raised`).
-/

namespace SExprCalc

open Eval

/-! ### The text that has been passed -/

namespace Run

/-- The text that the cursor has passed. -/
def passed (run : Run) : List Char := run.cursor.source.take run.cursor.pos.toNat

/-- Moving over some characters adds them to what has been passed. -/
theorem passed_moved {run : Run} (h : run.Inside) (n : Nat) :
    (run.moved n).passed = run.passed ++ run.unread.take n := by
  have hpos : (run.moved n).cursor.pos.toNat = run.cursor.pos.toNat + n := by
    have := h.1
    simp only [cursor_moved, Cursor.pos_moved]
    omega
  rw [passed, hpos, unread, Cursor.Inside.rest_eq_drop h, passed, ← List.take_add]
  rfl

end Run

/-! ### Places -/

/-- What a fault tells about the place at which it ends an evaluation, between the text that has
been passed and the text that is unread. Faults about values and about the evaluator's own bound
tell nothing about the text, and the others do not end an evaluation. -/
def Fault.Points (passed unread : List Char) (fault : Fault) : Prop :=
  match fault with
  | .tooDeep limit _ => fault.message =
      "expression nested deeper than " ++ toString limit ++ " levels: " ++ String.ofList unread
  | .notCallable _ =>
      fault.message = "expected the name of a callable: " ++ String.ofList unread ∧
      passed.getLast? = some '(' ∧ ∀ form : Form, ¬ form.head.toList <+: unread
  | .expectedToken _ _ => fault.message = "expected ')': " ++ String.ofList unread ∧
      unread.head? ≠ some ')' ∧ unread.head? ≠ some ' '
  | .expectedDigits _ => fault.message = "expected digits: " ++ String.ofList unread ∧
      ∃ more, unread = '-' :: more ∧ StopsAt Char.isDigit more
  | .literalOutOfRange _ => ∃ (n : Numeral) (after : List Char),
      fault.message = "numeric literal out of range: " ++ String.ofList n.text ∧
      unread = n.text ++ after ∧ StopsAt Char.isDigit after
  | .unexpectedChar c =>
      fault.message = "unexpected char " ++ String.ofList (Text.quoted [c]) ∧
      unread.head? = some c ∧ c ≠ ' ' ∧ c ≠ '(' ∧ c ≠ '-' ∧ c.isDigit = false ∧ c.isAlpha = false
  | .emptyExpression =>
      fault.message = "tried to evaluate an empty expression" ∧ unread = []
  | .unbound _ => ∃ x : Identifier, fault.message = "unbound reference: " ++ x.name ∧
      x.text <:+ passed ∧ StopsAt Char.isAlphanum unread
  | .tooFewOperands => fault.message = "not enough arguments for binary op" ∧
      (unread = [] ∨ unread.head? = some ')')
  | .comparisonArity => fault.message = "eq requires exactly 2 arguments: (eq a b)" ∧
      (unread = [] ∨ unread.head? = some ')')
  | .tooManyOperands => fault.message = "too many arguments for binary op" ∧
      ∃ c, unread.head? = some c ∧ c ≠ ')' ∧ c ≠ ' '
  | .notNumber _ _ | .kindsDiffer _ _ | .unknownValue _ | .stackExhausted _ => True
  | .expectedIdentifier _ | .badKey _ | .outOfText | .unaddressable => False

/-- Where a number should be but is none, there is a minus sign without a digit behind it. -/
theorem eq_minus_of_numeralLength_eq_zero {text : List Char} {c : Char}
    (hc : text.head? = some c) (hnumber : (c = '-' || c.isDigit) = true)
    (hlength : Cursor.numeralLength text = 0) :
    ∃ more, text = '-' :: more ∧ StopsAt Char.isDigit more := by
  obtain ⟨more, rfl⟩ := List.head?_eq_some_iff.mp hc
  -- a digit alone would be a number already
  have hminus : c = '-' := by
    rcases (Bool.or_eq_true _ _).mp hnumber with hminus | hdigit
    · exact of_decide_eq_true hminus
    · rw [Cursor.numeralLength, split_of_isDigit hdigit] at hlength
      simp [hdigit] at hlength
  subst hminus
  have hdigits : more.takeWhile Char.isDigit = [] := by
    change (if more.takeWhile Char.isDigit = [] then 0 else 1 + _) = 0 at hlength
    split at hlength
    · assumption
    · omega
  have hstop := stopsAt_drop_takeWhile Char.isDigit more
  rw [hdigits] at hstop
  exact ⟨more, rfl, hstop⟩

/-- Where no operand lies ahead, the text ends or a form is closed. -/
theorem nil_or_close_of_not_any {text : List Char} (h : ¬ text.head?.any (· != ')') = true) :
    text = [] ∨ text.head? = some ')' := by
  cases text with
  | nil => exact .inl rfl
  | cons c more => exact .inr (by simpa using h)

/-- A missing closing parenthesis is shown in apostrophes. -/
theorem message_expectedClose (rest : String) :
    (Fault.expectedToken ")" rest).message = "expected ')': " ++ rest := by
  have hquoted : "expected " ++ String.ofList (Text.quoted ")".toList) ++ ": " =
      "expected ')': " := by
    decide +kernel
  change "expected " ++ String.ofList (Text.quoted ")".toList) ++ ": " ++ rest = _
  rw [hquoted]

/-- A fault that is raised at a run points at the place of its cursor. -/
theorem points_of_raised {value : Value → Prop} {fault : Fault} {run : Run}
    (h : Raised value fault run) : fault.Points run.passed run.unread := by
  cases h with
  | emptyExpression h => exact ⟨rfl, List.head?_eq_none_iff.mp h⟩
  | @notCallable run hin hopen h =>
    refine ⟨rfl, ?_, h⟩
    obtain ⟨more, hmore⟩ := List.head?_eq_some_iff.mp hopen
    rw [Run.passed_moved hin, hmore]
    exact List.getLast?_concat
  | @unexpectedChar run c h hspace hopen hnumber hname =>
    have hneither : ¬ c = '-' ∧ c.isDigit = false := by simpa using hnumber
    exact ⟨rfl, h, hspace, hopen, hneither.1, hneither.2, by simpa using hname⟩
  | expectedClose hspace h => exact ⟨message_expectedClose _, h, hspace⟩
  | expectedDigits h hnumber hlength =>
    exact ⟨rfl, eq_minus_of_numeralLength_eq_zero h hnumber hlength⟩
  | literalOutOfRange h hstop _ => exact ⟨_, _, rfl, h, hstop⟩
  | tooFewOperands h => exact ⟨rfl, nil_or_close_of_not_any h⟩
  | comparisonArity h => exact ⟨rfl, nil_or_close_of_not_any h⟩
  | tooManyOperands hspace h =>
    obtain ⟨c, hc, hclose⟩ := (Option.any_eq_true _ _).mp h
    refine ⟨rfl, c, hc, by simpa using hclose, ?_⟩
    rintro rfl
    exact hspace hc
  | @unbound run x after hin h hstop =>
    refine ⟨x, rfl, ?_, ?_⟩
    · rw [Run.passed_moved hin, h, List.take_left]
      exact List.suffix_append _ _
    · rw [Run.unread_moved_of_append hin h]
      exact hstop
  | refused h =>
    obtain ⟨form, kind, rfl⟩ | ⟨left, right, rfl⟩ | ⟨x, -, rfl⟩ := h.mistyped_or_foreign <;> trivial

/-! ### The invariant -/

/-- In one text, every fault points at the place where evaluation ends. -/
def pointing (source : List Char) : Invariant where
  run r := r.Inside ∧ r.cursor.source = source
  scope _ := True
  value _ := True
  fault f r := (r.Inside ∧ r.cursor.source = source) ∧ f.Points r.passed r.unread
  inside h := h.1
  moved h hn := ⟨h.1.moved hn, h.2⟩
  noted h _ := ⟨h.1.noted _, h.2⟩
  child _ := trivial
  define _ _ := trivial
  found _ _ := trivial
  number _ := trivial
  boolean _ := trivial
  nil := trivial
  raised hr h := ⟨hr, points_of_raised h⟩

/-- The levels of an expression do not move the cursor, so faults come through them unchanged. -/
theorem nests_pointing (source : List Char) (limit : Option Int) :
    (pointing source).lockstep.Nests limit where
  depth := by
    rintro r _ ⟨rfl, -⟩
    rfl
  deeper := by
    rintro r _ ⟨rfl, hr⟩
    exact ⟨rfl, hr⟩
  shallower := by
    rintro r _ ⟨rfl, hr⟩
    exact ⟨rfl, hr⟩
  fault_shallower := by
    rintro f r _ ⟨rfl, hf⟩
    exact ⟨rfl, hf⟩
  tooDeep := by
    rintro r _ d ⟨rfl, hr⟩
    exact ⟨rfl, hr, rfl⟩
  exhausted := by
    rintro r _ ⟨rfl, hr⟩
    exact ⟨rfl, hr, trivial⟩
  together h := h

/-! ### The theorem -/

variable {run run' : Run} {fault : Fault} {limit : Option Int} {scope : Scope}

/-- When the evaluation of an expression ends in a fault, started anywhere in a text, in any scope
and with any limit, the text is the same, the cursor is left within it, and the fault points at the
place where the cursor is. -/
theorem points_of_expression_eq_error (hin : run.Inside)
    (h : Eval.expression limit scope run = (.error fault, run')) :
    run'.cursor.source = run.cursor.source ∧
      0 ≤ run'.cursor.pos ∧ run'.cursor.pos ≤ run.cursor.source.length ∧
      fault.Points (run.cursor.source.take run'.cursor.pos.toNat)
        (run.cursor.source.drop run'.cursor.pos.toNat) := by
  have hends := (nests_pointing run.cursor.source limit).expression_ends (σ := scope)
    ⟨rfl, trivial⟩ ⟨rfl, hin, rfl⟩
  rw [h] at hends
  cases hends with
  | error h =>
    obtain ⟨-, ⟨hin', hsource⟩, hpoints⟩ := h
    rw [Run.passed, Run.unread, Cursor.Inside.rest_eq_drop hin', hsource] at hpoints
    exact ⟨hsource, hin'.1, hsource ▸ hin'.2, hpoints⟩
  | gone h => exact h.elim

/-- A cursor before a comparison, in whose second operand a minus sign has no digits. -/
def minusRun : Run := { cursor := { source := "1(eq(print 2)(add 3 -x))".toList, pos := 1 } }

/-- The fault shows the text from the minus sign on, and that is where the cursor is left. -/
theorem points_of_expression_eq_error_minus :
    ∃ run', Eval.expression (some 3) {} minusRun = (.error (.expectedDigits "-x))"), run') ∧
      run'.cursor.pos = 20 ∧
      (Fault.expectedDigits "-x))").message =
        "expected digits: " ++ String.ofList (minusRun.cursor.source.drop 20) ∧
      ∃ more, minusRun.cursor.source.drop 20 = '-' :: more ∧ StopsAt Char.isDigit more := by
  have hin : minusRun.Inside := ⟨by decide, by decide⟩
  have h : Eval.expression (some 3) {} minusRun =
      (.error (.expectedDigits "-x))"), (Eval.expression (some 3) {} minusRun).2) := by
    decide +kernel
  have hpos : (Eval.expression (some 3) {} minusRun).2.cursor.pos = 20 := by
    decide +kernel
  obtain ⟨-, -, -, hmessage, hminus⟩ := points_of_expression_eq_error hin h
  rw [hpos] at hmessage hminus
  exact ⟨_, h, hpos, hmessage, hminus⟩

end SExprCalc
