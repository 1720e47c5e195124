import SExprCalc.Proofs.Acceptance
import SExprCalc.Proofs.Comparison
import SExprCalc.Proofs.FaultPlace
import SExprCalc.Proofs.NameResolution

/-!
# Forms with a fixed number of operands

Nobody counts the operands of a form before evaluating them. A quotient looks twice whether an
operand lies ahead and once more whether a third one does. A comparison looks twice and leaves the
rest to the end of the form, and printing does not look at all. So a wrong number of operands ends
differently in each of the three, and what has been evaluated, compared and printed by then differs
too.

An operand (`Operand`) stands in a text after some spaces, and evaluated on its own it has a value
and prints some lines. A form around operands stands somewhere in a text (`Place`), and what becomes
of it is told from the operands alone. Each way to end is first shown for the operands inside the
form (`agrees_quotient_one` and the like), beside the ways to end well that are known already; then
comes the end of the form, which may be missing (`agrees_unclosed`).
-/

namespace SExprCalc

open Eval

variable {limit : Option Int} {scope : Scope} {run : Run} {depth : Int}

/-! ### Outcomes -/

/-- Evaluating the expression ahead gives a value and prints some lines. -/
def Succeeds (limit : Option Int) (scope : Scope) (run : Run) (v : Value) (lines : List String) :
    Prop :=
  ∃ run', Eval.expression limit scope run = (.ok v, run') ∧ run'.printed = run.printed ++ lines

/-- Evaluating the expression ahead prints some lines and ends in a fault of a family, with a
message. -/
def Fails (limit : Option Int) (scope : Scope) (run : Run) (family : Fault.Family)
    (message : String) (lines : List String) : Prop :=
  ∃ fault run', Eval.expression limit scope run = (.error fault, run') ∧ fault.family = family ∧
    fault.message = message ∧ run'.printed = run.printed ++ lines

theorem Agrees.succeeds {v : Value} {lines : List String} {stop : List Char → Prop}
    (h : Agrees run (Eval.expression limit scope run) ⟨.ok v, lines⟩ stop) :
    Succeeds limit scope run v lines :=
  ⟨_, Prod.ext h.result rfl, h.printed⟩

theorem Agrees.fails {fault : Fault} {lines : List String} {stop : List Char → Prop}
    (h : Agrees run (Eval.expression limit scope run) ⟨.error fault, lines⟩ stop) :
    Fails limit scope run fault.family fault.message lines :=
  ⟨fault, _, Prod.ext h.result rfl, rfl, rfl, h.printed⟩

/-- A fault stops at no particular text. -/
theorem Agrees.fail {α : Type} (fault : Fault) (stop : List Char → Prop) :
    Agrees run ((Eval.fail fault : Eval α) run) (.ofExcept (.error fault)) stop :=
  ⟨rfl, (List.append_nil _).symm, rfl, rfl, fun _ h => by cases h⟩

/-- What comes after a fault does not matter. -/
theorem Agrees.bind_error {α β : Type} {x : Eval α} {f : α → Eval β} {fault : Fault}
    {stop : List Char → Prop}
    (hx : Agrees run (x run) (.ofExcept (.error fault)) fun _ => False) :
    Agrees run ((x >>= f) run) (.ofExcept (.error fault)) stop :=
  hx.bind (k := fun _ => .ofExcept (.error fault)) fun _ _ _ h _ => h.elim

/-! ### Operands -/

/-- An operand as it stands in a text, and what comes of it. -/
structure Operand where
  /-- how many spaces stand before it -/
  gap : Nat
  /-- the expression -/
  expr : Expr
  /-- its text, from its first token on -/
  text : List Char
  /-- the text is one of the expression -/
  written : Written expr text
  /-- its value -/
  value : Value
  /-- the value is one of the language -/
  legal : value.Legal
  /-- the lines that it prints -/
  lines : List String

namespace Operand

variable {o : Operand}

/-- A run at the start of the operand's own text. -/
def alone (o : Operand) (depth : Int) : Run := { cursor := { source := o.text }, depth }

theorem inside_alone (o : Operand) (depth : Int) : (o.alone depth).Inside :=
  ⟨Int.le_refl 0, Int.natCast_nonneg _⟩

/-- Evaluated on its own, at a depth, the operand has its value and prints its lines. -/
def Gives (limit : Option Int) (scope : Scope) (depth : Int) (o : Operand) : Prop :=
  Succeeds limit scope (o.alone depth) o.value o.lines

/-- What comes of the operand, as a meaning. -/
def meaning (o : Operand) : Meaning Value := ⟨.ok o.value, o.lines⟩

theorem number_meaning {x : Binary64} (h : o.value = .number x) (form : Form) :
    o.meaning.number form = ⟨.ok x, o.lines⟩ := by
  simp [meaning, Meaning.number, Meaning.ofExcept, Value.expectNumber, h]

/-- An operand that has a value is the expression that evaluation has read, and there was room for
it: a text belongs to one expression only. -/
theorem Gives.means (h : o.Gives limit scope depth) :
    o.expr.meaning scope = o.meaning ∧ ∀ d ∈ limit, depth + o.expr.height ≤ d := by
  obtain ⟨run', heq, hprinted⟩ := h
  have hin := o.inside_alone depth
  obtain ⟨e, k, t, hw, hends, hroom, hpast⟩ := expressionWithin_accepts _ scope hin heq
  have htext : spaces 0 ++ (o.text ++ []) = spaces k ++ (t ++ run'.unread) := by
    rw [List.append_nil, ← List.append_assoc (spaces k)]
    exact hpast.unread
  obtain ⟨rfl, -⟩ := o.written.unique hw (o.written.spaces_inj hw htext) o.expr.endsBefore_nil
    hends
  have hlayout : Layout o.expr (spaces k ++ t) := ⟨k, t, hw, rfl⟩
  have hagrees := hlayout.agrees scope hin hpast.unread hends hroom
  rw [heq] at hagrees
  have hresult : .ok o.value = (o.expr.meaning scope).result := hagrees.result
  have hlines : o.lines = (o.expr.meaning scope).lines := hprinted.symm.trans hagrees.printed
  refine ⟨?_, hroom⟩
  rw [meaning, hresult, hlines]

/-- In a scope of its own inside the given one, the operand gives the same. -/
theorem Gives.child (h : o.Gives limit scope depth) : o.Gives limit scope.child depth := by
  obtain ⟨run', heq, hprinted⟩ := h
  have hrelated := related_of_agreeOn limit ((o.alone depth).cursor.remaining + 1)
    (Scope.agreeOn_child o.text scope) (agreement_runs_self (o.inside_alone depth))
  rcases hout : Eval.expression limit scope.child (o.alone depth) with ⟨result, run''⟩
  rw [show expressionWithin limit _ scope.child _ = _ from hout,
    show expressionWithin limit _ scope _ = _ from heq] at hrelated
  cases hrelated with
  | ok h hr => exact ⟨run'', hout.trans (by rw [h.1]), hr.1.printed.symm.trans hprinted⟩
  | gone h => exact h.elim

end Operand

/-! ### Operands that are missing or too many -/

section

variable {operand : Scope → Eval Value} {sem : Expr → Scope → Meaning Value} {a b c : Expr}
  {t u mid after more : List Char} {j k : Nat} {stop : List Char → Prop}

/-- Where the end of the form lies ahead, an operand is missing. -/
theorem agrees_missing (missing : Fault) (hin : run.Inside)
    (hu : run.unread = spaces j ++ ')' :: after) :
    Agrees run (Form.required missing (operand scope) run) (.ofExcept (.error missing)) stop := by
  have hclose := unread_skipped_of_ne hin (by decide) hu
  rw [Form.required, bind_of_ok (operandAhead_apply hin), hclose]
  exact .of_silent run.silent_skipped (.fail missing stop)

theorem agrees_quotient_none (hin : run.Inside) (hu : run.unread = spaces j ++ ')' :: after) :
    Agrees run (Form.quotient (operand scope) run) (.ofExcept (.error .tooFewOperands))
      fun _ => False := by
  rw [Form.quotient]
  exact .bind_error (.bind_error (agrees_missing .tooFewOperands hin hu))

/-- A division with one operand evaluates it before it misses the other, so that what the operand
prints is printed, and a fault of the operand comes first. -/
theorem agrees_quotient_one (ha : Next operand sem depth a run.unread (spaces j ++ ')' :: after))
    (hin : run.Inside) (hdepth : run.depth = depth) :
    Agrees run (Form.quotient (operand scope) run)
      (do
        let _ ← (sem a scope).number .div
        .ofExcept (.error .tooFewOperands)) fun _ => False := by
  rw [Form.quotient]
  refine .bind ((ha.required _ hin hdepth).number .div) ?_
  rintro x run₁ hin₁ hu₁ -
  exact .bind_error (.bind_error (agrees_missing .tooFewOperands hin₁ hu₁))

/-- A third operand of a division is not evaluated, but seen: whatever would come of it, there is
one too many. -/
theorem agrees_quotient_more (ha : Next operand sem depth a run.unread mid)
    (hb : Next operand sem depth b mid (spaces k ++ (u ++ more))) (hc : Written c u)
    (hin : run.Inside) (hdepth : run.depth = depth) :
    Agrees run (Form.quotient (operand scope) run)
      (do
        let _ ← (sem a scope).number .div
        let _ ← (sem b scope).number .div
        .ofExcept (.error .tooManyOperands)) fun _ => False := by
  rw [Form.quotient]
  refine .bind ((ha.required _ hin hdepth).number .div) ?_
  rintro x run₁ hin₁ rfl hd₁
  refine .bind ((hb.required _ hin₁ (hd₁.trans hdepth)).number .div) ?_
  rintro y run₂ hin₂ hu₂ -
  rw [bind_of_ok (hc.operandAhead hin₂ hu₂)]
  exact .of_silent run₂.silent_skipped (.fail _ _)

theorem agrees_comparison_none (hin : run.Inside) (hu : run.unread = spaces j ++ ')' :: after) :
    Agrees run (Form.comparison (operand scope) run) (.ofExcept (.error .comparisonArity))
      fun _ => False := by
  rw [Form.comparison]
  exact .bind_error (agrees_missing .comparisonArity hin hu)

/-- A comparison with one operand evaluates it, whatever its kind, before it misses the other. -/
theorem agrees_comparison_one
    (ha : Next operand sem depth a run.unread (spaces j ++ ')' :: after)) (hin : run.Inside)
    (hdepth : run.depth = depth) :
    Agrees run (Form.comparison (operand scope) run)
      (do
        let _ ← sem a scope
        .ofExcept (.error .comparisonArity)) fun _ => False := by
  rw [Form.comparison]
  refine .bind (ha.required _ hin hdepth) ?_
  rintro v run₁ hin₁ hu₁ -
  exact .bind_error (agrees_missing .comparisonArity hin₁ hu₁)

/-- Printing does not look for its operand, so evaluation meets the end of the form itself. -/
theorem agrees_display_none (hin : run.Inside) (hu : run.unread = spaces j ++ ')' :: after)
    (hroom : ∀ d ∈ limit, run.depth + 1 ≤ d) (n : Nat) :
    Agrees run (Form.display (expressionWithin limit (n + 1) scope) run)
      (.ofExcept (.error (.unexpectedChar ')'))) fun _ => False := by
  rw [Form.display]
  refine .bind_error ?_
  rw [expressionWithin]
  refine agrees_nested hroom ?_
  have hin' : run.deeper.Inside := hin
  have hclose : run.deeper.skipped.unread = ')' :: after :=
    unread_skipped_of_ne hin' (by decide) hu
  rw [expressionAhead_apply hin', hclose]
  exact .of_silent run.deeper.silent_skipped (.fail _ _)

/-- If an expression lies ahead where a form should end, the form is not closed. -/
theorem agrees_unclosed (f : Form) (v : Value) (hin : run.Inside)
    (hu : run.unread = spaces k ++ (u ++ more)) (hc : Written c u) :
    Agrees run (f.close v run)
      (.ofExcept (.error (.expectedToken ")" (String.ofList (u ++ more))))) stop := by
  have hnext := hc.unread_skipped hin hu
  have hopen : run.skipped.unread.head? ≠ some ')' := by
    obtain ⟨x, others, rfl, hx⟩ := hc.exists_first
    rw [hnext]
    simpa using hx.ne_close
  rw [Form.close_apply hin, if_neg hopen, Cursor.restText,
    show run.skipped.cursor.rest = u ++ more from hnext]
  exact .of_silent run.silent_skipped (.fail _ _)

end

/-! ### Forms around operands -/

/-- Where a form around operands stands: between two texts, with some spaces before its closing
parenthesis, at a depth and after a history. -/
structure Place where
  /-- the text before the form -/
  before : List Char
  /-- how many spaces stand before the closing parenthesis -/
  gap : Nat
  /-- the text after the form -/
  after : List Char
  /-- the depth -/
  depth : Int
  /-- what has happened, the latest first -/
  history : List Event

namespace Place

variable {o : Operand} {os : List Operand}

/-- The text from some of the operands on: these operands, the end of the form, and what follows. -/
def rest (p : Place) : List Operand → List Char
  | [] => spaces p.gap ++ ')' :: p.after
  | o :: os => spaces o.gap ++ (o.text ++ p.rest os)

/-- The run before a form around operands. -/
def start (p : Place) (form : Form) (os : List Operand) : Run where
  cursor :=
    { source := p.before ++ '(' :: (form.head.toList ++ p.rest os), pos := p.before.length }
  depth := p.depth
  history := p.history

theorem inside_start (p : Place) (form : Form) (os : List Operand) : (p.start form os).Inside :=
  ⟨Int.natCast_nonneg _, by simp only [start, Cursor.size, List.length_append]; omega⟩

theorem unread_start (p : Place) (form : Form) (os : List Operand) :
    (p.start form os).unread = '(' :: (form.head.toList ++ p.rest os) := by
  rw [Run.unread, Cursor.Inside.rest_eq_drop (p.inside_start form os)]
  exact List.drop_left

theorem length_text_le (p : Place) (h : o ∈ os) : o.text.length ≤ (p.rest os).length := by
  induction os with
  | nil => cases h
  | cons o' os ih =>
    simp only [rest, List.length_append]
    rcases List.mem_cons.mp h with rfl | h
    · omega
    · have := ih h
      omega

/-- No operand goes on into the next one, before which there is a space, or into the end of the
form. -/
theorem endsBefore_rest (p : Place) (e : Expr) (hgap : ∀ o ∈ os, 0 < o.gap) :
    e.EndsBefore (p.rest os) := by
  cases os with
  | nil => exact e.endsBefore_close _ _
  | cons o os =>
    obtain ⟨k, hk⟩ := Nat.exists_eq_succ_of_ne_zero (Nat.pos_iff_ne_zero.mp (hgap o (by simp)))
    rw [rest, hk]
    exact e.endsBefore_space _

/-- An operand that gives a value is read where it stands. -/
theorem next (p : Place) {n : Nat} (h : o.Gives limit scope depth) (hn : o.text.length ≤ n)
    (hgap : ∀ o ∈ os, 0 < o.gap) :
    Next (expressionWithin limit n) Expr.meaning depth o.expr (p.rest (o :: os)) (p.rest os) := by
  have hheight := o.written.height_le
  exact ⟨o.gap, o.text, rfl, o.written, p.endsBefore_rest o.expr hgap,
    o.written.reads (by omega) h.means.2⟩

/-- Inside the form, one level deeper, evaluating the operands agrees with a meaning. -/
def Comes (p : Place) (limit : Option Int) (scope : Scope) (form : Form) (os : List Operand)
    (m : Meaning Value) (stop : List Char → Prop) : Prop :=
  ∀ (n : Nat) (run : Run), run.Inside → run.depth = p.depth + 1 →
    (∀ o ∈ os, o.text.length ≤ n) → 0 < n → run.unread = p.rest os →
    Agrees run (form.eval (expressionWithin limit n) scope run) m stop

variable {p : Place} {form : Form} {stop : List Char → Prop}

/-- What becomes of a form is what becomes of its operands, and then of its end. -/
theorem Comes.agrees {m : Meaning Value} {k : Value → Meaning Value} {stop' : List Char → Prop}
    (h : p.Comes limit scope form os m stop) (hlimit : ∀ d ∈ limit, p.depth + 1 ≤ d)
    (hclose : ∀ v run, run.Inside → stop run.unread → Agrees run (form.close v run) (k v) stop') :
    Agrees (p.start form os) (Eval.expression limit scope (p.start form os)) (m >>= k) stop' := by
  have hin := p.inside_start form os
  have hunread := p.unread_start form os
  -- all levels of the text are enough for each of its operands
  have hlength : (p.start form os).cursor.remaining =
      1 + (form.head.toList.length + (p.rest os).length) := by
    rw [Cursor.Inside.remaining_eq hin, show Cursor.rest _ = _ from hunread]
    simp only [List.length_cons, List.length_append]
    omega
  have hdeeper : (p.start form os).deeper.skipped.unread =
      '(' :: (form.head.toList ++ p.rest os) :=
    unread_skipped_of_ne hin (k := 0) (by decide) hunread
  refine agrees_nested hlimit (agrees_opened hin hdeeper ?_ hclose)
  intro run hrun hdepth hrest
  refine h _ run hrun hdepth ?_ (by omega) hrest
  intro o ho
  have := p.length_text_le ho
  omega

/-- Operands that end in a fault end the form in it. -/
theorem Comes.fails {fault : Fault} {lines : List String}
    (h : p.Comes limit scope form os ⟨.error fault, lines⟩ stop)
    (hlimit : ∀ d ∈ limit, p.depth + 1 ≤ d) :
    Fails limit scope (p.start form os) fault.family fault.message lines := by
  have hcomes : p.Comes limit scope form os ⟨.error fault, lines⟩ fun _ => False := by
    intro n run hin hdepth hn hpos hu
    have hagrees := h n run hin hdepth hn hpos hu
    exact { hagrees with stops := fun _ h => by rw [hagrees.result] at h; cases h }
  have hagrees : Agrees (p.start form os) (Eval.expression limit scope (p.start form os))
      ⟨.error fault, lines⟩ fun _ => False :=
    hcomes.agrees (k := pure) hlimit fun _ _ _ h => h.elim
  exact hagrees.fails

/-- Operands that give a value and leave the end of the form give the form that value. -/
theorem Comes.succeeds {v : Value} {lines : List String}
    (h : p.Comes limit scope form os ⟨.ok v, lines⟩ stop)
    (hstop : ∀ rest, stop rest → ∃ i, rest = spaces i ++ ')' :: p.after)
    (hlimit : ∀ d ∈ limit, p.depth + 1 ≤ d) :
    Succeeds limit scope (p.start form os) v lines := by
  have hagrees := h.agrees hlimit (k := pure) fun v run hin hrest =>
    agrees_close form v hin (hstop _ hrest).choose_spec
  rw [Meaning.bind_pure] at hagrees
  exact hagrees.succeeds

/-- Operands that give a value and leave another operand end the form in a fault that shows the text
from that operand on. -/
theorem Comes.fails_unclosed {v : Value} {lines : List String} {c : Operand}
    {more : List Operand}
    (h : p.Comes limit scope form os ⟨.ok v, lines⟩ (· = p.rest (c :: more)))
    (hlimit : ∀ d ∈ limit, p.depth + 1 ≤ d) :
    Fails limit scope (p.start form os) .malformed
      ("expected ')': " ++ String.ofList (c.text ++ p.rest more)) lines := by
  have hagrees : Agrees (p.start form os) (Eval.expression limit scope (p.start form os))
      ⟨.error (.expectedToken ")" (String.ofList (c.text ++ p.rest more))), lines ++ []⟩
      fun _ => False :=
    h.agrees hlimit fun v run hin hu => agrees_unclosed form v hin hu c.written
  have hfails := hagrees.fails
  rwa [message_expectedClose, List.append_nil] at hfails

/-! ### What operands come to -/

variable {a b c : Operand} {more : List Operand} {x y : Binary64}

/-- The first of some operands is read where the form's operands start. -/
theorem next_of_unread {n : Nat} {run : Run} (ha : a.Gives limit scope (p.depth + 1))
    (hn : ∀ o ∈ a :: more, o.text.length ≤ n) (hgap : ∀ o ∈ more, 0 < o.gap)
    (hu : run.unread = p.rest (a :: more)) :
    Next (expressionWithin limit n) Expr.meaning (p.depth + 1) a.expr run.unread
      (p.rest more) := by
  rw [hu]
  exact p.next ha (hn a (List.mem_cons_self ..)) hgap

theorem comes_quotient_none :
    p.Comes limit scope .div [] ⟨.error .tooFewOperands, []⟩
      fun _ => False := by
  intro n run hin _ _ _ hu
  exact agrees_quotient_none hin hu

theorem comes_quotient_one (ha : a.Gives limit scope (p.depth + 1)) (hx : a.value = .number x) :
    p.Comes limit scope .div [a] ⟨.error .tooFewOperands, a.lines⟩
      fun _ => False := by
  intro n run hin hdepth hn _ hu
  have hagrees : Agrees run (Form.div.eval (expressionWithin limit n) scope run) _ _ :=
    agrees_quotient_one (next_of_unread ha hn (by simp) hu) hin hdepth
  simpa [ha.means.1, Operand.number_meaning hx, Meaning.ofExcept] using hagrees

theorem comes_quotient_two (ha : a.Gives limit scope (p.depth + 1))
    (hb : b.Gives limit scope (p.depth + 1)) (hgap : 0 < b.gap) (hx : a.value = .number x)
    (hy : b.value = .number y) :
    p.Comes limit scope .div [a, b] ⟨.ok (.number (x.div y)), a.lines ++ b.lines⟩
      (· = ')' :: p.after) := by
  intro n run hin hdepth hn _ hu
  have hagrees : Agrees run (Form.div.eval (expressionWithin limit n) scope run) _ _ :=
    agrees_quotient (next_of_unread ha hn (by simpa using hgap) hu)
      (p.next hb (hn b (by simp)) (by simp)) hin hdepth
  simpa [Expr.meaningBy, ha.means.1, hb.means.1, Operand.number_meaning hx,
    Operand.number_meaning hy] using hagrees

/-- A division with a third operand fails before it is evaluated: only the first two print anything.
-/
theorem comes_quotient_more (ha : a.Gives limit scope (p.depth + 1))
    (hb : b.Gives limit scope (p.depth + 1)) (hgap : ∀ o ∈ b :: c :: more, 0 < o.gap)
    (hx : a.value = .number x) (hy : b.value = .number y) :
    p.Comes limit scope .div (a :: b :: c :: more) ⟨.error .tooManyOperands, a.lines ++ b.lines⟩
      fun _ => False := by
  intro n run hin hdepth hn _ hu
  have hb' := p.next hb (hn b (by simp)) (List.forall_mem_cons.mp hgap).2
  have hagrees : Agrees run (Form.div.eval (expressionWithin limit n) scope run) _ _ :=
    agrees_quotient_more (next_of_unread ha hn hgap hu) hb' c.written hin hdepth
  simpa [ha.means.1, hb.means.1, Operand.number_meaning hx, Operand.number_meaning hy,
    Meaning.ofExcept] using hagrees

theorem comes_comparison_none :
    p.Comes limit scope .eq [] ⟨.error .comparisonArity, []⟩
      fun _ => False := by
  intro n run hin _ _ _ hu
  exact agrees_comparison_none hin hu

theorem comes_comparison_one (ha : a.Gives limit scope (p.depth + 1)) :
    p.Comes limit scope .eq [a] ⟨.error .comparisonArity, a.lines⟩
      fun _ => False := by
  intro n run hin hdepth hn _ hu
  have hagrees : Agrees run (Form.eq.eval (expressionWithin limit n) scope run) _ _ :=
    agrees_comparison_one (next_of_unread ha hn (by simp) hu) hin hdepth
  simpa [ha.child.means.1, Operand.meaning, Meaning.ofExcept] using hagrees

/-- Two operands are compared before anyone looks at what comes after them. -/
theorem comes_comparison (ha : a.Gives limit scope (p.depth + 1))
    (hb : b.Gives limit scope (p.depth + 1)) (hgap : ∀ o ∈ b :: more, 0 < o.gap) :
    p.Comes limit scope .eq (a :: b :: more)
      ⟨(a.value.compare b.value).map .boolean, a.lines ++ b.lines⟩ (· = p.rest more) := by
  intro n run hin hdepth hn _ hu
  have hb' := p.next hb (hn b (by simp)) (List.forall_mem_cons.mp hgap).2
  have hagrees : Agrees run (Form.eq.eval (expressionWithin limit n) scope run) _ _ :=
    agrees_comparison (next_of_unread ha hn hgap hu) hb' hin hdepth
  rw [Expr.meaningBy, ha.child.means.1, hb.child.means.1] at hagrees
  cases hcompare : a.value.compare b.value <;>
    simpa [Operand.meaning, Meaning.ofExcept, hcompare, Except.map] using hagrees

theorem comes_display_none (hlimit : ∀ d ∈ limit, p.depth + 2 ≤ d) :
    p.Comes limit scope .print [] ⟨.error (.unexpectedChar ')'), []⟩
      fun _ => False := by
  intro n run hin hdepth _ hpos hu
  obtain ⟨n, rfl⟩ := Nat.exists_eq_succ_of_ne_zero (Nat.pos_iff_ne_zero.mp hpos)
  refine agrees_display_none hin hu ?_ n
  intro d hd
  have := hlimit d hd
  omega

/-- One operand is printed before anyone looks at what comes after it. -/
theorem comes_display {line : String} (ha : a.Gives limit scope (p.depth + 1))
    (hgap : ∀ o ∈ more, 0 < o.gap) (hline : a.value.format = .ok line) :
    p.Comes limit scope .print (a :: more) ⟨.ok .nil, a.lines ++ [line]⟩ (· = p.rest more) := by
  intro n run hin hdepth hn _ hu
  have hagrees : Agrees run (Form.print.eval (expressionWithin limit n) scope run) _ _ :=
    agrees_display (next_of_unread ha hn hgap hu) hin hdepth
  simpa [Expr.meaningBy, ha.means.1, Operand.meaning, Meaning.ofExcept, Meaning.say, hline]
    using hagrees

end Place

/-! ### The theorem -/

namespace Place

variable {p : Place} {os : List Operand}

/-- How many operands make a quotient: fewer than two are too few, two numbers are divided, and of
three or more only the first two are evaluated. -/
theorem quotient_arity (hgap : ∀ o ∈ os.tail, 0 < o.gap)
    (hgives : ∀ o ∈ os.take 2, o.Gives limit scope (p.depth + 1))
    (hlimit : ∀ d ∈ limit, p.depth + 1 ≤ d) {xs : List Binary64}
    (hxs : os.map Operand.value = xs.map .number) :
    (os.length < 2 → Fails limit scope (p.start .div os) .arity
        "not enough arguments for binary op" (os.flatMap Operand.lines)) ∧
      (∀ x y, xs = [x, y] → Succeeds limit scope (p.start .div os) (.number (x.div y))
        (os.flatMap Operand.lines)) ∧
      (3 ≤ os.length → Fails limit scope (p.start .div os) .arity
        "too many arguments for binary op" ((os.take 2).flatMap Operand.lines)) := by
  have hlength : os.length = xs.length := by simpa using congrArg List.length hxs
  match os, xs with
  | [], [] => exact ⟨fun _ => comes_quotient_none.fails hlimit, nofun, by simp⟩
  | [a], [x] =>
    have hx : a.value = .number x := by simpa using hxs
    refine ⟨fun _ => ?_, nofun, by simp⟩
    simp only [List.flatMap_cons, List.flatMap_nil, List.append_nil]
    exact (comes_quotient_one (hgives a (by simp)) hx).fails hlimit
  | [a, b], [x, y] =>
    obtain ⟨hx, hy⟩ : a.value = .number x ∧ b.value = .number y := by simpa using hxs
    refine ⟨by simp, ?_, by simp⟩
    rintro _ _ ⟨⟩
    simp only [List.flatMap_cons, List.flatMap_nil, List.append_nil]
    exact (comes_quotient_two (hgives a (by simp)) (hgives b (by simp)) (hgap b (by simp)) hx
      hy).succeeds (fun _ hrest => ⟨0, hrest⟩) hlimit
  | a :: b :: c :: more, x :: y :: z :: others =>
    obtain ⟨hx, hy, -⟩ : a.value = .number x ∧ b.value = .number y ∧ _ := by simpa using hxs
    refine ⟨fun hlt => ?_, nofun, fun _ => ?_⟩
    · simp only [List.length_cons] at hlt
      omega
    simp only [List.take_succ_cons, List.take_zero, List.flatMap_cons, List.flatMap_nil,
      List.append_nil]
    exact (comes_quotient_more (hgives a (by simp)) (hgives b (by simp)) hgap hx hy).fails hlimit

/-- How many operands make a comparison. Fewer than two are too few. The kinds of two are compared
before their values, and before anything is said of a third, which is only a missing parenthesis. -/
theorem comparison_arity (hgap : ∀ o ∈ os.tail, 0 < o.gap)
    (hgives : ∀ o ∈ os.take 2, o.Gives limit scope (p.depth + 1))
    (hlimit : ∀ d ∈ limit, p.depth + 1 ≤ d) :
    (os.length < 2 → Fails limit scope (p.start .eq os) .arity
        "eq requires exactly 2 arguments: (eq a b)" (os.flatMap Operand.lines)) ∧
      ∀ a b more k l, os = a :: b :: more → a.value.kind? = some k → b.value.kind? = some l →
        (k ≠ l → Fails limit scope (p.start .eq os) .mistyped
          ("expected a and b to have the same kind (got '" ++ k.name ++ "' and '" ++ l.name ++
            "')") (a.lines ++ b.lines)) ∧
        (k = l → more = [] → ∃ answer : Bool, (answer = true ↔ a.value.Equal b.value) ∧
          Succeeds limit scope (p.start .eq os) (.boolean answer) (a.lines ++ b.lines)) ∧
        ∀ c others, k = l → more = c :: others → Fails limit scope (p.start .eq os) .malformed
          ("expected ')': " ++ String.ofList (c.text ++ p.rest others)) (a.lines ++ b.lines) := by
  refine ⟨?_, ?_⟩
  · intro hlength
    match os with
    | [] => exact comes_comparison_none.fails hlimit
    | [a] =>
      simp only [List.flatMap_cons, List.flatMap_nil, List.append_nil]
      exact (comes_comparison_one (hgives a (by simp))).fails hlimit
  · rintro a b more k l rfl hk hl
    have hcomes := comes_comparison (hgives a (by simp)) (hgives b (by simp)) hgap
    refine ⟨?_, ?_, ?_⟩
    · intro hne
      rw [Value.compare_of_kind_ne hk hl hne] at hcomes
      exact hcomes.fails hlimit
    · rintro rfl rfl
      obtain ⟨answer, hcompare, hanswer⟩ := Value.compare_of_kind_eq hk hl
      rw [hcompare] at hcomes
      exact ⟨answer, hanswer, hcomes.succeeds (fun _ hrest => ⟨p.gap, hrest⟩) hlimit⟩
    · rintro c others rfl rfl
      -- the comparison has its answer by then, but is not closed where it should be
      obtain ⟨answer, hcompare, -⟩ := Value.compare_of_kind_eq hk hl
      rw [hcompare] at hcomes
      exact hcomes.fails_unclosed hlimit

/-- How many operands are printed: exactly one. It is printed before a second one is found where the
closing parenthesis should be. -/
theorem display_arity (hgap : ∀ o ∈ os.tail, 0 < o.gap)
    (hgives : ∀ o ∈ os.take 2, o.Gives limit scope (p.depth + 1))
    (hlimit : ∀ d ∈ limit, p.depth + 2 ≤ d) :
    (os = [] → Fails limit scope (p.start .print os) .malformed "unexpected char ')'" []) ∧
      ∀ a more, os = a :: more → ∃ line, a.value.format = .ok line ∧
        (more = [] → Succeeds limit scope (p.start .print os) .nil (a.lines ++ [line])) ∧
        ∀ b others, more = b :: others → Fails limit scope (p.start .print os) .malformed
          ("expected ')': " ++ String.ofList (b.text ++ p.rest others)) (a.lines ++ [line]) := by
  have hlimit' : ∀ d ∈ limit, p.depth + 1 ≤ d := by
    intro d hd
    have := hlimit d hd
    omega
  refine ⟨?_, ?_⟩
  · rintro rfl
    have hmessage : (Fault.unexpectedChar ')').message = "unexpected char ')'" := by
      decide +kernel
    rw [← hmessage]
    exact (comes_display_none hlimit).fails hlimit'
  · rintro a more rfl
    obtain ⟨line, hline⟩ := Value.format_isOk.mp a.legal
    have hcomes := comes_display (hgives a (by simp)) hgap hline
    refine ⟨line, hline, ?_, ?_⟩
    · rintro rfl
      exact hcomes.succeeds (fun _ hrest => ⟨p.gap, hrest⟩) hlimit'
    · rintro b others rfl
      exact hcomes.fails_unclosed hlimit'

end Place

/-- What becomes of a form around operands that are separated by spaces, anywhere in a text, in any
scope and at any depth that leaves a level for the operands, where the first two of them, evaluated
on their own one level deeper, have values of the language:

* of two numbers `div` makes the quotient; with fewer operands it fails once it has evaluated them
  all, and with more it fails after the first two;
* of two values of one kind `eq` makes the comparison: it is true for two booleans that are the
  same, for two nils, and for two numbers with the same exact value or the same infinity, so the
  two zeros are equal and a NaN is equal to nothing. With fewer operands it fails; with values of
  different kinds it fails whatever comes after them; and if they are of one kind, it is a third
  operand at which the closing parenthesis is missed;
* `print` writes the line of its first operand and gives nil. Without an operand it fails at the
  closing parenthesis, and with a second one it misses it there, after writing the line. -/
theorem outcome_of_operand_count (p : Place) (os : List Operand)
    (hgap : ∀ o ∈ os.tail, 0 < o.gap)
    (hgives : ∀ o ∈ os.take 2, o.Gives limit scope (p.depth + 1))
    (hlimit : ∀ d ∈ limit, p.depth + 2 ≤ d) :
    (∀ xs : List Binary64, os.map Operand.value = xs.map .number →
      (os.length < 2 → Fails limit scope (p.start .div os) .arity
        "not enough arguments for binary op" (os.flatMap Operand.lines)) ∧
      (∀ x y, xs = [x, y] → Succeeds limit scope (p.start .div os) (.number (x.div y))
        (os.flatMap Operand.lines)) ∧
      (3 ≤ os.length → Fails limit scope (p.start .div os) .arity
        "too many arguments for binary op" ((os.take 2).flatMap Operand.lines))) ∧
    ((os.length < 2 → Fails limit scope (p.start .eq os) .arity
        "eq requires exactly 2 arguments: (eq a b)" (os.flatMap Operand.lines)) ∧
      ∀ a b more k l, os = a :: b :: more → a.value.kind? = some k → b.value.kind? = some l →
        (k ≠ l → Fails limit scope (p.start .eq os) .mistyped
          ("expected a and b to have the same kind (got '" ++ k.name ++ "' and '" ++ l.name ++
            "')") (a.lines ++ b.lines)) ∧
        (k = l → more = [] → ∃ answer : Bool, (answer = true ↔ a.value.Equal b.value) ∧
          Succeeds limit scope (p.start .eq os) (.boolean answer) (a.lines ++ b.lines)) ∧
        ∀ c others, k = l → more = c :: others → Fails limit scope (p.start .eq os) .malformed
          ("expected ')': " ++ String.ofList (c.text ++ p.rest others)) (a.lines ++ b.lines)) ∧
    (os = [] → Fails limit scope (p.start .print os) .malformed "unexpected char ')'" []) ∧
      ∀ a more, os = a :: more → ∃ line, a.value.format = .ok line ∧
        (more = [] → Succeeds limit scope (p.start .print os) .nil (a.lines ++ [line])) ∧
        ∀ b others, more = b :: others → Fails limit scope (p.start .print os) .malformed
          ("expected ')': " ++ String.ofList (b.text ++ p.rest others)) (a.lines ++ [line]) := by
  have hlimit' : ∀ d ∈ limit, p.depth + 1 ≤ d := by
    intro d hd
    have := hlimit d hd
    omega
  exact ⟨fun _ => Place.quotient_arity hgap hgives hlimit',
    Place.comparison_arity hgap hgives hlimit', Place.display_arity hgap hgives hlimit⟩

namespace ThreeOperands

/-- The number five. -/
def five : Expr := .number { negative := false, digits := ['5'] }

theorem legal_nil : Value.nil.Legal := rfl

/-- The first two operands print five and give nil. -/
def printed : Operand where
  gap := 1
  expr := .print five
  text := "(print 5)".toList
  written := .form 0 (.print (.cons 1 (.number _) (stopsAt_nil _) .nil)) fun h => by cases h
  value := .nil
  legal := legal_nil
  lines := ["5.000000"]

/-- The third operand. -/
def last : Operand where
  gap := 2
  expr := five
  text := ['5']
  written := .number _
  value := .number (.ofInt 5)
  legal := rfl
  lines := []

/-- The three of them. -/
def operands : List Operand := [printed, printed, last]

/-- A comparison that starts a text and is followed by more. -/
def place : Place := { before := [], gap := 0, after := ['x'], depth := 0, history := [] }

theorem gives : printed.Gives (some 3) {} 1 := by
  refine ⟨(Eval.expression (some 3) {} (printed.alone 1)).2, ?_, ?_⟩
  · decide +kernel
  · decide +kernel

end ThreeOperands

namespace TwoZeros

/-- Zero. -/
def zero : Operand where
  gap := 1
  expr := .number { negative := false, digits := ['0'] }
  text := ['0']
  written := .number _
  value := .number (.zero false)
  legal := rfl
  lines := []

/-- The other zero, which no number in a text stands for. -/
def minusZero : Operand where
  gap := 1
  expr := .mult [.number { negative := false, digits := ['0'] },
    .number { negative := true, digits := ['7'] }]
  text := "(mult 0 -7)".toList
  written := .form 0 (.mult (.cons 1 (.number _) (Expr.endsBefore_space _ _)
    (.cons 1 (.number _) (stopsAt_nil _) .nil))) fun h => by cases h
  value := .number (.zero true)
  legal := rfl
  lines := []

theorem gives {o : Operand} (ho : o = zero ∨ o = minusZero) : o.Gives (some 3) {} 1 := by
  refine ⟨(Eval.expression (some 3) {} (o.alone 1)).2, ?_, ?_⟩
  · rcases ho with rfl | rfl <;> decide +kernel
  · rcases ho with rfl | rfl <;> decide +kernel

theorem equal : zero.value.Equal minusZero.value := by
  have hexact (s : Bool) : Word.exact (Binary64.zero s).toBits = 0 := by
    rw [Binary64.zero, Word.exact_toBits]
    cases s <;> simp
  refine .number (.finite (Word.isFinite_toBits _ _) (Word.isFinite_toBits _ _) ?_)
  exact (hexact false).trans (hexact true).symm

end TwoZeros

/-- Three operands: both lines are printed and the values are compared before the third operand is
noticed. Two operands: a zero is equal to the other zero. -/
theorem outcome_of_operand_count_three :
    (ThreeOperands.printed.Gives (some 3) {} 1 ∧
      Fails (some 3) {} { cursor := .ofString "(eq (print 5) (print 5)  5)x" } .malformed
        "expected ')': 5)x" ["5.000000", "5.000000"]) ∧
    TwoZeros.zero.Gives (some 3) {} 1 ∧ TwoZeros.minusZero.Gives (some 3) {} 1 ∧
      Succeeds (some 3) {} { cursor := .ofString "(eq 0 (mult 0 -7))x" } (.boolean true) [] := by
  have hthree := outcome_of_operand_count ThreeOperands.place ThreeOperands.operands (by decide)
    (by simpa [ThreeOperands.operands, ThreeOperands.place] using ThreeOperands.gives)
    (by rintro d ⟨⟩; decide)
  have htwo := outcome_of_operand_count ThreeOperands.place [TwoZeros.zero, TwoZeros.minusZero]
    (by decide) (fun o ho => TwoZeros.gives (by simpa using ho)) (by rintro d ⟨⟩; decide)
  obtain ⟨answer, hanswer, hsucceeds⟩ :=
    (htwo.2.1.2 _ _ _ .number .number rfl rfl rfl).2.1 rfl rfl
  rw [hanswer.mpr TwoZeros.equal] at hsucceeds
  exact ⟨⟨ThreeOperands.gives, (hthree.2.1.2 _ _ _ .nil .nil rfl rfl rfl).2.2 _ [] rfl rfl⟩,
    TwoZeros.gives (.inl rfl), TwoZeros.gives (.inr rfl), hsucceeds⟩

end SExprCalc
