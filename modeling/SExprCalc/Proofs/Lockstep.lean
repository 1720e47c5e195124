import SExprCalc.Proofs.Layout
import SExprCalc.Proofs.Traversal

/-!
# Two evaluations in step

Many properties of evaluation compare two runs: with a limit and without one, in one scope and in
another, here and further on in a longer text. They all hold for the same reason: both evaluations
see the same unread text, so they make the same choices in the same order. This module does that
argument once. A `Lockstep` says what stays related (runs, scopes, values, and what holds at a
fault), with one law for each elementary step. It is a `Traversal`, so forms stay in step if their
operands do, and `Lockstep.expressionAhead_ends` concludes the same of the expression ahead. A
property of a *single* run is a lockstep of the run with itself.

Two things need care:

* a fault is raised for a reason that can be seen at the run where it is raised (`Raised`);
* operands are only ever evaluated behind the opening parenthesis of their form. `Lockstep.below`
  is the same lockstep restricted to runs with less text left than some number, so an induction on
  levels knows that they cannot run out before the text does.
-/

namespace SExprCalc

open Eval

/-! ### Why faults are raised -/

/-- A fault is raised at a run: what lies ahead there calls for it, or a value that has been
evaluated. -/
inductive Raised (value : Value → Prop) : Fault → Run → Prop where
  /-- nothing lies ahead -/
  | emptyExpression {run : Run} (h : run.unread.head? = none) : Raised value .emptyExpression run
  /-- no head lies ahead of an opening parenthesis -/
  | notCallable {run : Run} (hin : run.Inside) (hopen : run.unread.head? = some '(')
      (h : ∀ form : Form, ¬ form.head.toList <+: (run.moved 1).unread) :
      Raised value (.notCallable (run.moved 1).cursor.restText) (run.moved 1)
  /-- a character lies ahead with which no expression starts -/
  | unexpectedChar {run : Run} {c : Char} (h : run.unread.head? = some c) (hspace : c ≠ ' ')
      (hopen : c ≠ '(') (hnumber : ¬ (c = '-' || c.isDigit) = true) (hname : ¬ c.isAlpha = true) :
      Raised value (.unexpectedChar c) run
  /-- something else than a closing parenthesis lies ahead -/
  | expectedClose {run : Run} (hspace : run.unread.head? ≠ some ' ')
      (h : run.unread.head? ≠ some ')') :
      Raised value (.expectedToken ")" run.cursor.restText) run
  /-- a minus sign lies ahead, but no number -/
  | expectedDigits {run : Run} {c : Char} (h : run.unread.head? = some c)
      (hnumber : (c = '-' || c.isDigit) = true) (hlength : Cursor.numeralLength run.unread = 0) :
      Raised value (.expectedDigits run.cursor.restText) run
  /-- a number lies ahead that is out of range -/
  | literalOutOfRange {run : Run} {n : Numeral} {after : List Char}
      (h : run.unread = n.text ++ after) (hstop : StopsAt Char.isDigit after)
      (hvalue : Literal.value? n.text = none) :
      Raised value (.literalOutOfRange (String.ofList n.text)) run
  /-- the end of a division lies ahead too early -/
  | tooFewOperands {run : Run} (h : ¬ run.unread.head?.any (· != ')') = true) :
      Raised value .tooFewOperands run
  /-- the end of a division is still to come -/
  | tooManyOperands {run : Run} (hspace : run.unread.head? ≠ some ' ')
      (h : run.unread.head?.any (· != ')') = true) :
      Raised value .tooManyOperands run
  /-- the end of a comparison lies ahead too early -/
  | comparisonArity {run : Run} (h : ¬ run.unread.head?.any (· != ')') = true) :
      Raised value .comparisonArity run
  /-- a name that has just been read is not bound -/
  | unbound {run : Run} {x : Identifier} {after : List Char} (hin : run.Inside)
      (h : run.unread = x.text ++ after) (hstop : StopsAt Char.isAlphanum after) :
      Raised value (.unbound (.text x.name)) (run.moved x.text.length)
  /-- the values of the operands are refused -/
  | refused {run : Run} {fault : Fault} (h : Value.Refused value fault) : Raised value fault run

/-! ### Locksteps -/

/-- What two evaluations have in common as they go on side by side. -/
structure Lockstep extends Parting where
  /-- both are at these runs -/
  runs : Run → Run → Prop
  /-- they evaluate in these scopes -/
  scopes : Scope → Scope → Prop
  /-- they both get this value -/
  value : Value → Prop
  /-- both are within the text -/
  inside : ∀ {r s}, runs r s → r.Inside ∧ s.Inside
  /-- both see the same text ahead -/
  unread : ∀ {r s}, runs r s → s.unread = r.unread
  /-- both move on -/
  moved : ∀ {r s n}, runs r s → n ≤ r.unread.length → runs (r.moved n) (s.moved n)
  /-- both have recognised a form -/
  dispatched : ∀ {r s form}, runs r s →
    runs (r.noted (.dispatched form r.cursor.pos)) (s.noted (.dispatched form s.cursor.pos))
  /-- both have read a form to its end -/
  closed : ∀ {r s form}, runs r s →
    runs (r.noted (.closed form r.cursor.pos)) (s.noted (.closed form s.cursor.pos))
  /-- both print a line -/
  printed : ∀ {r s line}, runs r s → runs (r.noted (.printed line)) (s.noted (.printed line))
  /-- both open a scope -/
  scopeOpened : ∀ {r s σ τ}, runs r s → scopes σ τ →
    runs (r.noted (.scopeOpened σ.depth)) (s.noted (.scopeOpened τ.depth))
  /-- scopes inside the scopes -/
  child : ∀ {σ τ}, scopes σ τ → scopes σ.child τ.child
  /-- one more binding -/
  define : ∀ {σ τ name v}, scopes σ τ → value v → scopes (σ.define name v) (τ.define name v)
  /-- the name ahead stands for the same in both scopes -/
  find? : ∀ {r s σ τ} {x : Identifier}, runs r s → scopes σ τ → x.text <+: r.unread →
    σ.find? (.text x.name) = τ.find? (.text x.name)
  /-- what a name stands for is a value -/
  found : ∀ {σ τ name v}, scopes σ τ → σ.find? name = some v → value v
  /-- numbers are values -/
  number : ∀ x, value (.number x)
  /-- booleans are values -/
  boolean : ∀ b, value (.boolean b)
  /-- nil is a value -/
  nil : value .nil
  /-- both raise a fault for the same reason -/
  raised : ∀ {r s f}, runs r s → Raised value f r → fault f r s

namespace Lockstep

variable {α : Type} {L : Lockstep} {P : α → α → Prop} {r s : Run}

/-- How two computations end that have been in step. -/
abbrev Ends (L : Lockstep) (P : α → α → Prop) (out out' : Except Fault α × Run) : Prop :=
  L.toParting.Ends L.runs P out out'

/-- Runs in lockstep have the same spaces before them, and skip them together. -/
theorem skipped (hr : L.runs r s) : L.runs r.skipped s.skipped := by
  rw [Run.skipped, Run.skipped, L.unread hr]
  exact L.moved hr (Cursor.spaceCount_le _)

theorem restText_eq (hr : L.runs r s) : s.cursor.restText = r.cursor.restText :=
  congrArg String.ofList (L.unread hr)

/-- Runs in lockstep have equally much of the text before them, so they agree on how many rounds are
enough. -/
theorem remaining_eq (hr : L.runs r s) : s.cursor.remaining = r.cursor.remaining := by
  obtain ⟨hin, hin'⟩ := L.inside hr
  rw [Cursor.Inside.remaining_eq hin, Cursor.Inside.remaining_eq hin']
  exact congrArg List.length (L.unread hr)

/-! ### Forms -/

/-- Both read the same name, since both see the same text. -/
theorem bindingName_ends (hr : L.runs r s) :
    L.Ends Eq (Form.bindingName? r) (Form.bindingName? s) := by
  obtain ⟨hin, hin'⟩ := L.inside hr
  have hskip := skipped hr
  rw [Form.bindingName?_apply hin, Form.bindingName?_apply hin', L.unread hskip]
  split
  · exact .ok rfl (L.moved hskip (Cursor.identifierLength_le _))
  · exact .ok rfl hskip

/-- A wrong number of operands can be seen at the run where it is noticed. -/
theorem raised_of_miscounts {next : Option Char} {r' : Run} {f : Fault} (hin : r.Inside)
    (hnext : Form.nextChar r = (.ok next, r')) (h : Form.Miscounts next f) :
    Raised L.value f r' := by
  rw [Form.nextChar_apply hin] at hnext
  cases hnext
  cases h with
  | tooFewOperands h => exact .tooFewOperands h
  | comparisonArity h => exact .comparisonArity h
  | tooManyOperands h => exact .tooManyOperands (Run.head?_unread_skipped hin) h

/-- Evaluations in step go through the forms side by side. -/
def traversal (L : Lockstep) : Traversal where
  toParting := L.toParting
  runs := L.runs
  scopes := L.scopes
  value := L.value
  remaining := remaining_eq
  nextChar hr := by
    obtain ⟨hin, hin'⟩ := L.inside hr
    have hskip := skipped hr
    rw [Form.nextChar_apply hin, Form.nextChar_apply hin', L.unread hskip]
    exact .ok rfl hskip
  bindingName := bindingName_ends
  printed := L.printed
  define := L.define
  number := L.number
  boolean := L.boolean
  nil := L.nil
  miscounted hr hnext hr' h := L.raised hr' (raised_of_miscounts (L.inside hr).1 hnext h)
  refused hr h := L.raised hr (.refused h)

/-- Two computations stay in step. -/
abbrev Related (L : Lockstep) (P : α → α → Prop) (x y : Eval α) : Prop := L.traversal.Related P x y

/-- The same value. -/
abbrev Same (L : Lockstep) (v w : Value) : Prop := L.traversal.Same v w

theorem same (L : Lockstep) {v : Value} (h : L.value v) : L.Same v v := L.traversal.same h

variable {operand operand' : Scope → Eval Value} [∀ τ, Grows (operand' τ)]

/-- Every form stays in step if its operands do. -/
theorem Related.eval (hop : ∀ {σ τ}, L.scopes σ τ → L.Related L.Same (operand σ) (operand' τ))
    {σ τ : Scope} (hσ : L.scopes σ τ) (form : Form) :
    L.Related L.Same (form.eval operand σ) (form.eval operand' τ) := by
  intro r s hr
  have hinner : L.scopes (form.inner σ) (form.inner τ) := by
    cases form with
    | eq | letIn => exact L.child hσ
    | _ => exact hσ
  have hbegun : L.runs (form.begun σ r) (form.begun τ s) := by
    cases form with
    | letIn => exact L.scopeOpened hr hinner
    | _ => exact hr
  exact L.traversal.eval_ends hop form hinner hbegun

/-! ### Expressions -/

/-- Both have read the head of a form. -/
theorem opened (hr : L.runs r s) {form : Form} (hp : form.head.toList <+: r.unread) :
    L.runs (r.opened form) (s.opened form) :=
  L.dispatched (L.moved hr (Form.length_head_le hp))

/-- The end of a form is read by both. -/
theorem close_ends (hr : L.runs r s) (form : Form) {v : Value} (hv : L.value v) :
    L.Ends L.Same (form.close v r) (form.close v s) := by
  obtain ⟨hin, hin'⟩ := L.inside hr
  have hskip := skipped hr
  rw [Form.close_apply hin, Form.close_apply hin', L.unread hskip, restText_eq hskip]
  by_cases hc : r.skipped.unread.head? = some ')'
  · rw [if_pos hc, if_pos hc]
    have hlen : 1 ≤ r.skipped.unread.length := by
      obtain ⟨more, hmore⟩ := List.head?_eq_some_iff.mp hc
      simp [hmore]
    exact .ok (L.same hv) (L.closed (L.moved hskip hlen))
  · rw [if_neg hc, if_neg hc]
    exact .error (L.raised hskip (.expectedClose (Run.head?_unread_skipped hin) hc))

/-- A form is evaluated in step, from its opening parenthesis on. -/
theorem formAhead_ends
    (hop : ∀ {σ τ}, L.scopes σ τ → L.Related L.Same (operand σ) (operand' τ)) {σ τ : Scope}
    (hσ : L.scopes σ τ) (hstart : r.Inside) (hopen : r.unread.head? = some '(')
    (hr : L.runs (r.moved 1) (s.moved 1)) :
    L.Ends L.Same (formAhead operand σ (r.moved 1)) (formAhead operand' τ (s.moved 1)) := by
  obtain ⟨hin, hin'⟩ := L.inside hr
  rw [formAhead_apply hin, formAhead_apply hin', L.unread hr, restText_eq hr]
  rcases hf : Form.ahead? (r.moved 1).unread with _ | form
  · exact .error (L.raised hr (.notCallable hstart hopen (Form.ahead?_eq_none_iff.mp hf)))
  · refine (Related.eval hop hσ form (opened hr (Form.ahead?_eq_some_iff.mp hf))).bind ?_
    rintro v _ r₁ s₁ - ⟨rfl, hv⟩ hr₁
    exact close_ends hr₁ form hv

/-- A number is read in step: the same digits lie ahead of both runs, so both get the same value or
fail alike. -/
theorem readNumber_ends (hr : L.runs r s) {c : Char} (hc : r.unread.head? = some c)
    (hnumber : (c = '-' || c.isDigit) = true) :
    L.Ends L.Same ((do return .number (← readNumber) : Eval Value) r)
      ((do return .number (← readNumber) : Eval Value) s) := by
  obtain ⟨hin, hin'⟩ := L.inside hr
  have hu := L.unread hr
  by_cases hn : Cursor.numeralLength r.unread = 0
  · have hread := readNumber_apply hin
    have hread' := readNumber_apply hin'
    rw [hu, restText_eq hr, if_pos hn] at hread'
    rw [if_pos hn] at hread
    rw [bind_of_error hread, bind_of_error hread']
    exact .error (L.raised hr (.expectedDigits hc hnumber hn))
  · -- the digits make a numeral, and whether its value is in range is seen from it alone
    obtain ⟨n, after, hn', hstop⟩ := exists_numeral hn
    have hread := readNumber_text hin hn' hstop
    have hread' := readNumber_text hin' (hu.trans hn') hstop
    rcases hv : Literal.value? n.text with _ | x
    · rw [hv] at hread hread'
      rw [bind_of_error hread, bind_of_error hread']
      exact .error (L.raised hr (.literalOutOfRange hn' hstop hv))
    · rw [hv] at hread hread'
      rw [bind_of_ok hread, bind_of_ok hread']
      exact .ok (L.same (L.number x)) (L.moved hr (by rw [hn', List.length_append]; omega))

/-- A name is read and looked up in step. It is a piece of the text that lies ahead, which is all
that the scopes have to agree on. -/
theorem resolve_ends (hr : L.runs r s) {σ τ : Scope} (hσ : L.scopes σ τ) {c : Char}
    (hc : r.unread.head? = some c) (hname : c.isAlpha = true) :
    L.Ends L.Same ((do ofExcept (σ.resolve (.text (← readIdentifier))) : Eval Value) r)
      ((do ofExcept (τ.resolve (.text (← readIdentifier))) : Eval Value) s) := by
  obtain ⟨hin, hin'⟩ := L.inside hr
  have hu := L.unread hr
  have hne : Cursor.identifierLength r.unread ≠ 0 := by
    obtain ⟨more, hmore⟩ := List.head?_eq_some_iff.mp hc
    rw [hmore, Cursor.identifierLength, if_pos hname]
    omega
  obtain ⟨x, after, hx, hstop⟩ := exists_identifier hne
  have hmoved : L.runs (r.moved x.text.length) (s.moved x.text.length) :=
    L.moved hr (by rw [hx, List.length_append]; omega)
  rw [bind_of_ok (readIdentifier_text hin hx hstop),
    bind_of_ok (readIdentifier_text hin' (hu.trans hx) hstop), ofExcept_apply, ofExcept_apply,
    Scope.resolve, Scope.resolve, ← L.find? hr hσ ⟨after, hx.symm⟩]
  rcases hv : σ.find? (.text x.name) with _ | v
  · exact .error (L.raised hmoved (.unbound hin hx hstop))
  · exact .ok (L.same (L.found hσ hv)) hmoved

/-! ### Less and less text -/

/-- The same lockstep, of runs that have less text ahead than some number of characters. -/
def below (L : Lockstep) (k : Nat) : Lockstep where
  runs r s := L.runs r s ∧ r.unread.length < k
  scopes := L.scopes
  value := L.value
  fault := L.fault
  gone := L.gone
  inside h := L.inside h.1
  unread h := L.unread h.1
  moved {r s n} h hn := by
    refine ⟨L.moved h.1 hn, ?_⟩
    rw [Run.unread_moved (L.inside h.1).1, List.length_drop]
    omega
  dispatched h := ⟨L.dispatched h.1, h.2⟩
  closed h := ⟨L.closed h.1, h.2⟩
  printed h := ⟨L.printed h.1, h.2⟩
  scopeOpened h hσ := ⟨L.scopeOpened h.1 hσ, h.2⟩
  child := L.child
  define := L.define
  find? h := L.find? h.1
  found := L.found
  number := L.number
  boolean := L.boolean
  nil := L.nil
  raised h := L.raised h.1
  gone_mono := L.gone_mono

/-- The expression ahead is evaluated in step, if operands with less text ahead are. -/
theorem expressionAhead_ends {k : Nat} (hr : (L.below k).runs r s)
    (hop : ∀ {σ τ}, L.scopes σ τ →
      (L.below r.unread.length).Related L.Same (operand σ) (operand' τ)) {σ τ : Scope}
    (hσ : L.scopes σ τ) :
    (L.below k).Ends L.Same (expressionAhead operand σ r) (expressionAhead operand' τ s) := by
  obtain ⟨hin, hin'⟩ := L.inside hr.1
  have hskip : (L.below k).runs r.skipped s.skipped := skipped hr
  rw [expressionAhead_apply hin, expressionAhead_apply hin', (L.below k).unread hskip]
  rcases hc : r.skipped.unread.head? with _ | c
  · exact .error (L.raised hskip.1 (.emptyExpression hc))
  · simp only
    have hspace : c ≠ ' ' := by
      rintro rfl
      exact Run.head?_unread_skipped hin hc
    by_cases hopen : c = '('
    · subst hopen
      simp only [if_true]
      obtain ⟨more, hmore⟩ := List.head?_eq_some_iff.mp hc
      have hlen : 1 ≤ r.skipped.unread.length := by simp [hmore]
      -- past the opening parenthesis there is less text than at the start
      have hless : (r.skipped.moved 1).unread.length < r.unread.length := by
        have hle : r.skipped.unread.length ≤ r.unread.length := by
          rw [Run.unread_skipped hin, List.length_drop]
          omega
        rw [Run.unread_moved hin.skipped, List.length_drop]
        omega
      have hform := formAhead_ends (L := L.below r.unread.length) hop hσ hin.skipped hc
        ⟨L.moved hskip.1 hlen, hless⟩
      exact hform.mono fun h => ⟨h.1, Nat.lt_trans h.2 hr.2⟩
    · simp only [if_neg hopen]
      by_cases hnumber : (c = '-' || c.isDigit) = true
      · simp only [if_pos hnumber]
        exact readNumber_ends hskip hc hnumber
      · simp only [if_neg hnumber]
        by_cases hname : c.isAlpha = true
        · simp only [if_pos hname]
          exact resolve_ends hskip hσ hc hname
        · simp only [if_neg hname]
          exact .error (L.raised hskip.1 (.unexpectedChar hc hspace hopen hnumber hname))

end Lockstep

/-! ### A run side by side with itself -/

/-- What holds of a single evaluation as it goes on. -/
structure Invariant where
  /-- of the run -/
  run : Run → Prop
  /-- of the scope -/
  scope : Scope → Prop
  /-- of values -/
  value : Value → Prop
  /-- of a fault and the run at which it ends -/
  fault : Fault → Run → Prop
  /-- of a fault that another evaluation does not have, and how far that one has got -/
  gone : Fault → Run → Run → Prop := fun _ _ _ => False
  /-- the run is within the text -/
  inside : ∀ {r}, run r → r.Inside
  /-- moving on keeps it -/
  moved : ∀ {r n}, run r → n ≤ r.unread.length → run (r.moved n)
  /-- any event but the entering of an expression keeps it -/
  noted : ∀ {r event}, run r → (∀ depth pos, event ≠ .entered depth pos) → run (r.noted event)
  /-- scopes inside the scope -/
  child : ∀ {σ}, scope σ → scope σ.child
  /-- one more binding -/
  define : ∀ {σ name v}, scope σ → value v → scope (σ.define name v)
  /-- what a name stands for is a value -/
  found : ∀ {σ name v}, scope σ → σ.find? name = some v → value v
  /-- numbers are values -/
  number : ∀ x, value (.number x)
  /-- booleans are values -/
  boolean : ∀ b, value (.boolean b)
  /-- nil is a value -/
  nil : value .nil
  /-- a fault is raised -/
  raised : ∀ {r f}, run r → Raised value f r → fault f r
  /-- the other evaluation goes on alone -/
  gone_mono : ∀ {f r s s'}, gone f r s → s.history <:+ s'.history → gone f r s' := by
    intro f r s s' h _
    exact h

/-- The lockstep of two evaluations that are one. -/
def Invariant.lockstep (I : Invariant) : Lockstep where
  runs r s := r = s ∧ I.run r
  scopes σ τ := σ = τ ∧ I.scope σ
  value := I.value
  fault f r s := r = s ∧ I.fault f r
  gone := I.gone
  inside := by
    rintro r _ ⟨rfl, hr⟩
    exact ⟨I.inside hr, I.inside hr⟩
  unread := by
    rintro r _ ⟨rfl, -⟩
    rfl
  moved := by
    rintro r _ n ⟨rfl, hr⟩ hn
    exact ⟨rfl, I.moved hr hn⟩
  dispatched := by
    rintro r _ form ⟨rfl, hr⟩
    exact ⟨rfl, I.noted hr nofun⟩
  closed := by
    rintro r _ form ⟨rfl, hr⟩
    exact ⟨rfl, I.noted hr nofun⟩
  printed := by
    rintro r _ line ⟨rfl, hr⟩
    exact ⟨rfl, I.noted hr nofun⟩
  scopeOpened := by
    rintro r _ σ _ ⟨rfl, hr⟩ ⟨rfl, -⟩
    exact ⟨rfl, I.noted hr nofun⟩
  child := by
    rintro σ _ ⟨rfl, hσ⟩
    exact ⟨rfl, I.child hσ⟩
  define := by
    rintro σ _ name v ⟨rfl, hσ⟩ hv
    exact ⟨rfl, I.define hσ hv⟩
  find? := by
    rintro r s σ _ x - ⟨rfl, -⟩ -
    rfl
  found := by
    rintro σ _ name v ⟨rfl, hσ⟩ hv
    exact I.found hσ hv
  number := I.number
  boolean := I.boolean
  nil := I.nil
  raised := by
    rintro r _ f ⟨rfl, hr⟩ h
    exact ⟨rfl, I.raised hr h⟩
  gone_mono := I.gone_mono

end SExprCalc
