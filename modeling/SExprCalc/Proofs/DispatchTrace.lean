import SExprCalc.Log
import SExprCalc.Proofs.FaultPlace

/-!
# The trace of dispatches

A run that goes on notes which forms it recognises, and what it writes to the log is read off these
notes. This module says what such a trace can look like (`Trace`): a form is noted where its opening
parenthesis and its head have just been passed, and closed where its closing parenthesis has been,
while it is the innermost open form; the scope that a `let` opens is noted at once, and its depth
counts the open forms that have made a scope. `Trace` has one rule for each thing that a run does,
so it is an invariant that links the open forms, the scope and the cursor at every point, whether
the run goes on to a value or to a fault.

Evaluating an operand keeps the open forms as they are (`Keeps`), if the depth of its scope is the
number of scopes made so far. That is a `Traversal` of a run with itself, so each form takes it from
its operands to itself, and an induction on the levels closes the recursion
(`keepsOperands_expressionWithin`). What the log says then follows from the rules of `Trace` alone.
-/

namespace SExprCalc

open Eval

/-! ### Open forms -/

/-- Whether a form evaluates its parts in a scope of its own. -/
def Form.scoping : Form → Bool
  | eq | letIn => true
  | _ => false

/-- How many scopes some forms make, one inside the other. -/
def scopeCount (forms : List Form) : Nat := forms.countP Form.scoping

/-- The forms that have been recognised and not yet closed, the innermost first. The events are
given the latest first. -/
def openForms : List Event → List Form
  | [] => []
  | .dispatched form _ :: earlier => form :: openForms earlier
  | .closed _ _ :: earlier => (openForms earlier).tail
  | _ :: earlier => openForms earlier

/-- A form that has been recognised. -/
structure Dispatch where
  /-- the form -/
  form : Form
  /-- where its head ends -/
  pos : Int
  /-- the forms that are open around it, the innermost first -/
  enclosing : List Form
  deriving DecidableEq, Repr

/-- The forms recognised among some events, the latest first. -/
def dispatches : List Event → List Dispatch
  | [] => []
  | .dispatched form pos :: earlier => ⟨form, pos, openForms earlier⟩ :: dispatches earlier
  | _ :: earlier => dispatches earlier

/-- What is logged about a form: where it was recognised, and for a `let` the depth of its scope,
which is inside those of the open forms around it. -/
def Dispatch.records (base : Nat) (d : Dispatch) : List Log.Record :=
  ⟨.debug, "sigma.evaluation.evaluator",
      "dispatch " ++ d.form.head ++ " at " ++ toString d.pos⟩ ::
    if d.form = .letIn then
      [⟨.debug, "sigma.evaluation.special_forms.let_form",
        "let: new scope at depth " ++ toString (base + 1 + scopeCount d.enclosing)⟩]
    else []

/-! ### Traces -/

/-- A piece of a text that ends at a position. -/
def EndsAt (piece text : List Char) (pos : Int) : Prop :=
  ∃ before, before ++ piece <+: text ∧ pos = (before ++ piece).length

section

variable {piece text : List Char} {pos : Int}

theorem endsAt_append (before piece : List Char) :
    EndsAt piece (before ++ piece) (before ++ piece).length :=
  ⟨before, List.prefix_refl _, rfl⟩

theorem EndsAt.mono {text' : List Char} (h : EndsAt piece text pos)
    (htext : text <+: text') : EndsAt piece text' pos := by
  obtain ⟨before, hbefore, hpos⟩ := h
  exact ⟨before, hbefore.trans htext, hpos⟩

theorem EndsAt.append (h : EndsAt piece text pos) (t : List Char) : EndsAt piece (text ++ t) pos :=
  h.mono (List.prefix_append _ _)

theorem EndsAt.le_length (h : EndsAt piece text pos) : pos ≤ text.length := by
  obtain ⟨before, hbefore, hpos⟩ := h
  rw [hpos]
  exact Int.ofNat_le.mpr hbefore.length_le

end

/-- The text of a form up to the end of its head. -/
def Form.opening (form : Form) : List Char := '(' :: form.head.toList

/-- The events that a run can have noted, the latest first, with the forms that are open then and
the text that has been passed. The scope of the run has a depth to start from. -/
inductive Trace (base : Nat) : List Event → List Form → List Char → Prop where
  /-- nothing has happened -/
  | start : Trace base [] [] []
  /-- some text is passed -/
  | passed {events : List Event} {opens : List Form} {passed : List Char}
      (h : Trace base events opens passed) (t : List Char) : Trace base events opens (passed ++ t)
  /-- an expression is entered -/
  | entered {events : List Event} {opens : List Form} {passed : List Char}
      (h : Trace base events opens passed) (depth pos : Int) :
      Trace base (.entered depth pos :: events) opens passed
  /-- a line is printed -/
  | printed {events : List Event} {opens : List Form} {passed : List Char}
      (h : Trace base events opens passed) (line : String) :
      Trace base (.printed line :: events) opens passed
  /-- a form other than `let` is recognised -/
  | opened {events : List Event} {opens : List Form} {passed : List Char}
      (h : Trace base events opens passed) {form : Form} (hform : form ≠ .letIn) :
      Trace base (.dispatched form (passed ++ form.opening).length :: events) (form :: opens)
        (passed ++ form.opening)
  /-- a `let` is recognised, and its scope is opened -/
  | openedLet {events : List Event} {opens : List Form} {passed : List Char}
      (h : Trace base events opens passed) :
      Trace base (.scopeOpened (base + 1 + scopeCount opens) ::
          .dispatched .letIn (passed ++ Form.letIn.opening).length :: events)
        (.letIn :: opens) (passed ++ Form.letIn.opening)
  /-- the innermost form is closed -/
  | closed {events : List Event} {form : Form} {opens : List Form} {passed : List Char}
      (h : Trace base events (form :: opens) passed) :
      Trace base (.closed form (passed ++ [')']).length :: events) opens (passed ++ [')'])

namespace Trace

variable {base : Nat} {events : List Event} {opens : List Form} {passed : List Char}

/-- The open forms can be read off the events. -/
theorem openForms_eq (h : Trace base events opens passed) : openForms events = opens := by
  induction h with
  | start => rfl
  | passed _ _ ih => exact ih
  | entered _ _ _ ih => exact ih
  | printed _ _ ih => exact ih
  | opened _ _ ih => exact congrArg _ ih
  | openedLet _ ih => exact congrArg _ ih
  | closed _ ih => exact congrArg _ ih

/-- The records of a longer history. -/
theorem records_cons (event : Event) (events : List Event) :
    Log.records ((event :: events).reverse.filterMap Event.entry?) =
      Log.records (events.reverse.filterMap Event.entry?) ++
        Log.records event.entry?.toList := by
  have hone : [event].filterMap Event.entry? = event.entry?.toList := by
    cases event <;> rfl
  rw [List.reverse_cons, List.filterMap_append, hone]
  exact List.filterMap_append

/-- What is logged is what there is to say about the forms, one after the other. -/
theorem records_eq (h : Trace base events opens passed) :
    Log.records (events.reverse.filterMap Event.entry?) =
      (dispatches events).reverse.flatMap (Dispatch.records base) := by
  induction h with
  | start => rfl
  | passed _ _ ih => exact ih
  | entered _ _ _ ih => rw [records_cons, ih]; exact List.append_nil _
  | printed _ _ ih => rw [records_cons, ih]; exact List.append_nil _
  | opened _ hform ih =>
    rw [records_cons, ih, dispatches, List.reverse_cons, List.flatMap_append,
      List.flatMap_singleton, Dispatch.records, if_neg hform]
    rfl
  | openedLet h ih =>
    rw [records_cons, records_cons, ih, dispatches, dispatches, List.reverse_cons,
      List.flatMap_append, List.flatMap_singleton, List.append_assoc, h.openForms_eq]
    · rfl
    · nofun
  | closed _ ih => rw [records_cons, ih]; exact List.append_nil _

/-- Each form stands in the text where it is said to have been recognised. -/
theorem endsAt_opening (h : Trace base events opens passed) {d : Dispatch}
    (hd : d ∈ dispatches events) : EndsAt d.form.opening passed d.pos := by
  induction h with
  | start => cases hd
  | passed _ _ ih => exact (ih hd).append _
  | entered _ _ _ ih => exact ih hd
  | printed _ _ ih => exact ih hd
  | opened _ _ ih =>
    rcases List.mem_cons.mp hd with rfl | hd
    · exact endsAt_append _ _
    · exact (ih hd).append _
  | openedLet _ ih =>
    rcases List.mem_cons.mp hd with rfl | hd
    · exact endsAt_append _ _
    · exact (ih hd).append _
  | closed _ ih => exact (ih hd).append _

/-- A form is recognised behind all the text that has been passed before. -/
theorem pos_lt (h : Trace base events opens passed) (form : Form) {d : Dispatch}
    (hd : d ∈ dispatches events) : d.pos < (passed ++ form.opening).length := by
  have hle := (h.endsAt_opening hd).le_length
  rw [List.length_append, Form.opening, List.length_cons]
  omega

/-- The forms of a trace are dispatched at places that strictly increase: between two dispatches at
least a parenthesis is read. -/
theorem pairwise_dispatches (h : Trace base events opens passed) :
    (dispatches events).Pairwise fun later earlier => earlier.pos < later.pos := by
  induction h with
  | start => exact .nil
  | passed _ _ ih => exact ih
  | entered _ _ _ ih => exact ih
  | printed _ _ ih => exact ih
  | opened h _ ih => exact .cons (fun _ => h.pos_lt _) ih
  | openedLet h ih => exact .cons (fun _ => h.pos_lt _) ih
  | closed _ ih => exact ih

/-- A form that is closed is the innermost open one, and its closing parenthesis has been passed. -/
theorem innermost_of_closed (h : Trace base events opens passed) {form : Form} {pos : Int}
    {earlier : List Event} (hsuffix : .closed form pos :: earlier <:+ events) :
    (openForms earlier).head? = some form ∧ EndsAt [')'] passed pos := by
  induction h with
  | start => cases List.suffix_nil.mp hsuffix
  | passed _ _ ih =>
    obtain ⟨hinner, hends⟩ := ih hsuffix
    exact ⟨hinner, hends.append _⟩
  | entered _ _ _ ih => exact ih ((List.suffix_cons_iff.mp hsuffix).resolve_left nofun)
  | printed _ _ ih => exact ih ((List.suffix_cons_iff.mp hsuffix).resolve_left nofun)
  | opened _ _ ih =>
    obtain ⟨hinner, hends⟩ := ih ((List.suffix_cons_iff.mp hsuffix).resolve_left nofun)
    exact ⟨hinner, hends.append _⟩
  | openedLet _ ih =>
    have hdispatched := (List.suffix_cons_iff.mp hsuffix).resolve_left nofun
    obtain ⟨hinner, hends⟩ := ih ((List.suffix_cons_iff.mp hdispatched).resolve_left nofun)
    exact ⟨hinner, hends.append _⟩
  | closed h ih =>
    rcases List.suffix_cons_iff.mp hsuffix with heq | hsuffix
    · obtain ⟨hevent, rfl⟩ := List.cons.inj heq
      obtain ⟨rfl, rfl⟩ := Event.closed.inj hevent
      rw [h.openForms_eq]
      exact ⟨rfl, endsAt_append _ _⟩
    · obtain ⟨hinner, hends⟩ := ih hsuffix
      exact ⟨hinner, hends.append _⟩

end Trace

/-! ### Runs that have a trace -/

/-- The depth of a scope is the number of scopes made so far. -/
def Scope.At (base : Nat) (opens : List Form) (scope : Scope) : Prop :=
  scope.depth = base + scopeCount opens

/-- A form makes a scope for its operands or it does not, and counts accordingly. -/
theorem Scope.At.inner {base : Nat} {opens : List Form} {scope : Scope} (h : scope.At base opens)
    (form : Form) : (form.inner scope).At base (form :: opens) := by
  cases form with
  | eq | letIn =>
    rw [Form.inner, Scope.At, depth_child, h, scopeCount, scopeCount, List.countP_cons_of_pos rfl]
    rfl
  | _ =>
    change scope.At base (_ :: opens)
    rw [Scope.At, h, scopeCount, scopeCount, List.countP_cons_of_neg Bool.false_ne_true]

namespace Run

/-- The position is the length of the text that has been passed. -/
theorem Inside.length_passed {run : Run} (h : run.Inside) :
    (run.passed.length : Int) = run.cursor.pos := by
  obtain ⟨hlow, hhigh⟩ := h
  rw [passed, List.length_take]
  change _ ≤ (run.cursor.source.length : Int) at hhigh
  omega

theorem length_unread_pos {run : Run} {c : Char} (h : run.unread.head? = some c) :
    1 ≤ run.unread.length := by
  obtain ⟨more, hmore⟩ := List.head?_eq_some_iff.mp h
  rw [hmore, List.length_cons]
  omega

/-- The text passed up to the head of a form, and where the head ends. -/
theorem passed_opened {run : Run} {form : Form} (h : run.Inside)
    (hopen : run.unread.head? = some '(') (hp : form.head.toList <+: (run.moved 1).unread) :
    ((run.moved 1).opened form).passed = run.passed ++ form.opening ∧
      (run.moved 1).cursor.pos + form.head.length = (run.passed ++ form.opening).length := by
  obtain ⟨more, hmore⟩ := List.head?_eq_some_iff.mp hopen
  obtain ⟨after, hafter⟩ := hp
  constructor
  · change ((run.moved 1).moved form.head.length).passed = _
    rw [passed_moved (h.moved (length_unread_pos hopen)), passed_moved h, hmore, ← hafter,
      ← String.length_toList, List.take_left]
    simp [Form.opening]
  · rw [List.length_append, Int.natCast_add, h.length_passed, Form.opening, List.length_cons,
      String.length_toList]
    simp only [cursor_moved, Cursor.pos_moved]
    omega

/-- A run within a text that has a trace with some open forms. -/
structure Traced (source : List Char) (base : Nat) (opens : List Form) (run : Run) : Prop where
  /-- the run is within the text -/
  inside : run.Inside
  /-- the text is the given one -/
  source_eq : run.cursor.source = source
  /-- its history is a trace -/
  trace : Trace base run.history opens run.passed

namespace Traced

variable {source : List Char} {base : Nat} {opens : List Form} {form : Form} {run : Run}

/-- Reading on adds to the text behind the cursor and opens no form, so the history stays a trace.
-/
theorem moved (h : run.Traced source base opens) {n : Nat} (hn : n ≤ run.unread.length) :
    (run.moved n).Traced source base opens := by
  refine ⟨h.inside.moved hn, h.source_eq, ?_⟩
  rw [passed_moved h.inside]
  exact h.trace.passed _

theorem skipped (h : run.Traced source base opens) : run.skipped.Traced source base opens :=
  h.moved (Cursor.spaceCount_le _)

theorem deeper (h : run.Traced source base opens) : run.deeper.Traced source base opens :=
  ⟨h.inside, h.source_eq, h.trace.entered _ _⟩

theorem shallower (h : run.Traced source base opens) : run.shallower.Traced source base opens :=
  ⟨h.inside, h.source_eq, h.trace⟩

theorem printed (h : run.Traced source base opens) (line : String) :
    (run.noted (.printed line)).Traced source base opens :=
  ⟨h.inside, h.source_eq, h.trace.printed line⟩

/-- A form other than `let` has been recognised. -/
theorem opened (h : run.Traced source base opens) (hopen : run.unread.head? = some '(')
    (hp : form.head.toList <+: (run.moved 1).unread) (hform : form ≠ .letIn) :
    ((run.moved 1).opened form).Traced source base (form :: opens) := by
  obtain ⟨hpassed, hpos⟩ := passed_opened h.inside hopen hp
  refine ⟨(h.inside.moved (length_unread_pos hopen)).opened hp, h.source_eq, ?_⟩
  rw [hpassed]
  change Trace base (.dispatched form ((run.moved 1).cursor.pos + form.head.length) :: _) _ _
  rw [hpos]
  exact h.trace.opened hform

/-- A `let` has been recognised, and its scope opened. -/
theorem openedLet (h : run.Traced source base opens) (hopen : run.unread.head? = some '(')
    (hp : Form.letIn.head.toList <+: (run.moved 1).unread) :
    (((run.moved 1).opened .letIn).noted
      (.scopeOpened (base + 1 + scopeCount opens))).Traced source base (.letIn :: opens) := by
  obtain ⟨hpassed, hpos⟩ := passed_opened h.inside hopen hp
  refine ⟨(h.inside.moved (length_unread_pos hopen)).opened hp, h.source_eq, ?_⟩
  change Trace base
    (_ :: .dispatched .letIn ((run.moved 1).cursor.pos + Form.letIn.head.length) :: _) _
    ((run.moved 1).opened .letIn).passed
  rw [hpassed, hpos]
  exact h.trace.openedLet

/-- A form has been recognised and starts on its operands. -/
theorem begun (h : run.Traced source base opens) (hopen : run.unread.head? = some '(')
    (hp : form.head.toList <+: (run.moved 1).unread) {scope : Scope}
    (hscope : scope.At base opens) :
    (form.begun scope ((run.moved 1).opened form)).Traced source base (form :: opens) := by
  cases form with
  | letIn =>
    -- the scope that is noted is the one in which bindings and body are evaluated
    have hdepth : scope.child.depth = base + 1 + scopeCount opens := by
      rw [Scope.depth_child, hscope]
      omega
    rw [Form.begun, Form.inner, hdepth]
    exact h.openedLet hopen hp
  | _ => exact h.opened hopen hp nofun

/-- The innermost form has been closed, so the forms that stay open are those around it. -/
theorem closed (h : run.Traced source base (form :: opens)) (hclose : run.unread.head? = some ')') :
    (run.closed form).Traced source base opens := by
  obtain ⟨more, hmore⟩ := List.head?_eq_some_iff.mp hclose
  have hpassed : (run.closed form).passed = run.passed ++ [')'] := by
    change (run.moved 1).passed = _
    rw [passed_moved h.inside, hmore]
    rfl
  have hpos : run.cursor.pos + 1 = (run.passed ++ [')']).length := by
    rw [List.length_append, Int.natCast_add, h.inside.length_passed]
    rfl
  refine ⟨h.inside.closed form hclose, h.source_eq, ?_⟩
  rw [hpassed]
  change Trace base (.closed form (run.cursor.pos + 1) :: _) _ _
  rw [hpos]
  exact h.trace.closed

end Traced

end Run

/-! ### What keeps the open forms -/

section

variable {source : List Char} {base : Nat} {opens : List Form} {run : Run}

/-- A fault can come from anywhere inside forms that are then left open. -/
def interrupted (source : List Char) (base : Nat) : Parting where
  fault _ r s := r = s ∧ ∃ inner, r.Traced source base inner
  gone _ _ _ := False
  gone_mono h _ := h

/-- A run that keeps its open forms goes through the forms with itself. -/
def tracing (source : List Char) (base : Nat) (opens : List Form) : Traversal where
  toParting := interrupted source base
  runs r s := r = s ∧ r.Traced source base opens
  scopes σ τ := σ = τ ∧ σ.At base opens
  value _ := True
  remaining := by
    rintro r _ ⟨rfl, -⟩
    rfl
  nextChar := by
    rintro r _ ⟨rfl, h⟩
    rw [Form.nextChar_apply h.inside]
    exact .ok rfl ⟨rfl, h.skipped⟩
  bindingName := by
    rintro r _ ⟨rfl, h⟩
    rw [Form.bindingName?_apply h.inside]
    split
    · exact .ok rfl ⟨rfl, h.skipped.moved (Cursor.identifierLength_le _)⟩
    · exact .ok rfl ⟨rfl, h.skipped⟩
  printed := by
    rintro r _ line ⟨rfl, h⟩
    exact ⟨rfl, h.printed line⟩
  define := by
    rintro σ _ name v ⟨rfl, h⟩ -
    exact ⟨rfl, h⟩
  number _ := trivial
  boolean _ := trivial
  nil := trivial
  miscounted _ _ h _ := ⟨h.1, _, h.2⟩
  refused h _ := ⟨h.1, _, h.2⟩

/-- How a computation ends: with a value and the given forms open, or with a fault somewhere inside
forms that are left open. -/
abbrev EndsTraced (source : List Char) (base : Nat) (opens : List Form)
    (out : Except Fault Value × Run) : Prop :=
  (interrupted source base).Ends (tracing source base opens).runs (tracing source base opens).Same
    out out

/-- A computation that closes all the forms it opens, unless it ends in a fault. -/
def Keeps (source : List Char) (base : Nat) (opens : List Form) (x : Eval Value) : Prop :=
  ∀ ⦃run : Run⦄, run.Traced source base opens → EndsTraced source base opens (x run)

theorem Run.Traced.value_ends (h : run.Traced source base opens) (v : Value) :
    EndsTraced source base opens (.ok v, run) := .ok ⟨rfl, trivial⟩ ⟨rfl, h⟩

/-- Failing keeps the trace as well, with the forms that were open at the fault. -/
theorem Run.Traced.fault_ends {inner : List Form} (h : run.Traced source base inner)
    (fault : Fault) : EndsTraced source base opens (.error fault, run) := .error ⟨rfl, inner, h⟩

/-! ### Forms -/

/-- Operands keep whatever forms are open, if they are evaluated in a scope made by these. -/
def KeepsOperands (source : List Char) (base : Nat) (operands : Scope → Eval Value) : Prop :=
  ∀ ⦃opens : List Form⦄ ⦃scope : Scope⦄, scope.At base opens →
    Keeps source base opens (operands scope)

variable {operands : Scope → Eval Value} [∀ scope, Grows (operands scope)] {scope : Scope}

/-- A form is evaluated, from its opening parenthesis to before its closing one. -/
theorem Run.Traced.eval_ends (hop : KeepsOperands source base operands)
    (hscope : scope.At base opens) (h : run.Traced source base opens)
    (hopen : run.unread.head? = some '(') {form : Form}
    (hp : form.head.toList <+: (run.moved 1).unread) :
    EndsTraced source base (form :: opens)
      (form.eval operands scope ((run.moved 1).opened form)) := by
  refine Traversal.eval_ends (T := tracing source base (form :: opens)) ?_ form
    ⟨rfl, hscope.inner form⟩ ⟨rfl, h.begun hopen hp hscope⟩
  rintro σ _ ⟨rfl, hσ⟩ r _ ⟨rfl, hr⟩
  exact hop hσ hr

/-- The innermost form is closed, or its closing parenthesis is missing. -/
theorem Run.Traced.close_ends {form : Form} (h : run.Traced source base (form :: opens))
    (value : Value) : EndsTraced source base opens (form.close value run) := by
  rw [Form.close_apply h.inside]
  split
  · rename_i hclose
    exact (h.skipped.closed hclose).value_ends value
  · exact h.skipped.fault_ends _

/-- Behind an opening parenthesis, a form leaves a trace: its head is read, its dispatch is noted
there with the depth of the scopes around it, and its operands leave theirs. -/
theorem Run.Traced.formAhead_ends (hop : KeepsOperands source base operands)
    (hscope : scope.At base opens) (h : run.Traced source base opens)
    (hopen : run.unread.head? = some '(') :
    EndsTraced source base opens (formAhead operands scope (run.moved 1)) := by
  have hmoved := h.moved (Run.length_unread_pos hopen)
  rw [formAhead_apply hmoved.inside]
  rcases hform : Form.ahead? (run.moved 1).unread with _ | form
  · exact hmoved.fault_ends _
  · refine (h.eval_ends hop hscope hopen (Form.ahead?_eq_some_iff.mp hform)).bind ?_
    rintro value _ run' _ - ⟨rfl, -⟩ ⟨rfl, h'⟩
    exact h'.close_ends value

/-! ### Expressions -/

theorem Run.Traced.number_ends (h : run.Traced source base opens) :
    EndsTraced source base opens ((do return .number (← readNumber) : Eval Value) run) := by
  by_cases hn : Cursor.numeralLength run.unread = 0
  · have hread := readNumber_apply h.inside
    rw [if_pos hn] at hread
    rw [bind_of_error hread]
    exact h.fault_ends _
  · obtain ⟨n, after, hafter, hstop⟩ := exists_numeral hn
    have hread := readNumber_text h.inside hafter hstop
    have hmoved := h.moved (n := n.text.length) (by rw [hafter, List.length_append]; omega)
    rcases hv : Literal.value? n.text with _ | x <;> rw [hv] at hread
    · rw [bind_of_error hread]
      exact h.fault_ends _
    · rw [bind_of_ok hread]
      exact hmoved.value_ends _

theorem Run.Traced.name_ends (h : run.Traced source base opens) (scope : Scope) :
    EndsTraced source base opens
      ((do ofExcept (scope.resolve (.text (← readIdentifier))) : Eval Value) run) := by
  by_cases hn : Cursor.identifierLength run.unread = 0
  · have hread : readIdentifier run = (.error (.expectedIdentifier run.cursor.restText), run) := by
      refine read_of_error ?_
      rw [Cursor.readIdentifier_eq h.inside]
      exact if_pos hn
    rw [bind_of_error hread]
    exact h.fault_ends _
  · have hmoved := h.moved (Cursor.identifierLength_le run.unread)
    rw [bind_of_ok (readIdentifier_apply h.inside hn), ofExcept_apply, Scope.resolve]
    split
    · exact hmoved.value_ends _
    · exact hmoved.fault_ends _

/-- One level of evaluation keeps the open forms if the next one does. Only behind a parenthesis is
anything opened. -/
theorem keeps_expressionAhead (hop : KeepsOperands source base operands)
    (hscope : scope.At base opens) :
    Keeps source base opens (expressionAhead operands scope) := by
  intro run h
  rw [expressionAhead_apply h.inside]
  split
  · exact h.skipped.fault_ends _
  · rename_i c hc
    split
    · rename_i hopen
      exact h.skipped.formAhead_ends hop hscope (hopen ▸ hc)
    · split
      · exact h.skipped.number_ends
      · split
        · exact h.skipped.name_ends scope
        · exact h.skipped.fault_ends _

/-- Entering a level and leaving it is not about forms, and neither is the fault of a level too
deep. -/
theorem Keeps.nested {x : Eval Value} (hx : Keeps source base opens x) (limit : Option Int) :
    Keeps source base opens (nested limit x) := by
  intro run h
  rcases within_or_beyond limit run.depth with hle | ⟨d, rfl, hlt⟩
  · rw [nested_of_le hle, thenLeave_apply]
    have hends := hx h.deeper
    rcases hout : x run.deeper with ⟨fault | v, run'⟩ <;> rw [hout] at hends
    · cases hends with
      | error h =>
        -- inside, more forms may have been open when it failed
        obtain ⟨-, inner, h⟩ := h
        exact h.shallower.fault_ends fault
      | gone h => exact h.elim
    · cases hends with
      | ok _ h => exact h.2.shallower.value_ends v
  · rw [nested_of_lt hlt]
    exact h.deeper.fault_ends _

/-- All levels of evaluation keep the open forms. -/
theorem keepsOperands_expressionWithin (limit : Option Int) (levels : Nat) :
    KeepsOperands source base (expressionWithin limit levels) := by
  induction levels with
  | zero => exact fun _ _ _ => Keeps.nested (fun _ h => h.fault_ends _) limit
  | succ levels ih => exact fun _ _ hscope => (keeps_expressionAhead ih hscope).nested limit

end

/-! ### The theorem -/

/-- Every evaluation leaves a trace behind, and a value only comes out when all forms are closed. -/
theorem exists_traced_evaluate (source : String) (scope : Scope) (maxDepth : Int) :
    ∃ opens, (evaluate source scope maxDepth).run.Traced source.toList scope.depth opens ∧
      ∀ v, (evaluate source scope maxDepth).result = .ok v → opens = [] := by
  have hstart : Run.Traced source.toList scope.depth [] { cursor := .ofString source } :=
    ⟨Run.inside_ofString source, rfl, .start⟩
  have hscope : scope.At scope.depth [] := rfl
  have hends := keepsOperands_expressionWithin (some maxDepth) stackLevels hscope hstart
  rw [run_evaluate, result_evaluate]
  rcases hout : expressionWithin (some maxDepth) stackLevels scope
    { cursor := .ofString source } with ⟨fault | v, run⟩ <;> rw [hout] at hends
  · cases hends with
    | error h =>
      obtain ⟨-, inner, h⟩ := h
      exact ⟨inner, h, nofun⟩
    | gone h => exact h.elim
  · cases hends with
    | ok _ h => exact ⟨[], h.2, fun _ _ => rfl⟩

/-- **The log follows the text and the nesting.** Whatever the text, the scope and the limit, and
however evaluation ends: what is logged is exactly what there is to say about the forms recognised,
in order, and for a `let` that includes the depth of its scope, which is inside those of the open
`let` and `eq` forms around it. The heads of the forms end at ever greater positions, each directly
behind its opening parenthesis. A form ceases to be open when its closing parenthesis has been read,
while it is the innermost one, and none is open when evaluation has a value. -/
theorem log_follows_nesting (source : String) (scope : Scope) (maxDepth : Int) :
    let run := (evaluate source scope maxDepth).run
    Log.records run.entries =
        (dispatches run.history).reverse.flatMap (Dispatch.records scope.depth) ∧
      ((dispatches run.history).Pairwise fun later earlier => earlier.pos < later.pos) ∧
      (∀ d ∈ dispatches run.history, EndsAt ('(' :: d.form.head.toList) source.toList d.pos) ∧
      (∀ form pos earlier, .closed form pos :: earlier <:+ run.history →
        (openForms earlier).head? = some form ∧ EndsAt [')'] source.toList pos) ∧
      ∀ v, (evaluate source scope maxDepth).result = .ok v → openForms run.history = [] := by
  intro run
  obtain ⟨opens, ⟨-, hsource, htrace⟩, hvalue⟩ := exists_traced_evaluate source scope maxDepth
  have hpassed : run.passed <+: source.toList := by
    rw [← hsource]
    exact List.take_prefix _ _
  refine ⟨htrace.records_eq, htrace.pairwise_dispatches, ?_, ?_, ?_⟩
  · intro d hd
    exact (htrace.endsAt_opening hd).mono hpassed
  · intro form pos earlier hsuffix
    obtain ⟨hinner, hends⟩ := htrace.innermost_of_closed hsuffix
    exact ⟨hinner, hends.mono hpassed⟩
  · intro v hv
    rw [htrace.openForms_eq, hvalue v hv]

/-- The second `let` is inside the comparison and the first is closed by then; the third is inside
both. The fault comes after all of them. -/
theorem log_follows_nesting_comparison :
    (Log.records (evaluate "(eq(let a 1 a) (let b(let c 2 c)x))" {} 9).run.entries).map
        Log.Record.message =
      ["dispatch eq at 3", "dispatch let at 7", "let: new scope at depth 2", "dispatch let at 19",
        "let: new scope at depth 2", "dispatch let at 25", "let: new scope at depth 3"] ∧
      EndsAt "(let".toList "(eq(let a 1 a) (let b(let c 2 c)x))".toList 25 := by
  obtain ⟨hrecords, -, hplaces, -⟩ :=
    log_follows_nesting "(eq(let a 1 a) (let b(let c 2 c)x))" {} 9
  refine ⟨?_, hplaces ⟨.letIn, 25, [.letIn, .eq]⟩ ?_⟩
  · rw [hrecords]
    decide +kernel
  · decide +kernel

end SExprCalc
