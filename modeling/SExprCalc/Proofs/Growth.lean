import SExprCalc.Proofs.Unread

/-!
# The history of a run only grows

Whatever a computation does, what had happened before it started stays in the history, with what it
adds in front. `Eval.Grows` says so of a computation started in *any* run, also outside the text,
and is a class: the elementary steps are instances, sequencing keeps it, and so each form has it by
its own definition.
-/

namespace SExprCalc

namespace Eval

variable {α β : Type}

/-- A computation that only adds to the history. -/
class Grows (x : Eval α) : Prop where
  /-- the history it starts with is the end of the one it leaves -/
  grows : ∀ run : Run, run.history <:+ (x run).2.history

instance (a : α) : Grows (pure a : Eval α) := ⟨fun _ => List.suffix_refl _⟩

instance (fault : Fault) : Grows (fail fault : Eval α) := ⟨fun _ => List.suffix_refl _⟩

instance (x : Except Fault α) : Grows (ofExcept x) where
  grows run := by
    cases x <;> exact List.suffix_refl _

instance (f : Cursor → α) : Grows (look f) := ⟨fun _ => List.suffix_refl _⟩

instance (f : Cursor → Except Fault α) : Grows (lookAhead f) := ⟨fun _ => List.suffix_refl _⟩

instance (f : Cursor → Except Fault (α × Cursor)) : Grows (read f) where
  grows run := by
    rw [read]
    split <;> exact List.suffix_refl _

instance (f : Cursor → Except Fault Cursor) : Grows (move f) where
  grows run := by
    rw [move]
    split <;> exact List.suffix_refl _

instance (event : Event) : Grows (note event) := ⟨fun _ => List.suffix_cons _ _⟩

instance (limit : Option Int) : Grows (enter limit) where
  grows run := by
    have hdeeper : run.history <:+ run.deeper.history := List.suffix_cons _ _
    cases limit with
    | none => exact hdeeper
    | some d =>
      rw [enter]
      split <;> exact hdeeper

instance (x : Eval α) [Grows x] : Grows x.thenLeave := ⟨fun run => Grows.grows (x := x) run⟩

instance grows_bind (x : Eval α) (f : α → Eval β) [Grows x] [∀ a, Grows (f a)] :
    Grows (x >>= f) where
  grows run := by
    have hx := Grows.grows (x := x) run
    rcases hout : x run with ⟨fault | a, run'⟩ <;> rw [hout] at hx
    · rw [bind_of_error hout]
      exact hx
    · rw [bind_of_ok hout]
      exact hx.trans (Grows.grows run')

instance (c : Prop) [Decidable c] (x y : Eval α) [Grows x] [Grows y] :
    Grows (if c then x else y) := by
  split <;> assumption

instance (limit : Option Int) (x : Eval α) [Grows x] : Grows (nested limit x) :=
  inferInstanceAs (Grows (enter limit >>= fun _ => x.thenLeave))

/-! ### Readers -/

instance : Grows skipSpaces := inferInstanceAs (Grows (move _))

instance : Grows peek := inferInstanceAs (Grows (lookAhead _))

instance (token : String) : Grows (expect token) := inferInstanceAs (Grows (move _))

instance (n : Int) : Grows (advance n) := inferInstanceAs (Grows (move _))

instance : Grows readIdentifier := inferInstanceAs (Grows (read _))

instance : Grows readNumber := inferInstanceAs (Grows (read _))

end Eval

open Eval

/-! ### Forms -/

namespace Form

variable {operand : Eval Value} [Grows operand] {operands : Scope → Eval Value}
  [∀ scope, Grows (operands scope)]

instance : Grows rounds := inferInstanceAs (Grows (look _))

instance : Grows operandAhead := by
  rw [operandAhead]
  infer_instance

instance (form : Form) : Grows (form.number operand) := by
  rw [number]
  infer_instance

instance (form : Form) (combine : Binary64 → Binary64 → Binary64) (bound : Nat) (total : Binary64) :
    Grows (form.reduce combine operand bound total) := by
  induction bound generalizing total with
  | zero =>
    rw [reduce]
    infer_instance
  | succ bound ih =>
    rw [reduce]
    infer_instance

instance (missing : Fault) : Grows (required missing operand) := by
  rw [required]
  infer_instance

instance : Grows (quotient operand) := by
  rw [quotient]
  infer_instance

instance : Grows (comparison operand) := by
  rw [comparison]
  infer_instance

instance (bound : Nat) (scope : Scope) : Grows (bindings operands bound scope) := by
  induction bound generalizing scope with
  | zero =>
    rw [bindings]
    infer_instance
  | succ bound ih =>
    rw [bindings]
    infer_instance

instance (scope : Scope) : Grows (body operands scope) := by
  rw [body]
  infer_instance

instance : Grows (display operand) := by
  rw [display]
  infer_instance

instance (scope : Scope) (form : Form) : Grows (form.eval operands scope) := by
  cases form <;> rw [eval] <;> infer_instance

instance (form : Form) (value : Value) : Grows (form.close value) := by
  rw [close]
  infer_instance

end Form

/-! ### Expressions -/

variable {operands : Scope → Eval Value} [∀ scope, Grows (operands scope)]

instance (scope : Scope) : Grows (formAhead operands scope) := by
  rw [formAhead]
  refine @grows_bind _ _ _ _ inferInstance fun form? => ?_
  cases form? with
  | none => infer_instance
  | some form =>
    -- the end of a form is `Form.close`, which keeps the sequence short
    exact inferInstanceAs (Grows (advance _ >>= fun _ => look _ >>= fun pos =>
      note (.dispatched form pos) >>= fun _ => form.eval operands scope >>= form.close))

instance (scope : Scope) : Grows (expressionAhead operands scope) := by
  rw [expressionAhead]
  refine @grows_bind _ _ _ _ inferInstance fun _ => ?_
  refine @grows_bind _ _ _ _ inferInstance fun next => ?_
  cases next <;> infer_instance

instance (limit : Option Int) (levels : Nat) (scope : Scope) :
    Grows (expressionWithin limit levels scope) := by
  induction levels generalizing scope with
  | zero =>
    rw [expressionWithin]
    infer_instance
  | succ levels ih =>
    rw [expressionWithin]
    infer_instance

end SExprCalc
