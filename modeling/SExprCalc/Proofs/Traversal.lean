import SExprCalc.Proofs.Growth

/-!
# Through the forms, once for all

What is said about an evaluation as it goes on, or about two of them side by side, has to be taken
through every form: through the loop over operands, the operands that must not be missing, the
bindings and the body. This module does so once. A `Traversal` is a relation between two runs with
one law for each elementary step that forms are made of, and `Traversal.eval_ends` concludes for
every form that it ends as it should if its operands do. Whoever has such a relation proves the
laws and never opens a form; a change of a form is a change of this module.

Little is supposed, so that it serves relations of different kinds:

* the cursors can be anywhere, also outside the text, and readers may fail;
* one of the two evaluations may be **gone**, ended by a fault that the other does not have. The
  other goes on alone, and all that is known of it is that its history grows;
* a property of a *single* run is a relation between the run and itself.
-/

namespace SExprCalc

open Eval

/-! ### What forms are made of -/

namespace Form

/-- Moves past spaces and looks at what lies ahead. -/
def nextChar : Eval (Option Char) := do
  skipSpaces
  peek

/-- Reads the name of a binding, if a binding lies ahead. -/
def bindingName? : Eval (Option String) := do
  skipSpaces
  if ← lookAhead bindingAhead then return some (← readIdentifier) else return none

/-- The scope in which a form evaluates its operands. -/
def inner : Form → Scope → Scope
  | eq, scope | letIn, scope => scope.child
  | _, scope => scope

/-- The run in which a form starts on its operands: only a `let` notes something before. -/
def begun (form : Form) (scope : Scope) (run : Run) : Run :=
  match form with
  | letIn => run.noted (.scopeOpened (form.inner scope).depth)
  | _ => run

instance {α β : Type} (a? : Option α) (x : Eval β) (f : α → Eval β) [Grows x] [∀ a, Grows (f a)] :
    Grows (a?.elim x f) :=
  match a? with
  | none => inferInstanceAs (Grows x)
  | some a => inferInstanceAs (Grows (f a))

/-- Whether an operand comes is decided by the next character alone: there has to be one, and it
must not close the form. -/
theorem operandAhead_eq : operandAhead = nextChar >>= fun next => pure (next.any (· != ')')) := by
  rw [operandAhead, nextChar, bind_assoc]

/-- One round of a sum or product: a closing parenthesis ends it, and anything else has to be an
operand. -/
theorem reduce_succ (form : Form) (combine : Binary64 → Binary64 → Binary64)
    (operand : Eval Value) (bound : Nat) (total : Binary64) :
    form.reduce combine operand (bound + 1) total = nextChar >>= fun next =>
      if next = some ')' then pure total
      else form.number operand >>= fun x =>
        form.reduce combine operand bound (combine total x) := by
  rw [reduce, nextChar, bind_assoc]

/-- One round of the bindings: without a name they end, and a name is bound, in the scope so far, to
the operand behind it. -/
theorem bindings_succ (operand : Scope → Eval Value) (bound : Nat) (scope : Scope) :
    bindings operand (bound + 1) scope = bindingName? >>= fun name? =>
      name?.elim (pure scope) fun name => operand scope >>= fun v =>
        bindings operand bound (scope.define name v) := by
  rw [bindings, bindingName?, bind_assoc]
  refine bind_congr fun _ => ?_
  rw [bind_assoc]
  refine bind_congr fun more => ?_
  cases more with
  | false => rfl
  | true => simp only [if_true, bind_assoc, pure_bind, Option.elim_some]

/-- Within the text, what lies ahead is what lies behind the spaces. -/
theorem nextChar_apply {run : Run} (h : run.Inside) :
    nextChar run = (.ok run.skipped.unread.head?, run.skipped) := by
  rw [nextChar, bind_of_ok (skipSpaces_apply h), peek_apply h.skipped]

/-- Within the text, the name of a binding that lies ahead is there to be read. -/
theorem bindingName?_apply {run : Run} (h : run.Inside) :
    let text := run.skipped.unread
    let length := Cursor.identifierLength text
    bindingName? run =
      if length != 0 && (text.drop length).head? != some ')' then
        (.ok (some (String.ofList (text.take length))), run.skipped.moved length)
      else (.ok none, run.skipped) := by
  intro text length
  rw [bindingName?, bind_of_ok (skipSpaces_apply h), bind_of_ok (bindingAhead_apply h.skipped)]
  split
  · rename_i hahead
    have hne : Cursor.identifierLength run.skipped.unread ≠ 0 := by
      intro hzero
      rw [hzero] at hahead
      cases hahead
    exact bind_of_ok (readIdentifier_apply h.skipped hne)
  · rfl

/-- For what lies ahead, a form has too few operands or too many. -/
inductive Miscounts : Option Char → Fault → Prop where
  /-- a division ends too early -/
  | tooFewOperands {next : Option Char} (h : ¬ next.any (· != ')') = true) :
      Miscounts next .tooFewOperands
  /-- a comparison ends too early -/
  | comparisonArity {next : Option Char} (h : ¬ next.any (· != ')') = true) :
      Miscounts next .comparisonArity
  /-- a division does not end in time -/
  | tooManyOperands {next : Option Char} (h : next.any (· != ')') = true) :
      Miscounts next .tooManyOperands

end Form

/-! ### Values that are refused -/

namespace Value

variable {v w : Value} {fault : Fault}

/-- A value is refused as a number for its kind, or because it is foreign. -/
theorem expectNumber_eq_error {form : String} (h : v.expectNumber form = .error fault) :
    (∃ kind, fault = .notNumber form kind) ∨ ∃ x, v = .foreign x ∧ fault = .unknownValue x := by
  cases v with
  | number x => cases h
  | foreign x =>
    cases h
    exact .inr ⟨x, rfl, rfl⟩
  | _ =>
    cases h
    exact .inl ⟨_, rfl⟩

theorem kind_eq_error (h : v.kind = .error fault) :
    ∃ x, v = .foreign x ∧ fault = .unknownValue x := by
  cases v with
  | foreign x =>
    cases h
    exact ⟨x, rfl, rfl⟩
  | _ => cases h

/-- Values cannot be compared if their kinds differ, or if one of them is foreign. -/
theorem compare_eq_error (h : v.compare w = .error fault) :
    (∃ left right, fault = .kindsDiffer left right) ∨
      ∃ x, (v = .foreign x ∨ w = .foreign x) ∧ fault = .unknownValue x := by
  rw [Value.compare] at h
  rcases hv : v.kind with f | left <;> rcases hw : w.kind with f' | right <;> rw [hv, hw] at h
  · obtain ⟨x, hx, rfl⟩ := kind_eq_error hv
    cases h
    exact .inr ⟨x, .inl hx, rfl⟩
  · obtain ⟨x, hx, rfl⟩ := kind_eq_error hv
    cases h
    exact .inr ⟨x, .inl hx, rfl⟩
  · obtain ⟨x, hx, rfl⟩ := kind_eq_error hw
    cases h
    exact .inr ⟨x, .inr hx, rfl⟩
  · simp only [bind, Except.bind] at h
    split at h
    · cases h
    · cases h
      exact .inl ⟨left, right, rfl⟩

/-- Only a foreign value cannot be printed. -/
theorem format_eq_error (h : v.format = .error fault) :
    ∃ x, v = .foreign x ∧ fault = .unknownValue x := by
  cases v with
  | foreign x =>
    cases h
    exact ⟨x, rfl, rfl⟩
  | boolean b => cases b <;> cases h
  | _ => cases h

/-- A form refuses the values of its operands. -/
inductive Refused (value : Value → Prop) : Fault → Prop where
  /-- an operand is no number -/
  | notNumber {fault : Fault} {v : Value} {form : Form} (hv : value v)
      (h : v.expectNumber form.head = .error fault) : Refused value fault
  /-- two operands cannot be compared -/
  | incomparable {fault : Fault} {v w : Value} (hv : value v) (hw : value w)
      (h : v.compare w = .error fault) : Refused value fault
  /-- an operand cannot be printed -/
  | unprintable {fault : Fault} {v : Value} (hv : value v)
      (h : v.format = .error fault) : Refused value fault

/-- Values are refused for their kinds, or because one of them is foreign. Whoever excludes foreign
values has only the first to deal with. -/
theorem Refused.mistyped_or_foreign {value : Value → Prop} (h : Refused value fault) :
    (∃ form kind, fault = .notNumber form kind) ∨
      (∃ left right, fault = .kindsDiffer left right) ∨
      ∃ x, value (.foreign x) ∧ fault = .unknownValue x := by
  cases h with
  | notNumber hv h =>
    obtain ⟨kind, rfl⟩ | ⟨x, rfl, rfl⟩ := expectNumber_eq_error h
    · exact .inl ⟨_, kind, rfl⟩
    · exact .inr (.inr ⟨x, hv, rfl⟩)
  | incomparable hv hw h =>
    obtain ⟨left, right, rfl⟩ | ⟨x, rfl | rfl, rfl⟩ := compare_eq_error h
    · exact .inr (.inl ⟨left, right, rfl⟩)
    · exact .inr (.inr ⟨x, hv, rfl⟩)
    · exact .inr (.inr ⟨x, hw, rfl⟩)
  | unprintable hv h =>
    obtain ⟨x, rfl, rfl⟩ := format_eq_error h
    exact .inr (.inr ⟨x, hv, rfl⟩)

end Value

/-! ### Two evaluations side by side -/

/-- How two evaluations can end in faults that have gone on side by side. -/
structure Parting where
  /-- they both end in this fault at these runs -/
  fault : Fault → Run → Run → Prop
  /-- the first has ended in a fault that the second does not have, and the second is at the other
  run -/
  gone : Fault → Run → Run → Prop
  /-- the second goes on alone -/
  gone_mono : ∀ {f r s s'}, gone f r s → s.history <:+ s'.history → gone f r s'

namespace Parting

variable {α β : Type} {E : Parting} {runs runs' : Run → Run → Prop} {P : α → α → Prop}
  {Q : β → β → Prop} {r s : Run}

/-- How two computations end that have gone on side by side: in results that correspond, in the same
fault, or with the first gone. -/
inductive Ends (E : Parting) (runs : Run → Run → Prop) (P : α → α → Prop) :
    Except Fault α × Run → Except Fault α × Run → Prop where
  /-- both have a result -/
  | ok {a b : α} {r s : Run} (h : P a b) (hr : runs r s) : Ends E runs P (.ok a, r) (.ok b, s)
  /-- both have a fault -/
  | error {f : Fault} {r s : Run} (h : E.fault f r s) : Ends E runs P (.error f, r) (.error f, s)
  /-- the first is gone -/
  | gone {f : Fault} {r : Run} {out : Except Fault α × Run} (h : E.gone f r out.2) :
      Ends E runs P (.error f, r) out

/-- What goes on side by side after computations side by side is side by side. -/
theorem Ends.bind {x y : Eval α} {f g : α → Eval β} [∀ b, Grows (g b)]
    (hx : E.Ends runs P (x r) (y s))
    (hf : ∀ a b r' s', x r = (.ok a, r') → P a b → runs r' s' →
      E.Ends runs' Q (f a r') (g b s')) :
    E.Ends runs' Q ((x >>= f) r) ((y >>= g) s) := by
  rcases hr : x r with ⟨fault | a, r'⟩ <;> rcases hs : y s with ⟨fault' | b, s'⟩ <;>
    rw [hr, hs] at hx
  · rw [bind_of_error hr, bind_of_error hs]
    cases hx with
    | error h => exact .error h
    | gone h => exact .gone h
  · -- the first is gone, and the second goes on with a longer history
    rw [bind_of_error hr, bind_of_ok hs]
    cases hx with
    | gone h => exact .gone (E.gone_mono h (Grows.grows s'))
  · cases hx
  · rw [bind_of_ok hr, bind_of_ok hs]
    cases hx with
    | ok h hrun => exact hf a b r' s' hr h hrun

theorem Ends.mono {out out' : Except Fault α × Run} (h : E.Ends runs P out out')
    (hruns : ∀ {r s}, runs r s → runs' r s) : E.Ends runs' P out out' := by
  cases h with
  | ok h hr => exact .ok h (hruns hr)
  | error h => exact .error h
  | gone h => exact .gone h

end Parting

/-- What two evaluations have in common as they go through the forms. -/
structure Traversal extends Parting where
  /-- both are at these runs -/
  runs : Run → Run → Prop
  /-- they evaluate in these scopes -/
  scopes : Scope → Scope → Prop
  /-- they both get this value -/
  value : Value → Prop
  /-- both have as much text left to read -/
  remaining : ∀ {r s}, runs r s → s.cursor.remaining = r.cursor.remaining
  /-- both look at what lies ahead -/
  nextChar : ∀ {r s}, runs r s → toParting.Ends runs Eq (Form.nextChar r) (Form.nextChar s)
  /-- both read the name of a binding, if there is one -/
  bindingName : ∀ {r s}, runs r s →
    toParting.Ends runs Eq (Form.bindingName? r) (Form.bindingName? s)
  /-- both print a line -/
  printed : ∀ {r s line}, runs r s → runs (r.noted (.printed line)) (s.noted (.printed line))
  /-- one more binding -/
  define : ∀ {σ τ name v}, scopes σ τ → value v → scopes (σ.define name v) (τ.define name v)
  /-- numbers are values -/
  number : ∀ x, value (.number x)
  /-- booleans are values -/
  boolean : ∀ b, value (.boolean b)
  /-- nil is a value -/
  nil : value .nil
  /-- both have looked at what lies ahead, and it does not fit the number of operands -/
  miscounted : ∀ {r s next r' s' f}, runs r s → Form.nextChar r = (.ok next, r') → runs r' s' →
    Form.Miscounts next f → fault f r' s'
  /-- both refuse the values of their operands -/
  refused : ∀ {r s f}, runs r s → Value.Refused value f → fault f r s

namespace Traversal

variable {α β : Type} {T : Traversal} {P : α → α → Prop} {Q : β → β → Prop} {r s : Run}

/-- Two computations that end side by side, wherever they start side by side. -/
def Related (T : Traversal) (P : α → α → Prop) (x y : Eval α) : Prop :=
  ∀ ⦃r s : Run⦄, T.runs r s → T.Ends T.runs P (x r) (y s)

/-- The same value. -/
def Same (T : Traversal) (v w : Value) : Prop := v = w ∧ T.value v

/-! ### Sequencing -/

theorem same (T : Traversal) {v : Value} (h : T.value v) : T.Same v v := ⟨rfl, h⟩

theorem related_pure {a b : α} (h : P a b) : T.Related P (pure a) (pure b) := fun _ _ hr => .ok h hr

theorem Related.bind {x y : Eval α} {f g : α → Eval β} [∀ b, Grows (g b)] (hx : T.Related P x y)
    (hf : ∀ a b, P a b → T.Related Q (f a) (g b)) : T.Related Q (x >>= f) (y >>= g) :=
  fun _ _ hr => (hx hr).bind fun a b _ _ _ h hr' => hf a b h hr'

/-- A result that both get goes into what both go on with. -/
theorem Related.bind_eq {x y : Eval α} {f g : α → Eval β} [∀ b, Grows (g b)]
    (hx : T.Related Eq x y) (hf : ∀ a, T.Related Q (f a) (g a)) :
    T.Related Q (x >>= f) (y >>= g) := by
  refine hx.bind ?_
  rintro a _ rfl
  exact hf a

/-- A value that both get goes into what both go on with. -/
theorem Related.bind_same {x y : Eval Value} {f g : Value → Eval β} [∀ b, Grows (g b)]
    (hx : T.Related T.Same x y) (hf : ∀ v, T.value v → T.Related Q (f v) (g v)) :
    T.Related Q (x >>= f) (y >>= g) := by
  refine hx.bind ?_
  rintro v _ ⟨rfl, hv⟩
  exact hf v hv

/-- What can be made of values is made of them, or they are refused. -/
theorem related_ofExcept {x : Except Fault α} (h : ∀ fault, x = .error fault →
    Value.Refused T.value fault) : T.Related Eq (ofExcept x) (ofExcept x) := by
  intro r s hr
  rw [ofExcept_apply, ofExcept_apply]
  cases x with
  | ok a => exact .ok rfl hr
  | error fault => exact .error (T.refused hr (h fault rfl))

/-- Both evaluations have the same number of rounds before them, since both have as much text left
to read. -/
theorem related_rounds : T.Related Eq Form.rounds Form.rounds := by
  intro r s hr
  exact .ok (congrArg (· + 1) (T.remaining hr).symm) hr

theorem related_printed (line : String) :
    T.Related Eq (note (.printed line)) (note (.printed line)) :=
  fun _ _ hr => .ok rfl (T.printed hr)

/-! ### Forms with operands -/

section

variable {x y : Eval Value}

/-- A form that needs a number takes the same one from both evaluations, or refuses the operand in
both. -/
theorem Related.number (hxy : T.Related T.Same x y) (form : Form) :
    T.Related Eq (form.number x) (form.number y) :=
  hxy.bind_same fun _ hv => related_ofExcept fun _ h => .notNumber hv h

/-- An operand that is there is evaluated by both, and one that is missing is missing for both. -/
theorem Related.required (hxy : T.Related T.Same x y) [Grows y] {missing : Fault}
    (hmissing : ∀ {next : Option Char}, ¬ next.any (· != ')') = true →
      Form.Miscounts next missing) :
    T.Related T.Same (Form.required missing x) (Form.required missing y) := by
  intro r s hr
  rw [Form.required, Form.required, Form.operandAhead_eq, bind_assoc, bind_assoc]
  refine (T.nextChar hr).bind ?_
  rintro next _ r' s' hnext rfl hr'
  rw [pure_bind, pure_bind]
  split
  · exact hxy hr'
  · rename_i hnone
    exact .error (T.miscounted hr hnext hr' (hmissing hnone))

/-- Sums and products over related operands are related. By induction on the rounds: both
evaluations see the same next character, so both end here or both read another operand. -/
theorem Related.reduce (hxy : T.Related T.Same x y) [Grows y] (form : Form)
    (combine : Binary64 → Binary64 → Binary64) (bound : Nat) (total : Binary64) :
    T.Related Eq (form.reduce combine x bound total) (form.reduce combine y bound total) := by
  induction bound generalizing total with
  | zero => exact related_pure rfl
  | succ bound ih =>
    rw [Form.reduce_succ, Form.reduce_succ]
    refine Related.bind_eq (fun _ _ hr => T.nextChar hr) fun next => ?_
    split
    · exact related_pure rfl
    · exact (hxy.number form).bind_eq fun _ => ih _

/-- Sums and products. -/
theorem Related.total (hxy : T.Related T.Same x y) [Grows y] (form : Form)
    (combine : Binary64 → Binary64 → Binary64) (first : Binary64) :
    T.Related T.Same (do return .number (← form.reduce combine x (← Form.rounds) first))
      (do return .number (← form.reduce combine y (← Form.rounds) first)) :=
  related_rounds.bind_eq fun bound => (hxy.reduce form combine bound first).bind_eq fun _ =>
    related_pure (T.same (T.number _))

/-- Both operands of a division have to be there, and no third one. -/
theorem Related.quotient (hxy : T.Related T.Same x y) [Grows y] :
    T.Related T.Same (Form.quotient x) (Form.quotient y) := by
  have hoperand := (hxy.required .tooFewOperands).number .div
  refine hoperand.bind_eq fun n => hoperand.bind_eq fun m => ?_
  intro r s hr
  rw [Form.operandAhead_eq, bind_assoc]
  refine (T.nextChar hr).bind ?_
  rintro next _ r' s' hnext rfl hr'
  rw [pure_bind]
  split
  · rename_i hmore
    exact .error (T.miscounted hr hnext hr' (.tooManyOperands hmore))
  · exact .ok (T.same (T.number _)) hr'

/-- A comparison of related operands is related: the same values have the same kinds, and compare
alike. -/
theorem Related.comparison (hxy : T.Related T.Same x y) [Grows y] :
    T.Related T.Same (Form.comparison x) (Form.comparison y) := by
  have hoperand := hxy.required .comparisonArity
  refine hoperand.bind_same fun v hv => hoperand.bind_same fun w hw => ?_
  exact (related_ofExcept fun _ h => .incomparable hv hw h).bind_eq fun b =>
    related_pure (T.same (T.boolean b))

/-- Printing related operands is related: both evaluations print the same line. -/
theorem Related.display (hxy : T.Related T.Same x y) [Grows y] :
    T.Related T.Same (Form.display x) (Form.display y) :=
  hxy.bind_same fun _ hv => (related_ofExcept fun _ h => .unprintable hv h).bind_eq fun line =>
    (related_printed line).bind_eq fun _ => related_pure (T.same T.nil)

end

/-! ### Bindings and bodies -/

variable {operand operand' : Scope → Eval Value} [∀ τ, Grows (operand' τ)] {σ τ : Scope}

/-- The scopes stay related as bindings are added to them. -/
theorem Related.bindings
    (hop : ∀ {σ τ}, T.scopes σ τ → T.Related T.Same (operand σ) (operand' τ)) (bound : Nat)
    (hσ : T.scopes σ τ) :
    T.Related T.scopes (Form.bindings operand bound σ) (Form.bindings operand' bound τ) := by
  induction bound generalizing σ τ with
  | zero => exact related_pure hσ
  | succ bound ih =>
    rw [Form.bindings_succ, Form.bindings_succ]
    refine Related.bind_eq (fun _ _ hr => T.bindingName hr) fun name? => ?_
    cases name? with
    | none => exact related_pure hσ
    | some name => exact (hop hσ).bind_same fun v hv => ih (T.define hσ hv)

/-- Every form ends side by side if its operands do. What a `let` notes before them is up to the
runs in which the form starts on its operands. -/
theorem eval_ends (hop : ∀ {σ τ}, T.scopes σ τ → T.Related T.Same (operand σ) (operand' τ))
    (form : Form) (hσ : T.scopes (form.inner σ) (form.inner τ))
    (hr : T.runs (form.begun σ r) (form.begun τ s)) :
    T.Ends T.runs T.Same (form.eval operand σ r) (form.eval operand' τ s) := by
  cases form with
  | add => exact (hop hσ).total .add Binary64.add _ hr
  | mult => exact (hop hσ).total .mult Binary64.mul _ hr
  | div => exact (hop hσ).quotient hr
  | eq => exact (hop hσ).comparison hr
  | letIn =>
    rw [Form.eval, Form.eval, Form.body, Form.body, bind_of_ok (note_eq_noted _ _),
      bind_of_ok (note_eq_noted _ _)]
    have hblock : T.Related T.Same
        (Form.rounds >>= fun bound => Form.bindings operand bound σ.child >>= operand)
        (Form.rounds >>= fun bound => Form.bindings operand' bound τ.child >>= operand') :=
      related_rounds.bind_eq fun bound =>
        (Related.bindings hop bound hσ).bind fun _ _ hσ' => hop hσ'
    exact hblock hr
  | print => exact (hop hσ).display hr

end Traversal

end SExprCalc
