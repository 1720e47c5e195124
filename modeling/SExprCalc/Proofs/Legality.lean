import Mathlib.Control.Monad.Basic
import SExprCalc.Proofs.Lockstep

/-!
# Values stay legal, and only ordinary faults occur

A scope from outside may bind foreign values, and then evaluation can end in a fault of the library
itself. In a scope whose values are all of the language (`Scope.Legal`), it cannot: legality is
handed on to the scopes that forms open, so no operation ever meets a foreign value; every look at
the text happens inside it; and an identifier is read only where one lies ahead. What a form gives
is also known by the form alone (`Form.kind?`).

The invariant is a lockstep of a run with itself (`legality`).
-/

namespace SExprCalc

open Eval

/-! ### Legal scopes -/

namespace Scope

/-- Every value that the scope or one around it binds is a value of the language. -/
def Legal (scope : Scope) : Prop :=
  ∀ b ∈ scope.frames, ∀ entry ∈ b.entries, entry.2.Legal

instance (scope : Scope) : Decidable scope.Legal :=
  inferInstanceAs (Decidable (∀ b ∈ scope.frames, ∀ entry ∈ b.entries, entry.2.Legal))

variable {scope : Scope}

theorem Legal.child (h : scope.Legal) : scope.child.Legal := by
  intro b hb
  rcases List.mem_cons.mp hb with rfl | hb
  · intro entry hentry
    cases hentry
  · exact h b hb

/-- A new binding adds one value at most, in the place of the old one or at the end. -/
theorem mem_put {name : String} {value : Value} {entries : List (String × Value)}
    {entry : String × Value} (h : entry ∈ Bindings.put name value entries) :
    entry ∈ entries ∨ entry.2 = value := by
  induction entries with
  | nil =>
    rw [Bindings.put, List.mem_singleton] at h
    exact .inr (by rw [h])
  | cons first entries ih =>
    rw [Bindings.put] at h
    split at h
    · rcases List.mem_cons.mp h with rfl | h
      · exact .inr rfl
      · exact .inl (List.mem_cons_of_mem _ h)
    · rcases List.mem_cons.mp h with rfl | h
      · exact .inl (List.mem_cons_self ..)
      · exact (ih h).imp_left (List.mem_cons_of_mem _)

theorem Legal.define (h : scope.Legal) (name : String) {value : Value} (hv : value.Legal) :
    (scope.define name value).Legal := by
  intro b hb entry hentry
  rcases List.mem_cons.mp hb with rfl | hb
  · rcases mem_put hentry with hold | hnew
    · exact h scope.own (List.mem_cons_self ..) entry hold
    · rw [hnew]
      exact hv
  · exact h b (List.mem_cons_of_mem _ hb) entry hentry

/-- What a name stands for is legal. -/
theorem Legal.find? (h : scope.Legal) {name : Name} {value : Value}
    (hv : scope.find? name = some value) : value.Legal := by
  obtain ⟨before, b, after, hframes, hb, -⟩ := List.findSome?_eq_some_iff.mp hv
  have hmem : b ∈ scope.frames := by
    rw [hframes]
    simp
  cases name with
  | text s =>
    obtain ⟨l, l', hentries, -⟩ := List.lookup_eq_some_iff.mp hb
    exact h b hmem (s, value) (by rw [hentries]; simp)
  | _ => cases hb

end Scope

/-! ### Ordinary faults -/

namespace Fault

/-- A fault that a text can cause by itself: not one of the library, not one of a position outside
the text, and not a missing identifier, since identifiers are only read where they are. -/
def Ordinary (fault : Fault) : Prop :=
  fault.family ∈ [.malformed, .mistyped, .arity, .unbound, .depth] ∧
    ∀ rest, fault ≠ .expectedIdentifier rest

end Fault

/-- Where all values are legal, only ordinary faults are raised. -/
theorem ordinary_of_raised {fault : Fault} {run : Run} (h : Raised Value.Legal fault run) :
    fault.Ordinary := by
  cases h with
  | refused h =>
    obtain ⟨form, kind, rfl⟩ | ⟨left, right, rfl⟩ | ⟨x, hx, -⟩ := h.mistyped_or_foreign
    · exact ⟨by simp [Fault.family], by simp⟩
    · exact ⟨by simp [Fault.family], by simp⟩
    · cases hx
  | _ => exact ⟨by simp [Fault.family], by simp⟩

/-! ### The invariant -/

/-- In a legal scope, values stay legal and faults are ordinary. -/
def legality : Invariant where
  run := Run.Inside
  scope := Scope.Legal
  value := Value.Legal
  fault f _ := f.Ordinary
  inside hin := hin
  moved hin hn := hin.moved hn
  noted hin _ := hin.noted _
  child := Scope.Legal.child
  define hσ hv := hσ.define _ hv
  found hσ hv := hσ.find? hv
  number _ := rfl
  boolean _ := rfl
  nil := rfl
  raised _ h := ordinary_of_raised h

/-- How a computation ends under the invariant, with less text ahead than some number of
characters. -/
def EndsLegal (k : Nat) (out : Except Fault Value × Run) : Prop :=
  (legality.lockstep.below k).Ends legality.lockstep.Same out out

/-- Going into a level and coming back keeps the invariant; a level that is too deep is an ordinary
fault. -/
theorem EndsLegal.nested {limit : Option Int} {x : Eval Value} {run : Run} {k : Nat}
    (h : EndsLegal k (x run.deeper)) : EndsLegal k (Eval.nested limit x run) := by
  rcases within_or_beyond limit run.depth with hle | ⟨d, rfl, hlt⟩
  · rw [nested_of_le hle, thenLeave]
    rcases hout : x run.deeper with ⟨fault | v, run'⟩ <;> rw [hout] at h
    · cases h with
      | error h => exact .error ⟨rfl, h.2⟩
      | gone h => exact h.elim
    · cases h with
      | ok h hr => exact .ok h ⟨⟨rfl, hr.1.2⟩, hr.2⟩
  · rw [nested_of_lt hlt]
    exact .error ⟨rfl, by simp [Fault.family], by simp⟩

/-- With any number of levels, evaluation keeps the invariant. -/
theorem endsLegal_expressionWithin (limit : Option Int) (levels : Nat) {scope : Scope} {run : Run}
    {k : Nat} (hscope : scope.Legal) (hin : run.Inside) (hk : run.unread.length < k) :
    EndsLegal k (expressionWithin limit levels scope run) := by
  induction levels generalizing scope run k with
  | zero => exact .nested (.error ⟨rfl, by simp [Fault.family], by simp⟩)
  | succ levels ih =>
    have hdeeper : (legality.lockstep.below k).runs run.deeper run.deeper := ⟨⟨rfl, hin⟩, hk⟩
    refine .nested (Lockstep.expressionAhead_ends hdeeper ?_ ⟨rfl, hscope⟩)
    rintro σ _ ⟨rfl, hσ⟩ r _ ⟨⟨rfl, hr⟩, hless⟩
    exact ih hσ hr hless

/-- Evaluating a whole text in a legal scope gives a legal value or an ordinary fault, under any
limit. -/
theorem legal_of_evaluate {scope : Scope} (hscope : scope.Legal) (source : String)
    (maxDepth : Int) :
    match (evaluate source scope maxDepth).result with
    | .ok v => v.Legal
    | .error fault => fault.Ordinary := by
  have hends := endsLegal_expressionWithin (some maxDepth) stackLevels hscope
    (Run.inside_ofString source) (Nat.lt_succ_self _)
  rw [result_evaluate]
  rcases hout : expressionWithin (some maxDepth) stackLevels scope
    { cursor := .ofString source } with ⟨fault | v, run'⟩ <;> rw [hout] at hends
  · cases hends with
    | error h => exact h.2
    | gone h => exact h.elim
  · cases hends with
    | ok h _ => exact h.2

/-! ### The kinds of forms -/

/-- The kind of what a form gives, if that is known: a `let` gives what its body gives. -/
def Form.kind? : Form → Option Kind
  | add | mult | div => some .number
  | eq => some .boolean
  | letIn => none
  | print => some .nil

variable {run run' : Run} {scope : Scope} {v : Value} {form : Form}

/-- Whatever its operands are, a form gives a value of its kind. Only `let` has none of its own, as
it gives what its body does. -/
theorem kind?_of_eval {operand : Scope → Eval Value}
    (h : form.eval operand scope run = (.ok v, run')) :
    ∀ kind ∈ form.kind?, v.kind? = some kind := by
  intro kind hkind
  cases form with
  | add | mult =>
    obtain ⟨bound, run₁, -, h⟩ := bind_eq_ok h
    obtain ⟨total, run₂, -, h⟩ := bind_eq_ok h
    cases h
    exact hkind
  | div =>
    obtain ⟨n, run₁, -, h⟩ := bind_eq_ok h
    obtain ⟨m, run₂, -, h⟩ := bind_eq_ok h
    -- a third operand is a fault, so there is none
    obtain ⟨more, run₃, -, h⟩ := bind_eq_ok h
    cases more with
    | true => cases h
    | false =>
      cases h
      exact hkind
  | eq =>
    obtain ⟨a, run₁, -, h⟩ := bind_eq_ok h
    obtain ⟨b, run₂, -, h⟩ := bind_eq_ok h
    obtain ⟨r, run₃, -, h⟩ := bind_eq_ok h
    cases h
    exact hkind
  | letIn =>
    -- nothing is said about a `let`
    cases hkind
  | print =>
    obtain ⟨a, run₁, -, h⟩ := bind_eq_ok h
    obtain ⟨line, run₂, -, h⟩ := bind_eq_ok h
    obtain ⟨_, run₃, -, h⟩ := bind_eq_ok h
    cases h
    exact hkind

/-- The expression ahead of a run, where it is a form that succeeds, has the kind of that form. -/
theorem kind?_of_expressionWithin {limit : Option Int} {levels : Nat} {more : List Char}
    (hin : run.Inside) (hu : run.skipped.unread = '(' :: (form.head.toList ++ more))
    (h : expressionWithin limit levels scope run = (.ok v, run')) :
    ∀ kind ∈ form.kind?, v.kind? = some kind := by
  cases levels with
  | zero =>
    obtain ⟨-, run₁, h, -⟩ := nested_eq_ok h
    cases h
  | succ levels =>
    obtain ⟨-, run₁, h, -⟩ := nested_eq_ok h
    have hin' : run.deeper.Inside := hin
    have hu' : run.deeper.skipped.unread = '(' :: (form.head.toList ++ more) := hu
    have hmoved : (run.deeper.skipped.moved 1).Inside := hin'.skipped.moved (by simp [hu'])
    have hhead : form.head.toList <+: (run.deeper.skipped.moved 1).unread := by
      rw [Run.unread_moved hin'.skipped, hu']
      exact List.prefix_append _ _
    rw [expressionAhead_apply hin', hu'] at h
    simp only [List.head?_cons, if_true] at h
    rw [formAhead_apply hmoved, Form.ahead?_eq_some_iff.mpr hhead] at h
    obtain ⟨w, run₂, hw, h⟩ := bind_eq_ok h
    obtain ⟨_, run₃, -, h⟩ := bind_eq_ok h
    obtain ⟨_, run₄, -, h⟩ := bind_eq_ok h
    obtain ⟨pos, run₅, -, h⟩ := bind_eq_ok h
    obtain ⟨_, run₆, -, h⟩ := bind_eq_ok h
    cases h
    exact kind?_of_eval hw

/-! ### The theorem -/

/-- In a scope that binds no foreign value, the evaluation of any text with any limit gives a value
of the language or ends in an ordinary fault. A form that succeeds, wherever it stands in a text,
gives a value of its kind. -/
theorem evaluate_legal (hscope : scope.Legal) (source : String) (maxDepth : Int) :
    (match (evaluate source scope maxDepth).result with
      | .ok v => v.Legal
      | .error fault => fault.Ordinary) ∧
    ∀ (limit : Option Int) (levels : Nat) (scope' : Scope) (run run' : Run) (form : Form)
      (more : List Char) (v : Value), run.Inside →
      run.skipped.unread = '(' :: (form.head.toList ++ more) →
      expressionWithin limit levels scope' run = (.ok v, run') →
      ∀ kind ∈ form.kind?, v.kind? = some kind := by
  exact ⟨legal_of_evaluate hscope source maxDepth,
    fun _ _ _ _ _ _ _ _ hin hu h => kind?_of_expressionWithin hin hu h⟩

/-- A scope with a legal value. -/
def flagScope : Scope := { own := ⟨[("x", .boolean true)]⟩ }

/-- A boolean is a legal value, and adding it is an ordinary fault; a comparison gives a boolean. -/
theorem evaluate_legal_flag :
    flagScope.Legal ∧
      (evaluate "(add 1 x)" flagScope 2).result = .error (.notNumber "add" .boolean) ∧
      (Fault.notNumber "add" .boolean).Ordinary ∧
      ∃ v, (evaluate " (eqx(eq 1 1))" flagScope 3).result = .ok v ∧ v.kind? = some .boolean := by
  have hscope : flagScope.Legal := by decide
  have hadd : (evaluate "(add 1 x)" flagScope 2).result = .error (.notNumber "add" .boolean) := by
    decide +kernel
  have heq : (evaluate " (eqx(eq 1 1))" flagScope 3).result = .ok (.boolean true) := by
    decide +kernel
  have hu : (Run.skipped { cursor := .ofString " (eqx(eq 1 1))" }).unread =
      '(' :: (Form.eq.head.toList ++ "x(eq 1 1))".toList) := by
    decide +kernel
  have hlegal := evaluate_legal hscope "(add 1 x)" 2
  rw [hadd] at hlegal
  refine ⟨hscope, hadd, hlegal.1, .boolean true, heq, ?_⟩
  rw [result_evaluate] at heq
  rcases hout : expressionWithin (some 3) stackLevels flagScope
    { cursor := .ofString " (eqx(eq 1 1))" } with ⟨result, run'⟩
  rw [hout] at heq
  subst heq
  exact hlegal.2 _ _ _ _ _ _ _ _ (Run.inside_ofString _) hu hout .boolean rfl

end SExprCalc
