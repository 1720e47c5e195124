import SExprCalc.Proofs.Locality

/-!
# Only what names stand for matters about a scope

Evaluation asks a scope for nothing but the values of names, and every name it asks for is a piece
of the text. So two scopes in which each piece of a text stands for the same, or for nothing in
either, cannot be told apart by evaluating that text, however their bindings are spread over frames
and whatever is hidden or never asked for (`Scope.AgreeOn`).

The two evaluations are in lockstep at the *same* cursor of the same text. Which names are looked up
does not follow from the tokens of the text, since a head or a number may end in the middle of a
word; but a name that is read is always a start of the unread text, hence a piece of the whole.
What a form binds it binds in both scopes, and a scope inside another adds nothing, so agreement is
handed on.
-/

namespace SExprCalc

open Eval

/-! ### Scopes that agree -/

namespace Scope

/-- Every piece of a text is a name for the same value in both scopes, or is bound in neither. -/
def AgreeOn (text : List Char) (σ τ : Scope) : Prop :=
  ∀ name : String, name.toList <:+: text → σ.find? (.text name) = τ.find? (.text name)

variable {text : List Char} {σ τ : Scope}

theorem AgreeOn.child (h : AgreeOn text σ τ) : AgreeOn text σ.child τ.child := by
  intro name hname
  rw [find?_child, find?_child]
  exact h name hname

theorem agreeOn_child (text : List Char) (σ : Scope) : AgreeOn text σ.child σ := by
  intro name _
  rw [find?_child]

/-- A binding made in both scopes is seen in both, and hides the same name. -/
theorem AgreeOn.define (h : AgreeOn text σ τ) (name : String) (v : Value) :
    AgreeOn text (σ.define name v) (τ.define name v) := by
  intro other hother
  exact find?_define_congr (h other hother) name v

/-! ### Frames -/

/-- A name is looked for from the last frame to the first. -/
theorem find?_ofFrames (frames : List Bindings) (name : Name) :
    (ofFrames frames).find? name = frames.reverse.findSome? (·.find? name) := by
  rw [ofFrames]
  cases frames.reverse with
  | nil => cases name <;> rfl
  | cons own outer => rfl

/-- An empty frame makes no difference. -/
theorem agreeOn_emptyFrame (text : List Char) (outer inner : List Bindings) :
    AgreeOn text (ofFrames (outer ++ {} :: inner)) (ofFrames (outer ++ inner)) := by
  intro name _
  simp [find?_ofFrames, Bindings.find?, List.findSome?_cons]

/-- A binding makes no difference if its name is not a piece of the text, or if a frame further in
binds the name too. -/
theorem agreeOn_set (outer inner : List Bindings) (b : Bindings) {name : String} (v : Value)
    (h : ¬ name.toList <:+: text ∨ ∃ b' ∈ inner, b'.contains (.text name) = true) :
    AgreeOn text (ofFrames (outer ++ b.set name v :: inner)) (ofFrames (outer ++ b :: inner)) := by
  intro other hother
  simp only [find?_ofFrames, List.reverse_append, List.reverse_cons, List.append_assoc,
    List.findSome?_append]
  by_cases hname : other = name
  · subst hname
    obtain ⟨b', hmem, hbound⟩ := h.resolve_left (not_not_intro hother)
    -- the frame further in is met first
    have hfound : (inner.reverse.findSome? (·.find? (.text other))).isSome = true :=
      List.findSome?_isSome_iff.mpr ⟨b', List.mem_reverse.mpr hmem, hbound⟩
    obtain ⟨w, hw⟩ := Option.isSome_iff_exists.mp hfound
    simp [hw]
  · have hset : (b.set name v).find? (.text other) = b.find? (.text other) :=
      Bindings.get?_set_ne b hname v
    simp [hset]

end Scope

/-! ### Two evaluations of one text -/

/-- Evaluation of one text in two scopes that agree on it. -/
def agreement (source : List Char) : Lockstep where
  runs r s := Run.Translated [] r s ∧ r.cursor.source = source
  scopes := Scope.AgreeOn source
  value _ := True
  fault _ := Run.Translated []
  gone _ _ _ := False
  inside h := ⟨h.1.inside, h.1.inside_second⟩
  unread h := h.1.unread
  moved h hn := ⟨h.1.moved hn, h.2⟩
  dispatched h := ⟨h.1.noted rfl, h.2⟩
  closed h := ⟨h.1.noted rfl, h.2⟩
  printed h := ⟨h.1.noted rfl, h.2⟩
  scopeOpened h _ := ⟨h.1.noted rfl, h.2⟩
  child hσ := hσ.child
  define hσ _ := hσ.define _ _
  find? {r s σ τ x} h hσ hx := by
    -- the unread text ends the whole text, so what starts the one is a piece of the other
    refine hσ x.name ?_
    rw [Identifier.name, String.toList_ofList, ← h.2]
    exact hx.isInfix.trans (List.drop_suffix _ _).isInfix
  found _ _ := trivial
  number _ := trivial
  boolean _ := trivial
  nil := trivial
  raised h _ := h.1
  gone_mono h _ := h

theorem nests_agreement (source : List Char) (limit : Option Int) :
    (agreement source).Nests limit where
  depth h := h.1.depth
  deeper h := ⟨h.1.deeper, h.2⟩
  shallower h := ⟨h.1.shallower, h.2⟩
  fault_shallower h := h.shallower
  tooDeep h := h.1.deeper
  exhausted h := h.1
  together h := h

/-- The evaluation that a computation makes, started in a run. -/
def Eval.evaluation (x : Eval Value) (run : Run) : Evaluation := ⟨(x run).1, (x run).2⟩

/-- Two evaluations that nobody can tell apart: the same value or fault, the same text printed, and
the cursor at the same place. -/
structure Evaluation.Indistinct (a b : Evaluation) : Prop where
  /-- the same value or fault -/
  result : a.result = b.result
  /-- the same text printed -/
  output : a.run.output = b.run.output
  /-- the same place of the same text -/
  cursor : a.run.cursor = b.run.cursor

theorem Run.Translated.cursor_eq {r s : Run} (h : Run.Translated [] r s) :
    r.cursor = s.cursor := by
  rw [h.cursor, Cursor.behind]
  simp

/-- Evaluations in lockstep end in ways that nobody can tell apart: the runs may differ in their
histories, but not in what these print. -/
theorem indistinct_of_ends {source : List Char} {x y : Eval Value} {r s : Run}
    (h : (agreement source).Ends (agreement source).Same (x r) (y s)) :
    (x.evaluation r).Indistinct (y.evaluation s) := by
  rw [Eval.evaluation, Eval.evaluation]
  generalize x r = out, y s = out' at h
  cases h with
  | ok h hr =>
    exact ⟨congrArg Except.ok h.1, (Run.output_eq hr.1.printed).symm, hr.1.cursor_eq⟩
  | error h => exact ⟨rfl, (Run.output_eq h.printed).symm, h.cursor_eq⟩
  | gone h => exact h.elim

variable {σ τ : Scope} {run : Run}

/-- Wherever an expression stands in a text, scopes that agree on the text evaluate it alike. -/
theorem related_of_agreeOn {source : List Char} (limit : Option Int) (levels : Nat)
    (h : σ.AgreeOn source τ) :
    (agreement source).Related (agreement source).Same (expressionWithin limit levels σ)
      (expressionWithin limit levels τ) := by
  intro r s hr
  have hbelow : ((agreement source).below (r.unread.length + 1)).runs r s :=
    ⟨hr, Nat.lt_succ_self _⟩
  exact ((nests_agreement source limit).expressionWithin_ends levels h hbelow).mono fun h => h.1

theorem agreement_runs_self (hin : run.Inside) : (agreement run.cursor.source).runs run run :=
  ⟨⟨hin, by simp [Cursor.behind], rfl, rfl⟩, rfl⟩

theorem indistinct_expressionWithin (limit : Option Int) (levels : Nat) (hin : run.Inside)
    (h : σ.AgreeOn run.cursor.source τ) :
    ((expressionWithin limit levels σ).evaluation run).Indistinct
      ((expressionWithin limit levels τ).evaluation run) :=
  indistinct_of_ends (related_of_agreeOn limit levels h (agreement_runs_self hin))

/-- The scope of its own in which `eq` evaluates its operands makes no difference. -/
theorem indistinct_comparison (limit : Option Int) (levels : Nat) (hin : run.Inside)
    (scope : Scope) :
    ((Form.eq.eval (expressionWithin limit levels) scope).evaluation run).Indistinct
      ((Form.comparison (expressionWithin limit levels scope)).evaluation run) := by
  have hoperand := related_of_agreeOn limit levels
    (Scope.agreeOn_child run.cursor.source scope)
  exact indistinct_of_ends (hoperand.comparison (agreement_runs_self hin))

/-! ### The theorem -/

theorem indistinct_evaluate (source : String) (maxDepth : Int)
    (h : σ.AgreeOn source.toList τ) :
    (evaluate source σ maxDepth).Indistinct (evaluate source τ maxDepth) :=
  indistinct_expressionWithin (some maxDepth) stackLevels (Run.inside_ofString source) h

/-- The evaluation of a text depends on its scope only by what the names in the text stand for, with
any limit: in two scopes in which every piece of the text stands for the same value or for none, it
ends in the same value or the same fault, prints the same and leaves the cursor at the same place.
In particular none of these ever makes a difference:

* a scope of its own inside the given one, and an empty frame anywhere in the chain;
* a binding whose name does not occur in the text, or that another one further in hides;
* that `eq` has a scope of its own: the comparison in the scope around it is the same. -/
theorem evaluate_indistinct_of_agreeOn (source : String) (maxDepth : Int) :
    (∀ σ τ : Scope,
      (∀ name : String, name.toList <:+: source.toList →
        σ.find? (.text name) = τ.find? (.text name)) →
      (evaluate source σ maxDepth).Indistinct (evaluate source τ maxDepth)) ∧
    (∀ scope : Scope,
      (evaluate source scope.child maxDepth).Indistinct (evaluate source scope maxDepth)) ∧
    (∀ outer inner : List Bindings,
      (evaluate source (.ofFrames (outer ++ {} :: inner)) maxDepth).Indistinct
        (evaluate source (.ofFrames (outer ++ inner)) maxDepth)) ∧
    (∀ (outer inner : List Bindings) (b : Bindings) (name : String) (v : Value),
      (¬ name.toList <:+: source.toList ∨ ∃ b' ∈ inner, b'.contains (.text name) = true) →
      (evaluate source (.ofFrames (outer ++ b.set name v :: inner)) maxDepth).Indistinct
        (evaluate source (.ofFrames (outer ++ b :: inner)) maxDepth)) ∧
    ∀ (limit : Option Int) (levels : Nat) (scope : Scope) (run : Run), run.Inside →
      ((Form.eq.eval (expressionWithin limit levels) scope).evaluation run).Indistinct
        ((Form.comparison (expressionWithin limit levels scope)).evaluation run) := by
  refine ⟨?_, ?_, ?_, ?_, ?_⟩
  · intro σ τ h
    exact indistinct_evaluate source maxDepth h
  · intro scope
    exact indistinct_evaluate source maxDepth (Scope.agreeOn_child _ scope)
  · intro outer inner
    exact indistinct_evaluate source maxDepth (Scope.agreeOn_emptyFrame _ outer inner)
  · intro outer inner b name v h
    exact indistinct_evaluate source maxDepth (Scope.agreeOn_set outer inner b v h)
  · intro limit levels scope run hin
    exact indistinct_comparison limit levels hin scope

/-- A scope that binds `x` and nothing else. -/
def bareScope : Scope := .ofFrames [⟨[("x", .boolean false)]⟩]

/-- A scope with the same `x`, another one hidden behind it, an empty frame and a foreign `y`. -/
def clutteredScope : Scope :=
  .ofFrames [⟨[("y", .foreign .absent), ("x", .nil)]⟩, {}, ⟨[("x", .boolean false)]⟩]

/-- In a text without a `y` the two scopes cannot be told apart; the name `x` is found in it right
behind the head of a form. -/
theorem evaluate_indistinct_of_agreeOn_cluttered :
    (∀ name : String, name.toList <:+: "(eqx(let z x z))".toList →
      clutteredScope.find? (.text name) = bareScope.find? (.text name)) ∧
    (evaluate "(eqx(let z x z))" clutteredScope 3).result = .ok (.boolean true) := by
  have hagree : ∀ name : String, name.toList <:+: "(eqx(let z x z))".toList →
      clutteredScope.find? (.text name) = bareScope.find? (.text name) := by
    intro name hname
    have hy : name ≠ "y" := by
      rintro rfl
      have hmem := hname.subset (show 'y' ∈ "y".toList by simp)
      simp at hmem
    by_cases hx : name = "x"
    · simp [clutteredScope, bareScope, Scope.find?_ofFrames, Bindings.find?, Bindings.get?, hx]
    · simp [clutteredScope, bareScope, Scope.find?_ofFrames, Bindings.find?, Bindings.get?,
        List.findSome?_cons, List.lookup_cons, beq_false_of_ne hx, beq_false_of_ne hy]
  have hbare : (evaluate "(eqx(let z x z))" bareScope 3).result = .ok (.boolean true) := by
    decide +kernel
  have hsame := (evaluate_indistinct_of_agreeOn "(eqx(let z x z))" 3).1 _ _ hagree
  exact ⟨hagree, hsame.result.trans hbare⟩

end SExprCalc
