import Mathlib.Data.List.Induction
import SExprCalc.Proofs.Unread
import SExprCalc.Scope.Tree

/-!
# Trees of scopes remember their history

What a scope of a tree answers can be told from the steps alone, without a tree: which scope was
created inside which (`parents`), and which values a name has been given in which scope (`given`).
The tree stores paths and bindings instead, so the two have to be kept together through every step
(`Follows.change`). The steps fall into three sorts (`Change`): one binds a name in one scope, one
adds a scope, and all others, an evaluation and a binding that is refused among them, change
nothing.

Evaluation needs a closer look, for it opens scopes and binds names in them. It gets the frames of
a scope as values, so the tree cannot change under it; but that alone does not tell *where* it
binds. `expressionInside` is an evaluation that goes astray as soon as it is in a scope which does
not end in some given frames, just as they were. Started in a scope that does, it is the ordinary
evaluation: all that it binds is bound in frames of its own, in front of those it was given.
-/

namespace SExprCalc

open Eval

/-! ### Where an evaluation binds names -/

/-- What goes on after a computation matters only for the results that it can have. -/
theorem Eval.bind_congr_of_ok {α β : Type} {x : Eval α} {f g : α → Eval β}
    (h : ∀ {run run' a}, x run = (.ok a, run') → f a = g a) : x >>= f = x >>= g := by
  funext run
  rcases hx : x run with ⟨fault | a, run'⟩
  · rw [bind_of_error hx, bind_of_error hx]
  · rw [bind_of_ok hx, bind_of_ok hx, h hx]

namespace Form

variable {operand operand' : Scope → Eval Value} {outer : List Bindings}

/-- Bindings are read into the scope itself; the scopes around it stay. -/
theorem outer_of_bindings_eq_ok {bound : Nat} {σ τ : Scope} {run run' : Run}
    (h : bindings operand bound σ run = (.ok τ, run')) : τ.outer = σ.outer := by
  induction bound generalizing σ run with
  | zero =>
    cases h
    rfl
  | succ bound ih =>
    rw [bindings] at h
    obtain ⟨_, run₁, -, h⟩ := bind_eq_ok h
    obtain ⟨ahead, run₂, -, h⟩ := bind_eq_ok h
    cases ahead with
    | false =>
      cases h
      rfl
    | true =>
      obtain ⟨name, run₃, -, h⟩ := bind_eq_ok h
      obtain ⟨value, run₄, -, h⟩ := bind_eq_ok h
      rw [ih h, Scope.define]

/-- Bindings are evaluated in scopes with the same scopes around them, so it matters only what
operands do in these. By induction on the rounds, since each binding changes the innermost scope
alone. -/
theorem bindings_congr (h : ∀ τ : Scope, τ.outer = outer → operand τ = operand' τ) (bound : Nat)
    {σ : Scope} (hσ : σ.outer = outer) : bindings operand bound σ = bindings operand' bound σ := by
  induction bound generalizing σ with
  | zero => rfl
  | succ bound ih =>
    have hmore (name : String) (value : Value) :
        bindings operand bound (σ.define name value) =
          bindings operand' bound (σ.define name value) := ih hσ
    simp only [bindings, h σ hσ, hmore]

/-- The same holds for the body, which is evaluated in the scope that the bindings leave. -/
theorem body_congr (h : ∀ τ : Scope, τ.outer = outer → operand τ = operand' τ) {σ : Scope}
    (hσ : σ.outer = outer) : body operand σ = body operand' σ := by
  have hinner (n : Nat) :
      (bindings operand n σ >>= operand) = bindings operand' n σ >>= operand' := by
    rw [bindings_congr h n hσ]
    exact bind_congr_of_ok fun hrun => h _ ((outer_of_bindings_eq_ok hrun).trans hσ)
  simp only [body, hinner]

/-- A form evaluates its operands in its own scope, or in one right inside it. -/
theorem eval_congr {σ : Scope}
    (h : ∀ τ : Scope, τ = σ ∨ τ.outer = σ.frames → operand τ = operand' τ) (form : Form) :
    form.eval operand σ = form.eval operand' σ := by
  cases form with
  | eq => simp only [eval, h σ.child (.inr rfl)]
  | letIn => exact body_congr (fun τ hτ => h τ (.inr hτ)) rfl
  | _ => simp only [eval, h σ (.inl rfl)]

end Form

/-- An expression evaluates others in its own scope, or in one right inside it. -/
theorem expressionAhead_congr {operand operand' : Scope → Eval Value} {σ : Scope}
    (h : ∀ τ : Scope, τ = σ ∨ τ.outer = σ.frames → operand τ = operand' τ) :
    expressionAhead operand σ = expressionAhead operand' σ := by
  simp only [expressionAhead, formAhead, Form.eval_congr h]

/-- Evaluates one expression, but goes astray in a scope that does not end in the given frames. -/
def expressionInside (frames : List Bindings) (astray : Scope → Eval Value) (limit : Option Int) :
    Nat → Scope → Eval Value
  | 0, _ => nested limit (fail (.stackExhausted limit))
  | levels + 1, scope =>
    nested limit (expressionAhead
      (fun σ => if frames <:+ σ.frames then expressionInside frames astray limit levels σ
        else astray σ) scope)

/-- An evaluation stays inside the frames that it starts in, and keeps them as they are. -/
theorem expressionInside_eq (frames : List Bindings) (astray : Scope → Eval Value)
    (limit : Option Int) (levels : Nat) {scope : Scope} (h : frames <:+ scope.frames) :
    expressionInside frames astray limit levels scope = expressionWithin limit levels scope := by
  induction levels generalizing scope with
  | zero => rfl
  | succ levels ih =>
    rw [expressionInside, expressionWithin]
    refine congrArg (nested limit) (expressionAhead_congr fun τ hτ => ?_)
    have hτ : frames <:+ τ.frames := by
      rcases hτ with rfl | hτ
      · exact h
      · rw [Scope.frames, hτ]
        exact h.trans (List.suffix_cons _ _)
    rw [if_pos hτ, ih hτ]

namespace Scope.Tree

/-! ### What a history tells -/

/-- The scope inside which a step creates one. -/
def Step.parent? (s : Step) : Option Nat :=
  match s.operation with
  | .child => some s.place
  | _ => none

/-- The value that a step gives to a name in a scope. -/
def Step.given? (s : Step) (i : Nat) (name : Name) : Option Value :=
  match s.operation with
  | .define (.text n) value => if s.place = i ∧ name = .text n then some value else none
  | _ => none

/-- The scopes inside which others have been created. The scope that was created first has the
number 1, so its parent comes at the place 0. -/
def parents (steps : List Step) : List Nat := steps.filterMap Step.parent?

/-- The values that a name has been given in a scope, the latest last. -/
def given (steps : List Step) (i : Nat) (name : Name) : List Value :=
  steps.filterMap (·.given? i name)

/-- The scopes from one scope to the root. -/
inductive Lineage (steps : List Step) : Nat → List Nat → Prop where
  /-- the root is there from the start -/
  | root : Lineage steps 0 [0]
  /-- any other scope was created inside its parent -/
  | child {i p : Nat} {path : List Nat} (h : (parents steps)[i]? = some p)
      (hp : Lineage steps p path) : Lineage steps (i + 1) ((i + 1) :: path)

/-- Every step is meant for a scope that exists by then. -/
def Valid (steps : List Step) : Prop :=
  ∀ k (h : k < steps.length), steps[k].place ≤ (parents (steps.take k)).length

instance (steps : List Step) : Decidable (Valid steps) :=
  inferInstanceAs (Decidable (∀ k (_ : k < steps.length), _))

variable {steps : List Step} {t t' : Tree} {s : Step} {i j : Nat}

/-- A scope has only one path to the root. -/
theorem Lineage.unique {path path' : List Nat} (h : Lineage steps i path)
    (h' : Lineage steps i path') : path = path' := by
  induction h generalizing path' with
  | root =>
    cases h'
    rfl
  | child hi hp ih =>
    cases h' with
    | child hi' hp' =>
      cases hi.symm.trans hi'
      rw [ih hp']

theorem parents_concat (steps : List Step) (s : Step) :
    parents (steps ++ [s]) = parents steps ++ s.parent?.toList := by
  cases h : s.parent? <;> simp [parents, h]

theorem given_concat (steps : List Step) (s : Step) (i : Nat) (name : Name) :
    given (steps ++ [s]) i name = given steps i name ++ (s.given? i name).toList := by
  cases h : s.given? i name <;> simp [given, h]

/-- A path is not changed by what is created later. -/
theorem Lineage.concat {path : List Nat} (h : Lineage steps i path) (s : Step) :
    Lineage (steps ++ [s]) i path := by
  induction h with
  | root => exact .root
  | child hi hp ih =>
    have hlt := (List.getElem?_eq_some_iff.1 hi).1
    refine .child ?_ ih
    rw [parents_concat, List.getElem?_append_left hlt, hi]

/-- A history is valid if it was so before its last step and that step is for a scope that exists.
-/
theorem Valid.of_concat (h : Valid (steps ++ [s])) :
    Valid steps ∧ s.place ≤ (parents steps).length := by
  constructor
  · intro k hk
    have hstep := h k (by simp; omega)
    rwa [List.getElem_append_left hk, List.take_append_of_le_length (Nat.le_of_lt hk)] at hstep
  · simpa using h steps.length (by simp)

/-! ### What a step changes -/

@[simp] theorem own_child (t : Tree) (p i : Nat) : (t.child p).own i = t.own i := by
  rcases Nat.lt_trichotomy i t.nodes.length with h | rfl | h
  · simp [own, child, List.getElem?_append_left h]
  · simp [own, child]
  · have h' : (t.child p).nodes.length ≤ i := by
      rw [child, List.length_append]
      exact h
    rw [own, own, List.getElem?_eq_none h', List.getElem?_eq_none (Nat.le_of_lt h)]

theorem path_child_of_lt (p : Nat) (h : i < t.nodes.length) : (t.child p).path i = t.path i := by
  simp [path, child, List.getElem?_append_left h]

@[simp] theorem path_child_self (t : Tree) (p : Nat) :
    (t.child p).path t.nodes.length = t.nodes.length :: t.path p := by
  simp [path, child]

/-- A name has been bound in one scope, and nothing else has happened. -/
structure Bound (t : Tree) (i : Nat) (name : String) (value : Value) (t' : Tree) : Prop where
  /-- there are as many scopes as before -/
  length : t'.nodes.length = t.nodes.length
  /-- they are inside each other as before -/
  path : ∀ j, t'.path j = t.path j
  /-- the name is bound in the scope -/
  own : t'.own i = (t.own i).set name value
  /-- no other scope has changed -/
  others : ∀ j, j ≠ i → t'.own j = t.own j

/-- What a step may do to a tree. -/
inductive Change (t : Tree) : Step → Tree → Prop where
  /-- it binds a name in its scope -/
  | bound {i : Nat} {name : String} {value : Value} {t' : Tree} (h : Bound t i name value t') :
      Change t ⟨i, .define (.text name) value⟩ t'
  /-- it adds a scope inside its scope -/
  | created {i : Nat} : Change t ⟨i, .child⟩ (t.child i)
  /-- it changes nothing -/
  | none {s : Step} (hparent : s.parent? = none) (hgiven : ∀ i name, s.given? i name = none) :
      Change t s t

/-- Binding a name in a scope changes the bindings of this scope and nothing else of the tree. -/
theorem bound_apply (maxDepth : Int) (h : i < t.nodes.length) (name : String) (value : Value) :
    Bound t i name value (t.apply maxDepth ⟨i, .define (.text name) value⟩).2 := by
  change Bound t i name value
    ⟨t.nodes.modify i fun node => { node with own := (t.own i).set name value }⟩
  refine ⟨List.length_modify .., fun j => ?_, ?_, fun j hj => ?_⟩
  · simp only [path, List.getElem?_modify]
    cases t.nodes[j]? with
    | none => rfl
    | some node => by_cases hij : i = j <;> simp [hij]
  · simp [own, List.getElem?_eq_getElem h]
  · simp only [own, List.getElem?_modify, if_neg (Ne.symm hj)]
    cases t.nodes[j]? <;> rfl

/-- A step that neither binds a name nor adds a scope leaves the tree as it is. -/
theorem Change.eq_self {operation : Operation} (h : Change t ⟨i, operation⟩ t')
    (hchild : operation ≠ .child)
    (hdefine : ∀ name value, operation ≠ .define (.text name) value) : t' = t := by
  cases h with
  | bound h => exact absurd rfl (hdefine _ _)
  | created => exact absurd rfl hchild
  | none hparent hgiven => rfl

/-- Every step does one of these. -/
theorem change_apply (maxDepth : Int) (h : s.place < t.nodes.length) :
    Change t s (t.apply maxDepth s).2 := by
  obtain ⟨i, operation⟩ := s
  cases operation with
  | child => exact .created
  | define name value =>
    cases name with
    | text name => exact .bound (bound_apply maxDepth h name value)
    | _ => exact .none rfl fun _ _ => rfl
  | _ => exact .none rfl fun _ _ => rfl

/-! ### The tree and its history -/

/-- A tree holds what its history tells. -/
structure Follows (steps : List Step) (t : Tree) : Prop where
  /-- there is the root, and one scope for every creation -/
  count : t.nodes.length = (parents steps).length + 1
  /-- paths follow the creations -/
  path : ∀ i < t.nodes.length, Lineage steps i (t.path i)
  /-- the value of a name is the last that it was given -/
  own : ∀ i name, (t.own i).find? name = (given steps i name).getLast?

theorem follows_nil : Follows [] {} where
  count := rfl
  path i hi := by
    obtain rfl : i = 0 := Nat.lt_one_iff.1 hi
    exact .root
  own i name := by
    cases i <;> cases name <;> rfl

/-- A new scope is empty, and its path is that of the scope it is created in, with itself in front.
-/
theorem Follows.child (h : Follows steps t) (hi : i < t.nodes.length) :
    Follows (steps ++ [⟨i, .child⟩]) (t.child i) where
  count := by
    rw [parents_concat]
    simp [Step.parent?, Tree.child, h.count]
  path j hj := by
    have hlt : j < t.nodes.length + 1 := by simpa [Tree.child] using hj
    rcases Nat.lt_succ_iff_lt_or_eq.1 hlt with hj | rfl
    · rw [path_child_of_lt i hj]
      exact (h.path j hj).concat _
    · -- the new scope is the last one, and its parent the last of the parents
      rw [path_child_self, h.count]
      refine .child ?_ ((h.path i hi).concat _)
      simp [parents_concat, Step.parent?]
  own j name := by
    rw [own_child, h.own, given_concat]
    simp [Step.given?]

/-- A binding is the last value that its name was given in its scope, and leaves paths and all other
values alone. -/
theorem Follows.bound {name : String} {value : Value} (h : Follows steps t)
    (hbound : Bound t i name value t') :
    Follows (steps ++ [⟨i, .define (.text name) value⟩]) t' where
  count := by
    rw [hbound.length, h.count, parents_concat]
    simp [Step.parent?]
  path j hj := by
    rw [hbound.length] at hj
    rw [hbound.path]
    exact (h.path j hj).concat _
  own j other := by
    rw [given_concat]
    by_cases hj : j = i
    · subst hj
      by_cases hname : other = .text name
      · subst hname
        simp [hbound.own, Step.given?, Bindings.find?]
      · simp [hbound.own, Bindings.find?_set_ne _ hname, h.own, Step.given?, hname]
    · simp [hbound.others j hj, h.own, Step.given?, Ne.symm hj]

/-- One step more is one step more of the history. -/
theorem Follows.change (h : Follows steps t) (hs : s.place < t.nodes.length)
    (hchange : Change t s t') : Follows (steps ++ [s]) t' := by
  cases hchange with
  | bound hbound => exact h.bound hbound
  | created => exact h.child hs
  | none hparent hgiven =>
    have hparents : parents (steps ++ [s]) = parents steps := by simp [parents_concat, hparent]
    have hsame (i : Nat) (name : Name) : given (steps ++ [s]) i name = given steps i name := by
      simp [given_concat, hgiven]
    exact ⟨by rw [hparents, h.count], fun i hi => (h.path i hi).concat _,
      fun i name => by rw [hsame, h.own]⟩

/-- Any number of steps. -/
theorem follows_stateAfter (maxDepth : Int) (hvalid : Valid steps) :
    Follows steps (stateAfter (apply maxDepth) {} steps) := by
  induction steps using List.reverseRecOn with
  | nil => exact follows_nil
  | append_singleton steps s ih =>
    obtain ⟨hvalid, hplace⟩ := hvalid.of_concat
    have hfollows := ih hvalid
    have hlt := Nat.lt_succ_of_le hplace
    rw [← Nat.add_one, ← hfollows.count] at hlt
    rw [stateAfter_concat]
    exact hfollows.change hlt (change_apply maxDepth hlt)

/-! ### What is found -/

/-- To look for the first result is to look for the first place that has one. -/
theorem findSome?_eq_bind_find? {α β : Type} (f : α → Option β) (l : List α) :
    l.findSome? f = (l.find? fun a => (f a).isSome).bind f := by
  induction l with
  | nil => rfl
  | cons a l ih => cases h : f a <;> simp [h, ih]

/-- The nearest scope in which a name has been given a value. -/
def nearest? (steps : List Step) (path : List Nat) (name : Name) : Option Nat :=
  path.find? fun j => given steps j name ≠ []

/-- The scope in which a name is found is the nearest one on the path in which the history has given
it a value. -/
theorem Follows.find?_eq (h : Follows steps t) (i : Nat) (name : Name) :
    t.find? i name = nearest? steps (t.path i) name := by
  have hcontains (j : Nat) : (t.own j).contains name = decide (given steps j name ≠ []) := by
    rw [Bindings.contains, h.own, Bool.eq_iff_iff, List.getLast?_isSome, decide_eq_true_iff]
  simp only [find?, nearest?, hcontains]

theorem frames_scope (t : Tree) (i : Nat) : (t.scope i).frames = (t.path i).map t.own := rfl

/-- The value found is the last that this nearest scope was given for the name. -/
theorem Follows.scope_find?_eq (h : Follows steps t) (i : Nat) (name : Name) :
    (t.scope i).find? name =
      (nearest? steps (t.path i) name).bind fun j => (given steps j name).getLast? := by
  rw [Scope.find?, frames_scope, List.findSome?_map, findSome?_eq_bind_find?, ← h.find?_eq, find?]
  simp only [Function.comp_def, Bindings.contains, h.own]

/-- What the three questions about a name answer in a tree that follows its history. -/
theorem Follows.answers (maxDepth : Int) (h : Follows steps t) (i : Nat) (name : Name) :
    match nearest? steps (t.path i) name with
    | some j => ∃ value, (given steps j name).getLast? = some value ∧
        (t.apply maxDepth ⟨i, .find name⟩).1 = .ok (.integer j) ∧
        (t.apply maxDepth ⟨i, .lookup name⟩).1 = .ok (.value value) ∧
        (t.apply maxDepth ⟨i, .resolve name⟩).1 = .ok (.value value)
    | none => (t.apply maxDepth ⟨i, .find name⟩).1 = .ok .done ∧
        (t.apply maxDepth ⟨i, .lookup name⟩).1 = .ok (.value (.foreign .absent)) ∧
        (t.apply maxDepth ⟨i, .resolve name⟩).1 = .error (.unbound name) := by
  have hfind := h.find?_eq i name
  have hscope := h.scope_find?_eq i name
  cases hj : nearest? steps (t.path i) name with
  | none =>
    rw [hj] at hfind hscope
    simp [apply, hfind, hscope, Answer.ofValue?, Scope.resolve, Except.map]
  | some j =>
    have hgiven : given steps j name ≠ [] := by simpa using List.find?_some hj
    obtain ⟨value, hvalue⟩ := Option.isSome_iff_exists.1 (List.getLast?_isSome.2 hgiven)
    rw [hj] at hfind hscope
    simp [apply, hfind, hscope, hvalue, Answer.ofValue?, Scope.resolve, Except.map]

/-- **A tree of scopes behaves as its history says.** After any steps that are meant for scopes that
exist, and for every scope `i` of the tree that they leave:

* the tree has as many scopes as were created, and the root;
* there is one path from `i` to the root. The depth of `i` is the number of the other scopes on
  it. The nearest scope on it in which a name has ever been given a value is the one that is found,
  and the last value given there is the one that is looked up; if there is none, nothing is found;
* a binding changes its scope and no other, and a new scope changes none of those that exist.
  Nothing else changes anything: a name that is not text is refused, questions only answer;
* an evaluation, whatever the text and however it ends, answers as one that would go astray in any
  scope but those inside the frames of `i` as they are. So all that it binds is out of sight for
  the scopes of the tree. -/
theorem outcomes_of_history (maxDepth : Int) {steps : List Step} (hvalid : Valid steps) {i : Nat}
    (hi : i ≤ (parents steps).length) :
    let t := stateAfter (apply maxDepth) {} steps
    let answer operation := (t.apply maxDepth ⟨i, operation⟩).1
    let next operation := (t.apply maxDepth ⟨i, operation⟩).2
    t.nodes.length = (parents steps).length + 1 ∧
    (∃ path, (∀ path', Lineage steps i path' ↔ path' = path) ∧
      answer .depth = .ok (.integer path.tail.length) ∧
      ∀ name, match nearest? steps path name with
        | some j => ∃ value, (given steps j name).getLast? = some value ∧
            answer (.find name) = .ok (.integer j) ∧
            answer (.lookup name) = .ok (.value value) ∧
            answer (.resolve name) = .ok (.value value)
        | none => answer (.find name) = .ok .done ∧
            answer (.lookup name) = .ok (.value (.foreign .absent)) ∧
            answer (.resolve name) = .error (.unbound name)) ∧
    (∀ name value, answer (.define (.text name) value) = .ok .done ∧
      Bound t i name value (next (.define (.text name) value))) ∧
    (∀ j ≤ (parents steps).length,
      (next .child).path j = t.path j ∧ (next .child).own j = t.own j) ∧
    (∀ name value, (∀ n, name ≠ .text n) → answer (.define name value) = .error (.badKey name)) ∧
    (∀ operation, operation ≠ .child → (∀ name value, operation ≠ .define (.text name) value) →
      next operation = t) ∧
    ∀ source astray, answer (.eval source) =
      (expressionInside ((t.path i).map t.own) astray (some maxDepth) stackLevels (t.scope i)
        { cursor := .ofString source }).1.map .value := by
  intro t answer next
  have hfollows : Follows steps t := follows_stateAfter maxDepth hvalid
  have hlt {j : Nat} (hj : j ≤ (parents steps).length) : j < t.nodes.length := by
    rw [hfollows.count]
    exact Nat.lt_succ_of_le hj
  have hpath := hfollows.path i (hlt hi)
  have hunique (path' : List Nat) : Lineage steps i path' ↔ path' = t.path i :=
    ⟨fun h => h.unique hpath, fun h => h ▸ hpath⟩
  refine ⟨hfollows.count, ⟨t.path i, hunique, ?_, hfollows.answers maxDepth i⟩,
    fun name value => ⟨rfl, bound_apply maxDepth (hlt hi) name value⟩,
    fun j hj => ⟨path_child_of_lt i (hlt hj), own_child t i j⟩, ?_,
    fun operation => (change_apply maxDepth (hlt hi)).eq_self, ?_⟩
  · simp [answer, apply, Scope.depth, scope]
  · intro name value hname
    cases name with
    | text n => exact absurd rfl (hname n)
    | _ => rfl
  · intro source astray
    rw [← frames_scope, expressionInside_eq _ astray _ _ (List.suffix_refl _)]
    rfl

/-- Two scopes inside the root, one inside the other. A name that is bound in the root afterwards is
seen from the innermost scope, but not where the scope between them has bound it too; a binding
under a number is refused, and what a text binds stays in the text. -/
theorem outcomes_of_history_shadowed :
    let steps : List Step := [⟨0, .child⟩, ⟨1, .child⟩, ⟨0, .define (.text "x") (.boolean true)⟩,
      ⟨1, .define (.text "x") (.boolean false)⟩, ⟨1, .define (.text "x") .nil⟩,
      ⟨2, .define (.integer 3) .nil⟩, ⟨0, .define (.text "y") (.boolean true)⟩,
      ⟨2, .eval "(let z 1 (add z x))"⟩]
    let answer operation := ((stateAfter (apply 100) {} steps).apply 100 ⟨2, operation⟩).1
    Valid steps ∧ 2 ≤ (parents steps).length ∧ answer .depth = .ok (.integer 2) ∧
      answer (.find (.text "x")) = .ok (.integer 1) ∧
      answer (.lookup (.text "x")) = .ok (.value .nil) ∧
      answer (.resolve (.text "y")) = .ok (.value (.boolean true)) ∧
      answer (.resolve (.text "z")) = .error (.unbound (.text "z")) := by
  intro steps answer
  have hvalid : Valid steps := by decide
  have hi : 2 ≤ (parents steps).length := by decide
  obtain ⟨-, ⟨path, hpath, hdepth, hnames⟩, -⟩ := outcomes_of_history 100 hvalid hi
  obtain rfl : [2, 1, 0] = path := (hpath _).1 (.child rfl (.child rfl .root))
  obtain ⟨x, hx, hfind, hlookup, -⟩ := hnames (.text "x")
  obtain ⟨y, hy, -, -, hresolve⟩ := hnames (.text "y")
  obtain ⟨-, -, hunbound⟩ := hnames (.text "z")
  cases hx
  cases hy
  exact ⟨hvalid, hi, hdepth, hfind, hlookup, hresolve, hunbound⟩

end Scope.Tree

end SExprCalc
