import SExprCalc.Proofs.BoundedMeaning

/-!
# Many bindings are one binding after the other

A `let` with several bindings is the nest of `let`s with one binding each. The two differ in where
the bindings are kept: the one overwrites them in a single frame as it goes, the other puts each
into a frame of its own inside the one before, so that a name bound again hides the earlier binding
and does not replace it. Since only what a name stands for matters, the meanings are the same.

They also differ in depth: the nest takes a level more for every binding. So it can be cut off by a
limit where the other is not, but what it means otherwise the other means within the same levels
(`Expr.nest_upToCut_letIn`). The theorem is about texts, which are written plainly
(`Expr.text`).
-/

namespace SExprCalc

open Eval

/-! ### Plain texts -/

/-- A form around a text, closed at once. -/
def Form.enclose (form : Form) (t : List Char) : List Char :=
  '(' :: (form.head.toList ++ (t ++ [')']))

namespace Expr

mutual

/-- The plain text of an expression: one space before each part, and no other space. -/
def text : Expr → List Char
  | number n => n.text
  | name x => x.text
  | add es => Form.add.enclose (textAll es)
  | mult es => Form.mult.enclose (textAll es)
  | div a b => Form.div.enclose (' ' :: (a.text ++ ' ' :: b.text))
  | eq a b => Form.eq.enclose (' ' :: (a.text ++ ' ' :: b.text))
  | letIn bs body => Form.letIn.enclose (textBindings bs ++ ' ' :: body.text)
  | print a => Form.print.enclose (' ' :: a.text)

/-- The plain text of expressions one after the other. -/
def textAll : List Expr → List Char
  | [] => []
  | e :: es => ' ' :: (e.text ++ textAll es)

/-- The plain text of bindings. -/
def textBindings : List (Identifier × Expr) → List Char
  | [] => []
  | (x, e) :: bs => ' ' :: (x.text ++ ' ' :: (e.text ++ textBindings bs))

end

/-- The plain text of an expression as a string. -/
def source (e : Expr) : String := String.ofList e.text

theorem endsBefore_textAll (e : Expr) (es : List Expr) : e.EndsBefore (textAll es) := by
  cases es with
  | nil => exact e.endsBefore_nil
  | cons => exact e.endsBefore_space _

end Expr

theorem InnerLayout.written {f : Form} {e : Expr} {t : List Char} (h : InnerLayout f e t) :
    Written e (f.enclose t) :=
  .form 0 h fun _ => rfl

theorem operandsLayout_one {a : Expr} {t : List Char} (ha : Written a t) :
    OperandsLayout [a] (' ' :: t) := by
  have h : OperandsLayout [a] (spaces 1 ++ (t ++ [])) := .cons 1 ha a.endsBefore_nil .nil
  rwa [List.append_nil] at h

theorem operandsLayout_two {a b : Expr} {t u : List Char} (ha : Written a t) (hb : Written b u) :
    OperandsLayout [a, b] (' ' :: (t ++ ' ' :: u)) :=
  .cons 1 ha (a.endsBefore_space u) (operandsLayout_one hb)

namespace Expr

mutual

/-- The plain text is a text of the expression. -/
theorem written_text : (e : Expr) → Written e e.text
  | number n => .number n
  | name x => .name x
  | add es => (InnerLayout.add (operandsLayout_textAll es)).written
  | mult es => (InnerLayout.mult (operandsLayout_textAll es)).written
  | div a b => (InnerLayout.div (operandsLayout_two a.written_text b.written_text)).written
  | eq a b => (InnerLayout.eq (operandsLayout_two a.written_text b.written_text)).written
  | letIn bs body => (InnerLayout.letIn (blockLayout_textBindings bs body.written_text)).written
  | print a => (InnerLayout.print (operandsLayout_one a.written_text)).written

theorem operandsLayout_textAll : (es : List Expr) → OperandsLayout es (textAll es)
  | [] => .nil
  | e :: es => .cons 1 e.written_text (e.endsBefore_textAll es) (operandsLayout_textAll es)

/-- Bindings and a body, with one space before each of them, are laid out as a block. -/
theorem blockLayout_textBindings : (bs : List (Identifier × Expr)) → {body : Expr} →
    {t : List Char} → Written body t → BlockLayout bs body (textBindings bs ++ ' ' :: t)
  | [], _, _, hbody => .body 1 hbody
  | (x, e) :: bs, body, t, hbody => by
    have hends : e.EndsBefore (textBindings bs ++ ' ' :: t) := by
      cases bs with
      | nil => exact e.endsBefore_space _
      | cons b bs => exact e.endsBefore_space _
    have h : BlockLayout ((x, e) :: bs) body (spaces 1 ++ (x.text ++ (spaces 1 ++
        (e.text ++ (textBindings bs ++ ' ' :: t))))) :=
      .bind 1 1 (stopsAt_cons.mpr rfl) e.written_text hends (blockLayout_textBindings bs hbody)
    simpa [textBindings, spaces] using h

end

theorem layout_text (e : Expr) : Layout e e.text := ⟨0, e.text, e.written_text, rfl⟩

/-! ### Nests -/

/-- A `let` for each binding, one inside the other. -/
def nest : List (Identifier × Expr) → Expr → Expr
  | [], body => body
  | b :: bs, body => letIn [b] (nest bs body)

open Meaning

variable {limit : Option Int} {σ τ : Scope} {bs : List (Identifier × Expr)} {body : Expr}

/-- One `let` with one binding. -/
theorem meaningWithin_letIn_singleton (limit : Option Int) (n : Nat) (x : Identifier)
    (e body : Expr) (σ : Scope) :
    (letIn [(x, e)] body).meaningWithin limit (n + 1) σ =
      e.meaningWithin limit n σ.child >>= fun v =>
        body.meaningWithin limit n (σ.child.define x.name v) := by
  change meaningBindingsBy _ σ.child [(x, e)] >>= _ = _
  rw [meaningBindingsBy, Meaning.bind_assoc]
  rfl

/-- Inside a `let`, a nest means what the bindings and the body mean there. Each of its levels costs
one more than the bindings do, so an induction on the bindings compares it at one level with the
bindings at that level or more. -/
theorem nest_upToCut_block (n : Nat) (bs : List (Identifier × Expr)) (hσ : σ.SeeSame τ) :
    UpToCut ((nest bs body).meaningWithin limit n σ)
      (meaningBindingsBy (meaningWithin limit n) τ bs >>= body.meaningWithin limit n) := by
  induction bs generalizing n σ τ with
  | nil => exact meaningWithin_upToCut limit (Nat.le_refl n) body hσ
  | cons b bs ih =>
    obtain _ | n := n
    · exact .inl ⟨_, rfl, rfl⟩
    · have hchild := hσ.child_left
      rw [nest, meaningWithin_letIn_singleton, meaningBindingsBy, Meaning.bind_assoc]
      refine (meaningWithin_upToCut limit (Nat.le_succ n) b.2 hchild).bind ?_
      intro v
      have hmore : UpToCut ((nest bs body).meaningWithin limit n (σ.child.define b.1.name v))
          ((nest bs body).meaningWithin limit (n + 1) (σ.child.define b.1.name v)) :=
        meaningWithin_upToCut limit (Nat.le_succ n) _ (.refl _)
      exact hmore.trans (ih (n + 1) (hchild.define _ v))

/-- A nest means what the `let` with all its bindings means within the same levels, unless it is cut
off. -/
theorem nest_upToCut_letIn (n : Nat) (hbs : bs ≠ []) (σ : Scope) :
    UpToCut ((nest bs body).meaningWithin limit n σ)
      ((letIn bs body).meaningWithin limit n σ) := by
  obtain _ | n := n
  · exact .inl ⟨_, rfl, rfl⟩
  · cases bs with
    | nil => exact absurd rfl hbs
    | cons b bs =>
      have hletIn : (letIn (b :: bs) body).meaningWithin limit (n + 1) σ =
          b.2.meaningWithin limit n σ.child >>= fun v =>
            meaningBindingsBy (meaningWithin limit n) (σ.child.define b.1.name v) bs >>=
              body.meaningWithin limit n := by
        change meaningBindingsBy _ σ.child (b :: bs) >>= _ = _
        rw [meaningBindingsBy, Meaning.bind_assoc]
      rw [nest, meaningWithin_letIn_singleton, hletIn]
      refine (UpToCut.refl _).bind ?_
      intro v
      exact nest_upToCut_block n bs (.refl _)

end Expr

/-! ### The theorem -/

/-- For any names, values and body, in any scope and with any limit: unless the nest of `let`s with
one binding each ends in a fault about depth, the `let` with all the bindings ends in the same value
or fault, and prints the same. -/
theorem evaluate_letIn_of_nest {bs : List (Identifier × Expr)} (hbs : bs ≠ []) (body : Expr)
    (scope : Scope) (maxDepth : Int)
    (h : ∀ fault, (evaluate (Expr.nest bs body).source scope maxDepth).result = .error fault →
      fault.family ≠ .depth) :
    (evaluate (Expr.letIn bs body).source scope maxDepth).result =
        (evaluate (Expr.nest bs body).source scope maxDepth).result ∧
      (evaluate (Expr.letIn bs body).source scope maxDepth).run.output =
        (evaluate (Expr.nest bs body).source scope maxDepth).run.output := by
  obtain ⟨n, hn, hcut⟩ := exists_means_of_evaluate (Expr.nest bs body).layout_text h
  have hnest := evaluate_means (Expr.nest bs body).layout_text hcut hn
  have heq := (Expr.nest_upToCut_letIn n hbs scope).eq hcut
  rw [heq] at hcut hnest
  have hletIn := evaluate_means (Expr.letIn bs body).layout_text hcut hn
  exact ⟨hletIn.result.trans hnest.result.symm, hletIn.output.trans hnest.output.symm⟩

namespace Rebinding

/-- The name `n1`. -/
def n1 : Identifier := { first := 'n', more := ['1'] }

/-- The name is bound, and bound again to something that uses it. -/
def bindings : List (Identifier × Expr) := [
  (n1, .number { negative := false, digits := ['1'] }),
  (n1, .add [.name n1, .number { negative := false, digits := ['3'] }])]

end Rebinding

/-- The second binding sees the first and then takes its place, in one frame as in two. -/
theorem evaluate_letIn_of_nest_rebinding :
    (evaluate "(let n1 1 (let n1 (add n1 3) n1))" {} 4).result = .ok (.number (.ofInt 4)) ∧
      (evaluate "(let n1 1 n1 (add n1 3) n1)" {} 4).result = .ok (.number (.ofInt 4)) := by
  have hnest : (Expr.nest Rebinding.bindings (.name Rebinding.n1)).source =
      "(let n1 1 (let n1 (add n1 3) n1))" := by
    decide +kernel
  have hletIn : (Expr.letIn Rebinding.bindings (.name Rebinding.n1)).source =
      "(let n1 1 n1 (add n1 3) n1)" := by
    decide +kernel
  have hresult : (evaluate "(let n1 1 (let n1 (add n1 3) n1))" {} 4).result =
      .ok (.number (.ofInt 4)) := by
    decide +kernel
  have hbs : Rebinding.bindings ≠ [] := by simp [Rebinding.bindings]
  have h := evaluate_letIn_of_nest hbs (.name Rebinding.n1) {} 4
  rw [hnest, hletIn, hresult] at h
  exact ⟨hresult, (h fun _ hfault => by cases hfault).1⟩

-- with one level less the nest is cut off, and the other is not
example :
    (evaluate "(let n1 1 (let n1 (add n1 3) n1))" {} 3).result =
        .error (.tooDeep 3 "n1 3) n1))") ∧
      (evaluate "(let n1 1 n1 (add n1 3) n1)" {} 3).result = .ok (.number (.ofInt 4)) := by
  decide +kernel

end SExprCalc
