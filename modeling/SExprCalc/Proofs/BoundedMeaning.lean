import SExprCalc.Proofs.DepthLimit
import SExprCalc.Proofs.Refinement

/-!
# Meanings with a bound on the levels

An expression may be higher than the limit and yet be evaluated without a fault about depth, if
another fault comes first. So the height of a tree does not tell whether the limit is kept. This
module has the meaning of a tree within a number of levels (`Expr.meaningWithin`), in which
whatever lies below them means a fault about depth:

* evaluating a layout with that many levels agrees with it, fault or not (`Written.readsWithin`);
* hence an evaluation with a limit is no fault about depth exactly if the meaning within some number
  of levels that the limit allows is none, and then it is that meaning (`evaluate_means`,
  `exists_means_of_evaluate`);
* with more levels, and in scopes that see the same, the meaning stays the same unless it was cut
  off (`Expr.meaningWithin_upToCut`).
-/

namespace SExprCalc

open Eval

/-- The meaning of an expression within a number of levels, below which evaluation gives up. -/
def Expr.meaningWithin (limit : Option Int) : Nat → Expr → Scope → Meaning Value
  | 0, _, _ => .ofExcept (.error (.stackExhausted limit))
  | levels + 1, e, scope => e.meaningBy (meaningWithin limit levels) scope

variable {limit : Option Int} {n m : Nat} {depth d : Int} {e : Expr} {t : List Char}
  {scope σ τ : Scope} {α β : Type}

/-! ### Evaluation with that many levels -/

/-- A text of an expression is read as it should be with any number of levels, if the limit is
beyond all of them. -/
theorem Written.readsWithin (hw : Written e t) (hroom : ∀ d ∈ limit, depth + n + 1 ≤ d) :
    Reads (expressionWithin limit n) (Expr.meaningWithin limit n) depth e t := by
  induction n generalizing e t depth with
  | zero =>
    intro scope run after hin hdepth hu hends
    refine agrees_nested ?_ ⟨rfl, (List.append_nil _).symm, rfl, rfl, fun _ h => by cases h⟩
    intro d hd
    have := hroom d hd
    omega
  | succ n ih =>
    intro scope run after hin hdepth hu hends
    refine agrees_nested ?_ (hw.agrees_ahead ?_ scope hin (congrArg (· + 1) hdepth) hu hends)
    · intro d hd
      have := hroom d hd
      omega
    · intro p _ u hu
      refine ih hu ?_
      intro d hd
      have := hroom d hd
      omega

/-- An evaluation is what a meaning says. -/
structure Evaluation.Means (evaluation : Evaluation) (m : Meaning Value) : Prop where
  /-- the same result or fault -/
  result : evaluation.result = m.result
  /-- the same lines -/
  output : evaluation.run.output = String.join (m.lines.map (· ++ "\n"))

/-- A meaning that ends in a fault about depth. -/
def Meaning.Cut (m : Meaning α) : Prop := ∃ fault, m.result = .error fault ∧ fault.family = .depth

/-- A whole text is evaluated to what its expression means, if the texts of the expression are. -/
theorem Layout.agrees_whole {operand : Scope → Eval Value} {sem : Expr → Scope → Meaning Value}
    (ht : Layout e t) (hreads : ∀ u, Written e u → Reads operand sem 0 e u) (scope : Scope) :
    Agrees { cursor := .ofString (String.ofList t) }
      (operand scope { cursor := .ofString (String.ofList t) }) (sem e scope) (· = []) := by
  have hin := Run.inside_ofString (String.ofList t)
  obtain ⟨k, u, hw, rfl⟩ := ht
  have hu : Run.unread { cursor := .ofString (String.ofList (spaces k ++ u)) } =
      spaces k ++ (u ++ []) := by
    rw [List.append_nil]
    exact String.toList_ofList
  exact hreads u hw scope _ [] hin rfl (hw.unread_skipped hin hu) e.endsBefore_nil

/-- With as many levels as the meaning has, and a limit beyond them, a whole text is evaluated to
that meaning. -/
theorem Layout.agrees_within (ht : Layout e t) (scope : Scope) (n : Nat) :
    Agrees { cursor := .ofString (String.ofList t) }
      (expressionWithin (some (n + 1)) n scope { cursor := .ofString (String.ofList t) })
      (e.meaningWithin (some (n + 1)) n scope) (· = []) := by
  refine ht.agrees_whole (fun u hw => hw.readsWithin ?_) scope
  rintro d ⟨⟩
  omega

/-- An expression no higher than the limit and the levels of the evaluator is evaluated to what it
means. -/
theorem evaluate_means_of_height_le (ht : Layout e t) (hlevels : e.height ≤ stackLevels)
    (hd : (e.height : Int) ≤ d) : (evaluate (String.ofList t) scope d).Means (e.meaning scope) := by
  have hreads (u : List Char) (hw : Written e u) :
      Reads (expressionWithin (some d) stackLevels) Expr.meaning 0 e u := by
    refine hw.reads hlevels ?_
    rintro d ⟨⟩
    omega
  have hagrees := ht.agrees_whole hreads scope
  have hprinted : (evaluate (String.ofList t) scope d).run.printed = (e.meaning scope).lines :=
    hagrees.printed
  refine ⟨hagrees.result, ?_⟩
  rw [← hprinted]
  rfl

/-- If the meaning within some levels is not cut off, then evaluation without a limit is that
meaning, and enters no level beyond them. -/
theorem unlimited_means (ht : Layout e t) (hcut : ¬ (e.meaningWithin (some (n + 1)) n scope).Cut) :
    (unlimited (String.ofList t) scope).Means (e.meaningWithin (some (n + 1)) n scope) ∧
      deepest (unlimited (String.ofList t) scope).run.events ≤ n := by
  have hagrees := ht.agrees_within scope n
  obtain ⟨heq, hle, -⟩ | ⟨fault, run, heq, h, -⟩ :=
    same_or_cut (String.ofList t) scope (n + 1) n
  · rw [heq] at hagrees
    have hprinted : (unlimited (String.ofList t) scope).run.printed =
        (e.meaningWithin (some (n + 1)) n scope).lines := hagrees.printed
    refine ⟨⟨hagrees.result, ?_⟩, by omega⟩
    rw [← hprinted]
    rfl
  · rw [heq] at hagrees
    exact absurd ⟨fault, hagrees.result.symm, h.family⟩ hcut

/-- A meaning within levels that the limit allows, if it is not cut off, is what evaluation with
the limit gives. -/
theorem evaluate_means (ht : Layout e t) (hcut : ¬ (e.meaningWithin (some (n + 1)) n scope).Cut)
    (hn : n ≤ min d stackLevels) :
    (evaluate (String.ofList t) scope d).Means (e.meaningWithin (some (n + 1)) n scope) := by
  obtain ⟨hmeans, hle⟩ := unlimited_means ht hcut
  obtain ⟨hresult, houtput⟩ := evaluate_of_deepest_le (Int.le_trans hle hn)
  exact ⟨hresult.trans hmeans.result, houtput.trans hmeans.output⟩

/-- An evaluation that is no fault about depth gives a meaning within levels that the limit
allows. -/
theorem exists_means_of_evaluate (ht : Layout e t)
    (h : ∀ fault, (evaluate (String.ofList t) scope d).result = .error fault →
      fault.family ≠ .depth) :
    ∃ n : Nat, n ≤ min d stackLevels ∧ ¬ (e.meaningWithin (some (n + 1)) n scope).Cut := by
  obtain ⟨-, hle, hfamily⟩ | ⟨fault, run, heq, hcut, -⟩ :=
    same_or_cut (String.ofList t) scope d stackLevels
  · -- the outermost level is always entered, so the lesser of the two bounds is a number of levels
    have hone := one_le_deepest (String.ofList t) scope
    obtain ⟨n, hn⟩ : ∃ n : Nat, (n : Int) = min d stackLevels :=
      ⟨(min d stackLevels).toNat, by omega⟩
    refine ⟨n, Int.le_of_eq hn, ?_⟩
    rintro ⟨fault, hresult, hdepth⟩
    have hagrees := ht.agrees_within scope n
    obtain ⟨heq, -, -⟩ | ⟨-, -, -, -, hlt⟩ := same_or_cut (String.ofList t) scope (n + 1) n
    · rw [heq] at hagrees
      exact hfamily fault (hagrees.result.trans hresult) hdepth
    · omega
  · refine absurd hcut.family (h fault ?_)
    rw [result_evaluate, heq]

/-! ### More levels, and other scopes -/

namespace Meaning

variable {m m' m'' : Meaning α}

/-- One meaning is the other, unless it is cut off. -/
def UpToCut (m m' : Meaning α) : Prop := m.Cut ∨ m = m'

theorem UpToCut.refl (m : Meaning α) : UpToCut m m := .inr rfl

theorem UpToCut.trans (h : UpToCut m m') (h' : UpToCut m' m'') : UpToCut m m'' := by
  rcases h with h | rfl
  · exact .inl h
  · exact h'

theorem UpToCut.eq (h : UpToCut m m') (hcut : ¬ m.Cut) : m = m' := h.resolve_left hcut

/-- What goes on after a meaning is cut off where that is, or where it is cut off itself. -/
theorem UpToCut.bind {f g : α → Meaning β} (h : UpToCut m m')
    (hf : ∀ a, UpToCut (f a) (g a)) : UpToCut (m >>= f) (m' >>= g) := by
  rcases h with ⟨fault, hresult, hfamily⟩ | rfl
  · refine .inl ⟨fault, ?_, hfamily⟩
    rw [bind_of_error hresult]
  · rcases hm : m.result with fault | a
    · rw [bind_of_error hm, bind_of_error hm]
      exact .refl _
    · rw [bind_of_ok hm, bind_of_ok hm]
      rcases hf a with hcut | heq
      · exact .inl hcut
      · rw [heq]
        exact .refl _

theorem UpToCut.number {m m' : Meaning Value} (h : UpToCut m m') (form : Form) :
    UpToCut (m.number form) (m'.number form) :=
  h.bind fun _ => .refl _

end Meaning

open Meaning

/-- Two scopes in which every name stands for the same, or is bound in neither. -/
def Scope.SeeSame (σ τ : Scope) : Prop := ∀ name, σ.find? name = τ.find? name

namespace Scope.SeeSame

theorem refl (σ : Scope) : SeeSame σ σ := fun _ => rfl

theorem child (h : SeeSame σ τ) : SeeSame σ.child τ.child := by
  intro name
  rw [find?_child, find?_child]
  exact h name

/-- A scope inside another sees what that sees. -/
theorem child_left (h : SeeSame σ τ) : SeeSame σ.child τ := by
  intro name
  rw [find?_child]
  exact h name

theorem define (h : SeeSame σ τ) (name : String) (v : Value) :
    SeeSame (σ.define name v) (τ.define name v) :=
  fun other => find?_define_congr (h other) name v

end Scope.SeeSame

namespace Expr

variable {sem sem' : Expr → Scope → Meaning Value}

/-- What operands mean carries over to their total. -/
theorem meaningAllBy_upToCut (h : ∀ e, UpToCut (sem e σ) (sem' e τ)) (form : Form)
    (combine : Binary64 → Binary64 → Binary64) (es : List Expr) (total : Binary64) :
    UpToCut (meaningAllBy sem form combine σ es total)
      (meaningAllBy sem' form combine τ es total) := by
  induction es generalizing total with
  | nil => exact .refl _
  | cons e es ih => exact ((h e).number form).bind fun x => ih _

/-- What expressions mean carries over to the scopes that bindings make of them, and to what is
made of those. -/
theorem meaningBindingsBy_upToCut
    (h : ∀ e {σ τ : Scope}, σ.SeeSame τ → UpToCut (sem e σ) (sem' e τ))
    {f g : Scope → Meaning α}
    (hf : ∀ {σ τ : Scope}, σ.SeeSame τ → UpToCut (f σ) (g τ))
    (bs : List (Identifier × Expr)) (hσ : σ.SeeSame τ) :
    UpToCut (meaningBindingsBy sem σ bs >>= f) (meaningBindingsBy sem' τ bs >>= g) := by
  induction bs generalizing σ τ with
  | nil => exact hf hσ
  | cons b bs ih =>
    rw [meaningBindingsBy, meaningBindingsBy, Meaning.bind_assoc, Meaning.bind_assoc]
    refine (h b.2 hσ).bind ?_
    intro v
    exact ih (hσ.define _ v)

/-- What parts mean carries over to the whole: if each part means the same or is cut, so does the
expression. Scopes need to see only the same names. -/
theorem meaningBy_upToCut
    (h : ∀ e {σ τ : Scope}, σ.SeeSame τ → UpToCut (sem e σ) (sem' e τ)) (e : Expr)
    (hσ : σ.SeeSame τ) : UpToCut (e.meaningBy sem σ) (e.meaningBy sem' τ) := by
  cases e with
  | number => exact .refl _
  | name x =>
    refine .inr ?_
    rw [meaningBy, meaningBy, Scope.resolve, Scope.resolve, hσ (.text x.name)]
  | add es => exact (meaningAllBy_upToCut (h · hσ) _ _ es _).bind fun _ => .refl _
  | mult es => exact (meaningAllBy_upToCut (h · hσ) _ _ es _).bind fun _ => .refl _
  | div a b =>
    exact ((h a hσ).number _).bind fun _ => ((h b hσ).number _).bind fun _ => .refl _
  | eq a b =>
    exact (h a hσ.child).bind fun _ => (h b hσ.child).bind fun _ => .refl _
  | letIn bs body =>
    exact meaningBindingsBy_upToCut h (h body) bs hσ.child
  | print a => exact (h a hσ).bind fun _ => .refl _

/-- With more levels, and in a scope that sees the same, an expression means the same unless it was
cut off. -/
theorem meaningWithin_upToCut (limit : Option Int) (hnm : n ≤ m) (e : Expr)
    (hσ : σ.SeeSame τ) :
    UpToCut (e.meaningWithin limit n σ) (e.meaningWithin limit m τ) := by
  induction n generalizing m e σ τ with
  | zero => exact .inl ⟨_, rfl, rfl⟩
  | succ n ih =>
    obtain _ | m := m
    · exact absurd hnm (Nat.not_succ_le_zero n)
    · refine meaningBy_upToCut ?_ e hσ
      intro e σ τ hσ
      exact ih (Nat.le_of_succ_le_succ hnm) e hσ

end Expr

end SExprCalc
