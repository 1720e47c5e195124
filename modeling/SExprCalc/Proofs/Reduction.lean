import Mathlib.Algebra.BigOperators.Group.List.Basic
import Mathlib.Data.List.Infix
import SExprCalc.Proofs.Arithmetic
import SExprCalc.Proofs.ReadBack

/-!
# Sums and products of integers are exact

A reduction combines its operands from the left, so its running total goes through the partial
results. While these and the operands are integers up to `2 ^ 53`, the total is the exact partial
result in every round, started at zero or one: that is the invariant of the two folds
(`Binary64.foldl_add_ofInt`, `Binary64.denotes_foldl_mul`). The operands are written as canonical
decimals, and each reads as the integer that it shows.

Products differ from sums in one respect: a product of zero may be negative, so it is only known
which number the total is, not which value.
-/

namespace SExprCalc

/-! ### Running totals -/

namespace Binary64

variable {ns : List ℤ} {a : ℤ} {x : Binary64}

/-- A running sum of integers is the partial sum, if no partial sum exceeds `2 ^ 53`. -/
theorem foldl_add_ofInt (hterms : ∀ n ∈ ns, |n| ≤ 2 ^ 53)
    (hpartial : ∀ p, p <+: ns → |a + p.sum| ≤ 2 ^ 53) :
    ns.foldl (fun total n => total.add (ofInt n)) (ofInt a) = ofInt (a + ns.sum) := by
  induction ns generalizing a with
  | nil => rw [List.foldl_nil, List.sum_nil, Int.add_zero]
  | cons n ns ih =>
    have hstart : |a| ≤ 2 ^ 53 := by simpa using hpartial [] List.nil_prefix
    have hnext : |a + n| ≤ 2 ^ 53 := by simpa using hpartial [n] (by simp)
    rw [List.foldl_cons, add_ofInt hstart (hterms n List.mem_cons_self) hnext, ih, List.sum_cons,
      Int.add_assoc]
    · exact fun m hm => hterms m (List.mem_cons_of_mem _ hm)
    · intro p hp
      have hmore := hpartial (n :: p) (List.cons_prefix_cons.mpr ⟨rfl, hp⟩)
      rwa [List.sum_cons, ← Int.add_assoc] at hmore

/-- A running product of integers is the partial product, if none exceeds `2 ^ 53`. -/
theorem denotes_foldl_mul (hx : Denotes x a) (hterms : ∀ n ∈ ns, |n| ≤ 2 ^ 53)
    (hpartial : ∀ p, p <+: ns → |a * p.prod| ≤ 2 ^ 53) :
    Denotes (ns.foldl (fun total n => total.mul (ofInt n)) x) (a * ns.prod : ℤ) := by
  induction ns generalizing a x with
  | nil => rwa [List.foldl_nil, List.prod_nil, Int.mul_one]
  | cons n ns ih =>
    have hnext : |a * n| ≤ 2 ^ 53 := by simpa using hpartial [n] (by simp)
    have hproduct := denotes_ofInt hnext
    rw [Int.cast_mul] at hproduct
    have hmul := hx.mul (denotes_ofInt (hterms n List.mem_cons_self)) hproduct
    rw [← Int.cast_mul] at hmul
    rw [List.foldl_cons, List.prod_cons, ← Int.mul_assoc]
    refine ih hmul (fun m hm => hterms m (List.mem_cons_of_mem _ hm)) ?_
    intro p hp
    have hmore := hpartial (n :: p) (List.cons_prefix_cons.mpr ⟨rfl, hp⟩)
    rwa [List.prod_cons, ← Int.mul_assoc] at hmore

end Binary64

/-! ### Integers as operands -/

/-- The canonical decimal of an integer up to `2 ^ 53` reads as that integer. -/
theorem Numeral.value_canonical {n : ℤ} (hn : |n| ≤ 2 ^ 53) :
    (canonical n).value = .ok (.number (.ofInt n)) := by
  obtain ⟨r, hr, hmagnitude⟩ := Binary64.exists_ofInt_eq hn
  have hwhole : Binary64.Whole (n < 0) r n := ⟨hmagnitude, rfl⟩
  rw [value, hwhole.value?, hr]

namespace Expr

variable {ns : List ℤ}

/-- An integer as an operand. -/
def integer (n : ℤ) : Expr := number (.canonical n)

/-- Integers have no parts. -/
theorem heightAll_integers_le (ns : List ℤ) : heightAll (ns.map integer) ≤ 1 := by
  induction ns with
  | nil => exact Nat.zero_le 1
  | cons n ns ih => exact Nat.max_le.mpr ⟨Nat.le_refl 1, ih⟩

/-- Combining integers is a fold over them. -/
theorem meaningAll_integers (form : Form) (combine : Binary64 → Binary64 → Binary64)
    (scope : Scope) (h : ∀ n ∈ ns, |n| ≤ 2 ^ 53) (total : Binary64) :
    meaningAll form combine scope (ns.map integer) total =
      pure (ns.foldl (fun total n => combine total (.ofInt n)) total) := by
  induction ns generalizing total with
  | nil => rfl
  | cons n ns ih =>
    have hvalue := Numeral.value_canonical (h n List.mem_cons_self)
    rw [List.map_cons, meaningAll, integer, meaning, hvalue]
    exact ih (fun m hm => h m (List.mem_cons_of_mem _ hm)) _

end Expr

/-! ### Reductions as they are written -/

section Text

variable (gap : ℕ → ℕ)

/-- Integers one after the other, in canonical decimals. Before each stands one space and as many
more as the gap says for the number of integers behind it. -/
def integersText : List ℤ → List Char
  | [] => []
  | n :: ns => spaces (gap ns.length + 1) ++ ((toString n).toList ++ integersText ns)

/-- A sum or product of integers, with any spaces before the closing parenthesis. -/
def reductionText (form : Form) (ns : List ℤ) (j : ℕ) : String :=
  String.ofList ('(' :: (form.head.toList ++ (integersText gap ns ++ (spaces j ++ [')']))))

theorem operandsLayout_integersText (ns : List ℤ) :
    OperandsLayout (ns.map Expr.integer) (integersText gap ns) := by
  induction ns with
  | nil => exact .nil
  | cons n ns ih =>
    have hends : (Expr.integer n).EndsBefore (integersText gap ns) := by
      cases ns with
      | nil => exact Expr.endsBefore_nil _
      | cons => exact Expr.endsBefore_space _ _
    have hwritten : Written (Expr.integer n) (toString n).toList := by
      rw [← Numeral.text_canonical]
      exact .number _
    exact .cons _ hwritten hends ih

variable {gap}

/-- A sum or product of integers is evaluated to what it means, if there are two levels for it. -/
theorem evaluate_reductionText {form : Form} {e : Expr} {ns : List ℤ}
    (hinner : InnerLayout form e (integersText gap ns)) (hbody : e.bodyIsName = false)
    (hheight : e.height ≤ 2) (j : ℕ) (scope : Scope) {maxDepth : Int} (hdepth : 2 ≤ maxDepth) :
    (evaluate (reductionText gap form ns j) scope maxDepth).result = (e.meaning scope).result := by
  have hwritten := Written.form j hinner fun h => absurd h (by simp [hbody])
  refine (evaluate_means_of_height_le ⟨0, _, hwritten, rfl⟩ ?_ ?_).result
  · exact hheight.trans (by decide)
  · omega

end Text

/-! ### The theorem -/

/-- Integers up to `2 ^ 53` are summed exactly if all partial sums are such integers too, and
multiplied exactly if all partial products are. Only the sign of a product that is zero is left
open. -/
theorem evaluate_reduction_exact {ns : List ℤ} (hterms : ∀ n ∈ ns, |n| ≤ 2 ^ 53) (gap : ℕ → ℕ)
    (j : ℕ) (scope : Scope) {maxDepth : Int} (hdepth : 2 ≤ maxDepth) :
    ((∀ p, p <+: ns → |p.sum| ≤ 2 ^ 53) →
      (evaluate (reductionText gap .add ns j) scope maxDepth).result =
        .ok (.number (.ofInt ns.sum)) ∧
      Word.IsFinite (Binary64.ofInt ns.sum).toBits ∧
      Word.exact (Binary64.ofInt ns.sum).toBits = ns.sum) ∧
    ((∀ p, p <+: ns → |p.prod| ≤ 2 ^ 53) →
      ∃ x, (evaluate (reductionText gap .mult ns j) scope maxDepth).result = .ok (.number x) ∧
        Word.IsFinite x.toBits ∧ Word.exact x.toBits = ns.prod ∧
        (ns.prod ≠ 0 → x = .ofInt ns.prod)) := by
  have hlayout := operandsLayout_integersText gap ns
  have hheight : 1 + Expr.heightAll (ns.map Expr.integer) ≤ 2 :=
    Nat.add_le_add_left (Expr.heightAll_integers_le ns) 1
  refine ⟨?_, ?_⟩
  · intro hpartial
    rw [evaluate_reductionText (.add hlayout) rfl hheight j scope hdepth, Expr.meaning,
      Expr.meaningAll_integers _ _ _ hterms, ← Binary64.ofInt_zero,
      Binary64.foldl_add_ofInt hterms (by simpa using hpartial), Int.zero_add]
    exact ⟨rfl, (Binary64.denotes_ofInt (hpartial ns (List.prefix_refl ns))).exact⟩
  · intro hpartial
    rw [evaluate_reductionText (.mult hlayout) rfl hheight j scope hdepth, Expr.meaning,
      Expr.meaningAll_integers _ _ _ hterms]
    have hone : Binary64.Denotes (.ofInt 1) (1 : ℤ) := Binary64.denotes_ofInt (by decide)
    have hproduct := Binary64.denotes_foldl_mul hone hterms (by simpa using hpartial)
    rw [Int.one_mul] at hproduct
    refine ⟨_, rfl, hproduct.exact.1, hproduct.exact.2, ?_⟩
    intro hne
    refine hproduct.eq (Binary64.denotes_ofInt (hpartial ns (List.prefix_refl ns))) ?_
    exact_mod_cast hne

/-- The sum reaches `2 ^ 53` on the way, and the product comes near it. -/
theorem evaluate_reduction_exact_edge :
    (evaluate "(add 9007199254740991  1 -7 )" {} 2).result =
        .ok (.number (.ofInt 9007199254740985)) ∧
      ∃ x, (evaluate "(mult -3 3002399751580330  1)" {} 2).result = .ok (.number x) ∧
        Word.exact x.toBits = (-9007199254740990 : ℤ) := by
  have hsums : ∀ p, p <+: [9007199254740991, 1, -7] → |p.sum| ≤ 2 ^ 53 := by
    simp only [← List.mem_inits]
    decide
  have hproducts : ∀ p, p <+: [-3, 3002399751580330, 1] → |p.prod| ≤ 2 ^ 53 := by
    simp only [← List.mem_inits]
    decide
  have hadd : reductionText (if · = 1 then 1 else 0) .add [9007199254740991, 1, -7] 1 =
      "(add 9007199254740991  1 -7 )" := by
    decide +kernel
  have hmult : reductionText (if · = 0 then 1 else 0) .mult [-3, 3002399751580330, 1] 0 =
      "(mult -3 3002399751580330  1)" := by
    decide +kernel
  obtain ⟨hsum, -⟩ := (@evaluate_reduction_exact [9007199254740991, 1, -7] (by decide)
    (if · = 1 then 1 else 0) 1 {} 2 (by decide)).1 hsums
  obtain ⟨x, hproduct, -, hexact, -⟩ := (@evaluate_reduction_exact [-3, 3002399751580330, 1]
    (by decide) (if · = 0 then 1 else 0) 0 {} 2 (by decide)).2 hproducts
  rw [hadd] at hsum
  rw [hmult] at hproduct
  exact ⟨hsum, x, hproduct, hexact⟩

end SExprCalc
