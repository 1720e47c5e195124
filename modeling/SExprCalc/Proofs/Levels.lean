import SExprCalc.Proofs.Lockstep

/-!
# Through all levels in step

`Lockstep.expressionAhead_ends` treats one level: evaluating an expression stays in step if
evaluating its operands does. This module closes the recursion. A lockstep **nests** if its runs can
enter a level and leave it together; then two evaluations with the same number of levels stay in
step (`Nests.expressionWithin_ends`), and the laws to be shown are only what entering and leaving do
to the relation, and what holds when a level cannot be entered.

It is for evaluations of which neither is ever gone. Where one has a limit that the other does not
have, levels are counted instead.
-/

namespace SExprCalc

open Eval

/-- The run after coming back from a level. -/
def Run.shallower (run : Run) : Run := { run with depth := run.depth - 1 }

theorem Eval.thenLeave_apply {α : Type} (x : Eval α) (run : Run) :
    x.thenLeave run = ((x run).1, (x run).2.shallower) := rfl

namespace Lockstep

variable {L : Lockstep} {limit : Option Int} {r s : Run} {k : Nat}

/-- The runs of a lockstep enter and leave levels together. -/
structure Nests (L : Lockstep) (limit : Option Int) : Prop where
  /-- both are at the same depth, so the limit is the same for both -/
  depth : ∀ {r s}, L.runs r s → s.depth = r.depth
  /-- both go one level deeper -/
  deeper : ∀ {r s}, L.runs r s → L.runs r.deeper s.deeper
  /-- both come back -/
  shallower : ∀ {r s}, L.runs r s → L.runs r.shallower s.shallower
  /-- both come back after a fault -/
  fault_shallower : ∀ {f r s}, L.fault f r s → L.fault f r.shallower s.shallower
  /-- the next level is too deep for both -/
  tooDeep : ∀ {r s d}, L.runs r s → L.fault (.tooDeep d r.cursor.restText) r.deeper s.deeper
  /-- both have no level left -/
  exhausted : ∀ {r s}, L.runs r s → L.fault (.stackExhausted limit) r s
  /-- neither goes on alone -/
  together : ∀ {f r s}, ¬ L.gone f r s

/-- A level that both can enter, or that neither can, since both are at the same depth. It is left
again by both. -/
theorem Nests.nested_ends (hL : L.Nests limit) {x y : Eval Value} (hr : (L.below k).runs r s)
    (h : (L.below k).Ends L.Same (x r.deeper) (y s.deeper)) :
    (L.below k).Ends L.Same (nested limit x r) (nested limit y s) := by
  have hdepth := hL.depth hr.1
  rcases within_or_beyond limit r.depth with hle | ⟨d, rfl, hlt⟩
  · rw [nested_of_le hle, nested_of_le (hdepth ▸ hle), thenLeave_apply, thenLeave_apply]
    rcases hx : x r.deeper with ⟨fault | v, r'⟩ <;> rcases hy : y s.deeper with ⟨fault' | w, s'⟩ <;>
      rw [hx, hy] at h
    · cases h with
      | error h => exact .error (hL.fault_shallower h)
      | gone h => exact absurd h hL.together
    · cases h with
      | gone h => exact absurd h hL.together
    · cases h
    · cases h with
      | ok h hr' => exact .ok h ⟨hL.shallower hr'.1, hr'.2⟩
  · -- both are too deep, and both messages show the same rest of the text
    rw [nested_of_lt hlt, nested_of_lt (hdepth ▸ hlt), restText_eq hr.1]
    exact .error (hL.tooDeep hr.1)

/-- With the same number of levels, evaluation stays in step through all of them. -/
theorem Nests.expressionWithin_ends (hL : L.Nests limit) (levels : Nat) {σ τ : Scope}
    (hσ : L.scopes σ τ) (hr : (L.below k).runs r s) :
    (L.below k).Ends L.Same (expressionWithin limit levels σ r)
      (expressionWithin limit levels τ s) := by
  induction levels generalizing σ τ r s k with
  | zero => exact hL.nested_ends hr (.error (hL.exhausted (hL.deeper hr.1)))
  | succ levels ih =>
    have hdeeper : (L.below k).runs r.deeper s.deeper := ⟨hL.deeper hr.1, hr.2⟩
    refine hL.nested_ends hr (expressionAhead_ends hdeeper ?_ hσ)
    intro σ' τ' hσ' r' s' hr'
    exact ih hσ' hr'

/-- Started in step, evaluation with as many levels as the text could need ends in step. -/
theorem Nests.expression_ends (hL : L.Nests limit) {σ τ : Scope} (hσ : L.scopes σ τ)
    (hr : L.runs r s) :
    L.Ends L.Same (Eval.expression limit σ r) (Eval.expression limit τ s) := by
  have hs : Eval.expression limit τ s =
      expressionWithin limit (r.cursor.remaining + 1) τ s := by
    rw [← remaining_eq hr]
    rfl
  have hbelow : (L.below (r.unread.length + 1)).runs r s := ⟨hr, Nat.lt_succ_self _⟩
  rw [hs]
  exact (hL.expressionWithin_ends _ hσ hbelow).mono fun h => h.1

end Lockstep

end SExprCalc
