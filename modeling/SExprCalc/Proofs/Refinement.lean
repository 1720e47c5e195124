import Mathlib.Control.Monad.Basic
import SExprCalc.Proofs.Agreement

/-!
# Evaluation refines the meaning of trees

Evaluating a layout of an expression gives what the expression means, whatever text stands before
and after it, if there is room for its height under the limit.

One level has been treated already (`Written.agrees_ahead`). What remains is an induction on the
levels (`Written.reads`): each level takes one off the height of the expression and adds one to the
depth, so there is room for every part.
-/

namespace SExprCalc

open Eval

variable {limit : Option Int} {n : Nat} {run : Run} {scope : Scope} {e : Expr}
  {t after : List Char} {depth : Int}

/-- There is room for an expression below the present level. -/
def Room (limit : Option Int) (run : Run) (e : Expr) : Prop :=
  ∀ d ∈ limit, run.depth + e.height ≤ d

/-- One level deeper, and back. -/
theorem agrees_nested {x : Eval Value} {m : Meaning Value} {stop : List Char → Prop}
    (hle : ∀ d ∈ limit, run.depth + 1 ≤ d) (hx : Agrees run.deeper (x run.deeper) m stop) :
    Agrees run (nested limit x run) m stop := by
  rw [nested_of_le hle]
  exact hx.thenLeave

/-- A text of an expression is read as it should be, with enough levels and room. -/
theorem Written.reads (hw : Written e t) (hn : e.height ≤ n)
    (hroom : ∀ d ∈ limit, depth + e.height ≤ d) :
    Reads (expressionWithin limit n) Expr.meaning depth e t := by
  induction n generalizing e t depth with
  | zero => exact absurd hw.one_le_height (by omega)
  | succ n ih =>
    intro scope run after hin hdepth hu hends
    have hone := hw.one_le_height
    rw [expressionWithin, ← Expr.meaningBy_meaning]
    refine agrees_nested ?_ (hw.agrees_ahead ?_ scope hin (congrArg (· + 1) hdepth) hu hends)
    · intro d hd
      have := hroom d hd
      omega
    · intro p hp u hu
      have hlower := Expr.height_lt_of_mem_parts hp
      refine ih hu (by omega) ?_
      intro d hd
      have := hroom d hd
      omega

/-! ### The theorem -/

/-- A layout is as long as its expression is high, so the levels that the text could need are
enough for it. -/
theorem Layout.agrees (ht : Layout e t) (scope : Scope) (hin : run.Inside)
    (hu : run.unread = t ++ after) (hafter : e.EndsBefore after) (hroom : Room limit run e) :
    Agrees run (Eval.expression limit scope run) (e.meaning scope) (· = after) := by
  have hlen : e.height ≤ run.cursor.remaining + 1 := by
    have hheight := ht.height_le
    have hremaining : run.cursor.remaining = run.unread.length := Cursor.Inside.remaining_eq hin
    rw [hremaining, hu, List.length_append]
    omega
  obtain ⟨k, u, hw, rfl⟩ := ht
  rw [List.append_assoc] at hu
  exact hw.reads hlen hroom scope run after hin rfl (hw.unread_skipped hin hu) hafter

/-- A layout of an expression is evaluated, between any two texts, with any scope, and at any depth
that leaves room for its height under the limit, to exactly what the expression means: the result
or the fault, and the lines printed before it. The depth and the text are left as they were, and
after a result the cursor stands right behind the layout. -/
theorem expression_of_layout {e : Expr} {t : List Char} (ht : Layout e t)
    (before after : List Char) (hafter : e.EndsBefore after) (scope : Scope) (limit : Option Int)
    (run : Run) (hrun : run.cursor = { source := before ++ t ++ after, pos := before.length })
    (hlimit : ∀ d ∈ limit, run.depth + e.height ≤ d) :
    ∃ run', Eval.expression limit scope run = ((e.meaning scope).result, run') ∧
      run'.printed = run.printed ++ (e.meaning scope).lines ∧
      run'.depth = run.depth ∧
      run'.cursor.source = before ++ t ++ after ∧
      ∀ v, (e.meaning scope).result = .ok v → run'.cursor.pos = before.length + t.length := by
  have hin : run.Inside := by
    rw [Run.Inside, hrun]
    exact ⟨Int.natCast_nonneg _, by simp [Cursor.size]; omega⟩
  have hu : run.unread = t ++ after := by
    rw [Run.unread, hrun, Cursor.rest, Cursor.index_of_nonneg _ (Int.natCast_nonneg _),
      List.append_assoc]
    exact List.drop_left
  have ha := ht.agrees scope hin hu hafter hlimit
  have hsource : (Eval.expression limit scope run).2.cursor.source = before ++ t ++ after :=
    ha.source.trans (by rw [hrun])
  refine ⟨(Eval.expression limit scope run).2, Prod.ext ha.result rfl, ha.printed, ha.depth,
    hsource, ?_⟩
  intro v hv
  obtain ⟨hin', hrest⟩ := ha.stops v (ha.result.trans hv)
  -- the cursor's place is what is left of the text once `after` is still to be read
  have hsize : (Eval.expression limit scope run).2.cursor.rest.length =
      (Eval.expression limit scope run).2.cursor.size -
        (Eval.expression limit scope run).2.cursor.pos :=
    Cursor.Inside.length_rest hin'
  have hrest' : (Eval.expression limit scope run).2.cursor.rest = after := hrest
  rw [hrest', Cursor.size, hsource] at hsize
  simp only [List.length_append] at hsize ⊢
  omega

namespace LetSum

/-- The name `x`. -/
def x : Identifier := { first := 'x', more := [] }

/-- A `let` around a sum. -/
def expr : Expr :=
  .letIn [(x, .number { negative := false, digits := ['2'] })]
    (.add [.number { negative := true, digits := ['4', '0'] }, .name x])

/-- A text of it without a space too many: the head of a form, a number and a parenthesis need none
behind them. -/
theorem layout : Layout expr "(letx 2(add -40x ))".toList :=
  ⟨0, _, .form 0 (.letIn (.bind 0 1 (stopsAt_cons.mpr rfl) (.number _) (stopsAt_cons.mpr rfl)
    (.body 0 (.form 1 (.add (.cons 1 (.number _) (stopsAt_cons.mpr rfl)
      (.cons 0 (.name _) (stopsAt_nil _) .nil))) (fun h => by cases h)))))
    (fun h => by cases h), rfl⟩

theorem result : (expr.meaning {}).result = .ok (.number (.ofInt (-38))) := by
  decide +kernel

end LetSum

/-- Three levels are enough for a sum inside a `let`, and the text around it is not read. -/
theorem expression_of_layout_letSum :
    ∃ run', Eval.expression (some 3) {}
        { cursor := { source := "1(letx 2(add -40x ))x".toList, pos := 1 } } =
          (.ok (.number (.ofInt (-38))), run') ∧
      run'.printed = [] ∧ run'.depth = 0 ∧ run'.cursor.pos = 20 := by
  obtain ⟨run', heq, hprinted, hdepth, -, hpos⟩ := expression_of_layout LetSum.layout ['1'] ['x']
    trivial {} (some 3) { cursor := { source := "1(letx 2(add -40x ))x".toList, pos := 1 } } rfl
    (by rintro d hd; cases hd; decide)
  rw [LetSum.result] at heq
  refine ⟨run', heq, ?_, hdepth, hpos _ LetSum.result⟩
  rw [hprinted]
  decide +kernel

end SExprCalc
