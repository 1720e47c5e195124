import SExprCalc.Fault

/-!
# Scripts

A script is a list of steps that are applied to one state in turn. Each step has an outcome, an
answer or a fault, and the steps after a fault go on from the state that it left.
-/

namespace SExprCalc

/-- What a step may answer. -/
inductive Answer where
  /-- nothing but that it has been done -/
  | done : Answer
  /-- yes or no -/
  | flag (b : Bool) : Answer
  /-- a count, a position or an index -/
  | integer (n : Int) : Answer
  /-- a piece of text -/
  | text (s : String) : Answer
  /-- some names, in order -/
  | names (l : List String) : Answer
  /-- a value -/
  | value (v : Value) : Answer
  deriving DecidableEq, Repr

namespace Answer

/-- The answer to a question for a value that may not be there. -/
def ofValue? (v : Option Value) : Answer := .value (v.getD (.foreign .absent))

end Answer

/-- Applies steps in turn and gives the outcome of each with the state after it. -/
def transcript {σ step : Type} (apply : σ → step → Except Fault Answer × σ) :
    σ → List step → List (Except Fault Answer × σ)
  | _, [] => []
  | state, s :: more =>
    let (outcome, next) := apply state s
    (outcome, next) :: transcript apply next more

/-- The state after some steps: the last one of the transcript. -/
def stateAfter {σ step : Type} (apply : σ → step → Except Fault Answer × σ) (state : σ)
    (steps : List step) : σ :=
  ((transcript apply state steps).getLast?.map Prod.snd).getD state

@[simp] theorem stateAfter_cons {σ step : Type} (apply : σ → step → Except Fault Answer × σ)
    (state : σ) (s : step) (more : List step) :
    stateAfter apply state (s :: more) = stateAfter apply (apply state s).2 more := by
  rw [stateAfter, transcript, List.getLast?_cons, stateAfter]
  cases (transcript apply (apply state s).2 more).getLast? <;> rfl

/-- One step more goes on from the state after the others. -/
theorem stateAfter_concat {σ step : Type} (apply : σ → step → Except Fault Answer × σ) (state : σ)
    (steps : List step) (s : step) :
    stateAfter apply state (steps ++ [s]) = (apply (stateAfter apply state steps) s).2 := by
  induction steps generalizing state with
  | nil => rfl
  | cons first more ih => rw [List.cons_append, stateAfter_cons, stateAfter_cons, ih]

end SExprCalc
