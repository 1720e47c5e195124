import SExprCalc.Cursor.Step
import SExprCalc.Eval.Expr

/-!
# Steps of a run

A run can be driven by hand: levels entered and left, expressions and single forms evaluated at the
cursor, and the cursor itself moved about in between. The run is kept from step to step, also after
a fault, but its history always tells of the latest step alone.
-/

namespace SExprCalc.Run

/-- A step of a run. -/
inductive Step where
  /-- goes one level deeper -/
  | enter : Step
  /-- comes back from a level -/
  | leave : Step
  /-- evaluates an expression -/
  | expression : Step
  /-- evaluates the operands of a form, up to its closing parenthesis -/
  | form (f : Form) : Step
  /-- an operation of the cursor -/
  | cursor (s : Cursor.Step) : Step
  deriving DecidableEq, Repr

/-- What a step does to a run. -/
def action (limit : Option Int) (scope : Scope) : Step → Eval Answer
  | .enter => do
    Eval.enter limit
    return .done
  | .leave => do
    Eval.leave
    return .done
  | .expression => do return .value (← Eval.expression limit scope)
  | .form f => do return .value (← Eval.form limit scope f)
  | .cursor s => fun run =>
    let (outcome, cursor) := run.cursor.apply s
    (outcome, { run with cursor })

/-- Applies a step, with a history of its own. -/
def apply (limit : Option Int) (scope : Scope) (run : Run) (s : Step) :
    Except Fault Answer × Run :=
  action limit scope s { run with history := [] }

end SExprCalc.Run
