import SExprCalc.Scope.Bindings
import SExprCalc.Script

/-!
# Steps of bindings

The operations of bindings as data.
-/

namespace SExprCalc.Bindings

/-- An operation of bindings. -/
inductive Step where
  /-- binds a name -/
  | insert (name : Name) (value : Value) : Step
  /-- asks for the value of a name -/
  | lookup (name : Name) : Step
  /-- asks whether a name is bound -/
  | contains (name : Name) : Step
  /-- asks for the bound names -/
  | names : Step
  deriving DecidableEq, Repr

/-- Applies an operation. Only the binding of a name that is text changes anything. -/
def apply (b : Bindings) : Step → Except Fault Answer × Bindings
  | .insert name value =>
    match b.insert name value with
    | .ok b' => (.ok .done, b')
    | .error fault => (.error fault, b)
  | .lookup name => (.ok (.ofValue? (b.find? name)), b)
  | .contains name => (.ok (.flag (b.contains name)), b)
  | .names => (.ok (.names b.names), b)

end SExprCalc.Bindings
