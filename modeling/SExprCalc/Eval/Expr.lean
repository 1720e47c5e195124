import SExprCalc.Eval.Forms

/-!
# Expressions

An expression is a number, an identifier or a form in parentheses; reading and evaluating it are
one activity. Two bounds keep its nesting in check. The **limit** is the caller's: an expression
that would be entered at a greater depth is a fault that shows the unread text. The **levels** are
the evaluator's own: how deep it can follow an expression at all. `evaluate` has `stackLevels` of
them; where no such bound is meant, `Eval.expression` takes one level more than there are characters
to read, which no expression can use up.
-/

namespace SExprCalc

open Eval

/-- Evaluates a form whose opening parenthesis has just been read. -/
def formAhead (operand : Scope → Eval Value) (scope : Scope) : Eval Value := do
  match ← look fun c => Form.all.find? (c.startsWith ·.head) with
  | none => fail (.notCallable (← look (·.restText)))
  | some form =>
    advance form.head.length
    note (.dispatched form (← look (·.pos)))
    let value ← form.eval operand scope
    skipSpaces
    expect ")"
    note (.closed form (← look (·.pos)))
    return value

/-- Evaluates the expression that lies ahead, given how to evaluate an operand. -/
def expressionAhead (operand : Scope → Eval Value) (scope : Scope) : Eval Value := do
  skipSpaces
  match ← peek with
  | none => fail .emptyExpression
  | some c =>
    if c = '(' then
      advance 1
      formAhead operand scope
    else if c = '-' || c.isDigit then return .number (← readNumber)
    else if c.isAlpha then ofExcept (scope.resolve (.text (← readIdentifier)))
    else fail (.unexpectedChar c)

/-- Evaluates one expression, within a depth limit and a number of levels. -/
def expressionWithin (limit : Option Int) : Nat → Scope → Eval Value
  | 0, _ => nested limit (fail (.stackExhausted limit))
  | levels + 1, scope => nested limit (expressionAhead (expressionWithin limit levels) scope)

/-- Evaluates one expression, with as many levels as the text could need. -/
def Eval.expression (limit : Option Int) (scope : Scope) : Eval Value := do
  expressionWithin limit (← look (·.remaining + 1)) scope

/-- Evaluates the operands of one form, with as many levels as the text could need. -/
def Eval.form (limit : Option Int) (scope : Scope) (form : Form) : Eval Value := do
  form.eval (expressionWithin limit (← look (·.remaining + 1))) scope

/-- How deep an expression may nest before the evaluator gives up on it. -/
def stackLevels : Nat := 600

/-- The outcome of evaluating a text. -/
structure Evaluation where
  /-- the value, or what went wrong -/
  result : Except Fault Value
  /-- the run as it was left -/
  run : Run

/-- Evaluates the first expression of a text in a scope. Text after the expression is not read. -/
def evaluate (source : String) (scope : Scope) (maxDepth : Int) : Evaluation :=
  let (result, run) :=
    expressionWithin (some maxDepth) stackLevels scope { cursor := .ofString source }
  { result, run }

end SExprCalc
