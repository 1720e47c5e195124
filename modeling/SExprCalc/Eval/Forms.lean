import SExprCalc.Eval.Run

/-!
# The meaning of the forms

A form is evaluated with the cursor right after its head, and leaves the closing parenthesis
unread. How operands are evaluated is a parameter throughout: each form says only how many operands
it reads, in which scope, and what it makes of their values.

The two loops, over operands and over bindings, carry a bound on their number of rounds. Every
round moves the cursor, so one round more than there are characters left is never used up.
-/

namespace SExprCalc

open Eval

namespace Form

/-- One round more than there are characters left to read. -/
def rounds : Eval Nat := look (·.remaining + 1)

/-- Evaluates an operand that has to be a number. -/
def number (form : Form) (operand : Eval Value) : Eval Binary64 := do
  let value ← operand
  ofExcept (value.expectNumber form.head)

/-- Combines the operands up to the closing parenthesis, from the left. -/
def reduce (form : Form) (combine : Binary64 → Binary64 → Binary64) (operand : Eval Value) :
    Nat → Binary64 → Eval Binary64
  | 0, total => pure total
  | bound + 1, total => do
    skipSpaces
    if (← peek) = some ')' then pure total
    else
      let x ← form.number operand
      reduce form combine operand bound (combine total x)

/-- Moves past spaces and tells whether an operand lies ahead: anything but a closing parenthesis
and the end of the text. -/
def operandAhead : Eval Bool := do
  skipSpaces
  return (← peek).any (· != ')')

/-- One of two operands, which must not be missing. -/
def required (missing : Fault) (operand : Eval Value) : Eval Value := do
  if ← operandAhead then operand else fail missing

/-- The quotient of exactly two operands. -/
def quotient (operand : Eval Value) : Eval Value := do
  let n ← number div (required .tooFewOperands operand)
  let m ← number div (required .tooFewOperands operand)
  if ← operandAhead then fail .tooManyOperands else return .number (n.div m)

/-- The comparison of two operands. -/
def comparison (operand : Eval Value) : Eval Value := do
  let a ← required .comparisonArity operand
  let b ← required .comparisonArity operand
  return .boolean (← ofExcept (a.compare b))

/-- Whether a binding lies ahead: an identifier that is not directly followed by a closing
parenthesis. One that is so followed is the body. -/
def bindingAhead (c : Cursor) : Except Fault Bool := do
  let stop ← c.identifierEnd
  .ok (stop != c.pos && c.slice stop (stop + 1) != [')'])

/-- Reads bindings into a scope for as long as they last. Each value is evaluated in the scope as
it is by then, so it can refer to the names bound before it. -/
def bindings (operand : Scope → Eval Value) : Nat → Scope → Eval Scope
  | 0, scope => pure scope
  | bound + 1, scope => do
    skipSpaces
    if ← lookAhead bindingAhead then
      let name ← readIdentifier
      let value ← operand scope
      bindings operand bound (scope.define name value)
    else pure scope

/-- Evaluates a body in the scope that the bindings before it make. -/
def body (operand : Scope → Eval Value) (scope : Scope) : Eval Value := do
  note (.scopeOpened scope.depth)
  let inner ← bindings operand (← rounds) scope
  operand inner

/-- Prints an operand on a line of its own. -/
def display (operand : Eval Value) : Eval Value := do
  let value ← operand
  note (.printed (← ofExcept value.format))
  return .nil

/-- Evaluates a form, given how to evaluate an operand in a scope. -/
def eval (operand : Scope → Eval Value) (scope : Scope) : Form → Eval Value
  | add => do return .number (← reduce add Binary64.add (operand scope) (← rounds) (.zero false))
  | mult => do return .number (← reduce mult Binary64.mul (operand scope) (← rounds) (.ofInt 1))
  | div => quotient (operand scope)
  | eq => comparison (operand scope.child)
  | letIn => body operand scope.child
  | print => display (operand scope)

end Form

end SExprCalc
