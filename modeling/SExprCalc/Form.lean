/-!
# Forms

The six forms of the language and the words that call for them. A form is recognised by the text
right after an opening parenthesis, which only has to *start* with its head: no separator is needed
between the head and the first operand. The heads are tried in the order of `Form.all`.
-/

namespace SExprCalc

/-- The forms of the language. -/
inductive Form where
  /-- the sum of any number of operands -/
  | add : Form
  /-- the product of any number of operands -/
  | mult : Form
  /-- the quotient of two operands -/
  | div : Form
  /-- the comparison of two operands -/
  | eq : Form
  /-- bindings of names to operands, and a body -/
  | letIn : Form
  /-- the printing of one operand -/
  | print : Form
  deriving DecidableEq, Repr

namespace Form

/-- The word that calls for a form. -/
def head : Form → String
  | add => "add"
  | mult => "mult"
  | div => "div"
  | eq => "eq"
  | letIn => "let"
  | print => "print"

/-- All forms, in the order in which their heads are tried. -/
def all : List Form := [add, mult, div, eq, letIn, print]

/-- The form with a given head. -/
def ofHead? (word : String) : Option Form := all.find? (·.head == word)

/-- Every form is in the list of all forms. -/
@[simp] theorem mem_all (f : Form) : f ∈ all := by
  cases f <;> decide

end Form

end SExprCalc
