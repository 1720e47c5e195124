import SExprCalc.Cursor.Basic
import SExprCalc.Script

/-!
# Steps of a cursor

The operations of a cursor as data, so that a sequence of them can be applied and spoken about.
-/

namespace SExprCalc.Cursor

/-- An operation of a cursor. -/
inductive Step where
  /-- asks whether nothing is left to read -/
  | atEnd : Step
  /-- asks for the character at a distance -/
  | peek (offset : Int) : Step
  /-- asks for the unread text -/
  | rest : Step
  /-- moves by a number of characters -/
  | advance (n : Int) : Step
  /-- moves past spaces -/
  | skipSpaces : Step
  /-- asks whether the unread text starts with a text -/
  | startsWith (text : String) : Step
  /-- moves past a token -/
  | expect (token : String) : Step
  /-- asks where the identifier that starts here ends -/
  | identifierEnd : Step
  /-- reads an identifier -/
  | readIdentifier : Step
  /-- reads a number -/
  | readNumber : Step
  /-- asks for the cursor as text -/
  | inspect : Step
  deriving DecidableEq, Repr

/-- Applies an operation; a fault leaves the cursor as it was. -/
def apply (c : Cursor) : Step → Except Fault Answer × Cursor
  | .atEnd => (.ok (.flag c.atEnd), c)
  | .peek offset => ((c.peekAt offset).map fun next => .text (String.ofList next.toList), c)
  | .rest => (.ok (.text c.restText), c)
  | .advance n => (.ok .done, c.advance n)
  | .skipSpaces =>
    match c.skipSpaces with
    | .ok c' => (.ok .done, c')
    | .error fault => (.error fault, c)
  | .startsWith text => (.ok (.flag (c.startsWith text)), c)
  | .expect token =>
    match c.expect token with
    | .ok c' => (.ok .done, c')
    | .error fault => (.error fault, c)
  | .identifierEnd => (c.identifierEnd.map .integer, c)
  | .readIdentifier =>
    match c.readIdentifier with
    | .ok (name, c') => (.ok (.text name), c')
    | .error fault => (.error fault, c)
  | .readNumber =>
    match c.readNumber with
    | .ok (x, c') => (.ok (.value (.number x)), c')
    | .error fault => (.error fault, c)
  | .inspect => (.ok (.text c.inspect), c)

end SExprCalc.Cursor
