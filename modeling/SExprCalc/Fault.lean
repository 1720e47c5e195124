import SExprCalc.Value

/-!
# Faults

Everything that can go wrong, by cause. A fault carries what its message shows: the unread text,
the name, the kinds. `Fault.message` holds all the wording, and `Fault.family` sorts the causes
into the few families that a caller tells apart.
-/

namespace SExprCalc

/-- A name under which a binding is asked for. Only text can be bound; the other names are what a
caller may pass by mistake. -/
inductive Name where
  /-- an ordinary name -/
  | text (s : String) : Name
  /-- an integer in place of a name -/
  | integer (n : Int) : Name
  /-- a truth value in place of a name -/
  | flag (b : Bool) : Name
  /-- nothing in place of a name -/
  | absent : Name
  deriving DecidableEq, Repr

/-- A name as messages show it, without quotes. -/
def Name.shown : Name → String
  | text s => s
  | integer n => toString n
  | flag true => "True"
  | flag false => "False"
  | absent => "None"

/-- The ways in which an operation of the library can fail. -/
inductive Fault where
  /-- no expression before the end of the text -/
  | emptyExpression : Fault
  /-- an opening parenthesis not followed by the head of a form -/
  | notCallable (rest : String) : Fault
  /-- a character with which no expression starts -/
  | unexpectedChar (c : Char) : Fault
  /-- a required token that is not there -/
  | expectedToken (token rest : String) : Fault
  /-- a number without digits -/
  | expectedDigits (rest : String) : Fault
  /-- an identifier that is not there -/
  | expectedIdentifier (rest : String) : Fault
  /-- a literal with too many digits, or beyond the largest number -/
  | literalOutOfRange (literal : String) : Fault
  /-- an operand of a numeric form that is no number -/
  | notNumber (form : String) (kind : Kind) : Fault
  /-- a comparison of two values of different kinds -/
  | kindsDiffer (left right : Kind) : Fault
  /-- a division with fewer than two operands -/
  | tooFewOperands : Fault
  /-- a division with more than two operands -/
  | tooManyOperands : Fault
  /-- a comparison with fewer than two operands -/
  | comparisonArity : Fault
  /-- a name that no scope of the chain binds -/
  | unbound (name : Name) : Fault
  /-- an expression nested deeper than its limit allows -/
  | tooDeep (limit : Int) (rest : String) : Fault
  /-- an expression nested deeper than the evaluator can follow -/
  | stackExhausted (limit : Option Int) : Fault
  /-- an object of which the kind was asked, and which has none -/
  | unknownValue (x : Foreign) : Fault
  /-- a binding under a name that is not text -/
  | badKey (name : Name) : Fault
  /-- a look at a position before the start of the text -/
  | outOfText : Fault
  /-- a look at a position too far off to be one of any text -/
  | unaddressable : Fault
  deriving DecidableEq, Repr

namespace Fault

/-- What a caller tells apart about faults. -/
inductive Family where
  /-- the text does not match the grammar -/
  | malformed : Family
  /-- an operand has the wrong kind -/
  | mistyped : Family
  /-- a form has too few or too many operands -/
  | arity : Family
  /-- a name is not bound -/
  | unbound : Family
  /-- expressions are nested too deeply -/
  | depth : Family
  /-- the library was handed something that is no part of the language -/
  | internal : Family
  /-- a position lies before the text -/
  | position : Family
  deriving DecidableEq, Repr

/-- The family of a fault. -/
def family : Fault → Family
  | emptyExpression | notCallable _ | unexpectedChar _ | expectedToken _ _ | expectedDigits _
  | expectedIdentifier _ | literalOutOfRange _ => .malformed
  | notNumber _ _ | kindsDiffer _ _ => .mistyped
  | tooFewOperands | tooManyOperands | comparisonArity => .arity
  | unbound _ => .unbound
  | tooDeep _ _ | stackExhausted _ => .depth
  | unknownValue _ | badKey _ => .internal
  | outOfText | unaddressable => .position

/-- Whether a fault is one of those that the language and its library declare. The others are
failed looks at a text. -/
def ofLanguage (fault : Fault) : Bool := fault.family ≠ .position

/-- The message of a fault. -/
def message : Fault → String
  | emptyExpression => "tried to evaluate an empty expression"
  | notCallable rest => "expected the name of a callable: " ++ rest
  | unexpectedChar c => "unexpected char " ++ String.ofList (Text.quoted [c])
  | expectedToken token rest =>
    "expected " ++ String.ofList (Text.quoted token.toList) ++ ": " ++ rest
  | expectedDigits rest => "expected digits: " ++ rest
  | expectedIdentifier rest => "expected an identifier: " ++ rest
  | literalOutOfRange literal => "numeric literal out of range: " ++ literal
  | notNumber form kind => form ++ " expected a number, got " ++ kind.name
  | kindsDiffer left right =>
    "expected a and b to have the same kind (got '" ++ left.name ++ "' and '" ++ right.name ++ "')"
  | tooFewOperands => "not enough arguments for binary op"
  | tooManyOperands => "too many arguments for binary op"
  | comparisonArity => "eq requires exactly 2 arguments: (eq a b)"
  | unbound name => "unbound reference: " ++ name.shown
  | tooDeep limit rest =>
    "expression nested deeper than " ++ toString limit ++ " levels: " ++ rest
  | stackExhausted (some limit) =>
    "expression nested too deeply for the interpreter stack (depth " ++ toString limit ++
      " allowed)"
  | stackExhausted none => "expression nested too deeply for the interpreter stack"
  | unknownValue x => "unknown runtime value " ++ x.inspect
  | badKey name => "could not insert key " ++ name.shown ++ " into binding store"
  | outOfText => "string index out of range"
  | unaddressable => "cannot fit 'int' into an index-sized integer"

end Fault

/-! ### Values whose kind is asked for -/

namespace Value

/-- The kind of a value; a foreign value is a fault. -/
def kind : Value → Except Fault Kind
  | number _ => .ok .number
  | boolean _ => .ok .boolean
  | nil => .ok .nil
  | foreign x => .error (.unknownValue x)

/-- The number that a numeric form needs as an operand. -/
def expectNumber (form : String) : Value → Except Fault Binary64
  | number x => .ok x
  | boolean _ => .error (.notNumber form .boolean)
  | nil => .error (.notNumber form .nil)
  | foreign x => .error (.unknownValue x)

/-- The number of decimal places with which numbers are printed. -/
def places : Nat := 6

/-- The text of a value when it is printed. -/
def format : Value → Except Fault String
  | number x => .ok (x.toFixed places)
  | boolean true => .ok "true"
  | boolean false => .ok "false"
  | nil => .ok "nil"
  | foreign x => .error (.unknownValue x)

/-- The comparison of two values: they must be of one kind. -/
def compare (a b : Value) : Except Fault Bool := do
  let left ← a.kind
  let right ← b.kind
  if left = right then .ok (a.equal b) else .error (.kindsDiffer left right)

/-- Asking for the kind succeeds exactly on the values of the language. -/
theorem kind_eq_ok_iff {v : Value} {k : Kind} : v.kind = .ok k ↔ v.kind? = some k := by
  cases v <;> simp [kind, kind?]

/-- Exactly the values of the language can be printed. -/
theorem format_isOk {v : Value} : v.Legal ↔ ∃ s, v.format = .ok s := by
  cases v with
  | boolean b => cases b <;> simp [Legal, kind?, format]
  | _ => simp [Legal, kind?, format]

end Value

end SExprCalc
