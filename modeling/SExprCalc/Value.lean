import SExprCalc.Number.Shortest
import SExprCalc.Text.Quoted

/-!
# Values

The language has three kinds of value: numbers, booleans and nil, the result of a form that is
evaluated only for its effect. A scope, however, is filled by whoever owns it, and may hold an
object from outside for which the language has no kind. Such a **foreign** value can be passed
around by name; only an operation that asks for its kind notices.
-/

namespace SExprCalc

/-- The kinds of value of the language. -/
inductive Kind where
  /-- a binary64 number -/
  | number : Kind
  /-- true or false -/
  | boolean : Kind
  /-- the value without content -/
  | nil : Kind
  deriving DecidableEq, Repr

/-- The name of a kind, as messages show it. -/
def Kind.name : Kind → String
  | number => "number"
  | boolean => "boolean"
  | nil => "nil"

/-- An object that is no value of the language. -/
inductive Foreign where
  /-- an unbounded integer -/
  | integer (n : Int) : Foreign
  /-- a piece of text -/
  | text (s : String) : Foreign
  /-- the absence of an object -/
  | absent : Foreign
  deriving DecidableEq, Repr

/-- What a name can be bound to and an expression can evaluate to. -/
inductive Value where
  /-- a number -/
  | number (x : Binary64) : Value
  /-- a boolean -/
  | boolean (b : Bool) : Value
  /-- nil -/
  | nil : Value
  /-- an object from outside the language -/
  | foreign (x : Foreign) : Value
  deriving DecidableEq, Repr

/-- The spelling of an object when it is inspected. -/
def Foreign.inspect : Foreign → String
  | integer n => toString n
  | text s => String.ofList (Text.quoted s.toList)
  | absent => "None"

namespace Value

/-- The kind of a value, if it has one. -/
def kind? : Value → Option Kind
  | number _ => some .number
  | boolean _ => some .boolean
  | nil => some .nil
  | foreign _ => none

/-- A value of the language itself, not a foreign one. -/
def Legal (v : Value) : Prop := v.kind?.isSome = true

instance (v : Value) : Decidable v.Legal := inferInstanceAs (Decidable (_ = _))

/-- The spelling of a value when a scope is inspected: enough digits to know the number exactly,
and quotes around text. -/
def inspect : Value → String
  | number x => x.toShortest
  | boolean true => "True"
  | boolean false => "False"
  | nil => "nil"
  | foreign x => x.inspect

/-- Whether a value counts as true: all do but zero, false, nil and the empty or absent object. -/
def truthy : Value → Bool
  | number x => !x.isZero
  | boolean b => b
  | nil => false
  | foreign (.integer n) => n != 0
  | foreign (.text s) => s != ""
  | foreign .absent => false

/-- Whether a value is nil; nil is equal to nothing else. -/
def isNil : Value → Bool
  | nil => true
  | _ => false

/-- Equality of two values of one kind: numeric for numbers, so NaN differs from itself. Values
of different kinds are never equal. -/
def equal : Value → Value → Bool
  | number x, number y => x.equal y
  | boolean a, boolean b => a == b
  | nil, nil => true
  | _, _ => false

@[simp] theorem isNil_iff {v : Value} : v.isNil = true ↔ v = nil := by
  cases v <;> simp [isNil]

end Value

end SExprCalc
