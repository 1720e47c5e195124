import SExprCalc.Eval.Expr

/-!
# Expressions as trees

Evaluation never builds a tree, but its results can be understood through one. This module has the
trees of the language (`Expr`), with the number of operands of each form fixed by its constructor,
and what they mean in a scope (`Expr.meaning`), without any text, cursor or depth:

* a meaning (`Meaning`) is a result or a fault, *together with* the lines printed before it, so a
  fault says exactly where evaluation is cut off;
* operands are evaluated from the left, and the first fault ends everything;
* the operands of `eq` are evaluated in a scope of their own, and so are the bindings and the body
  of `let`, where each binding sees those before it.

The same step by step is `Expr.meaningBy`, in which the meaning of the parts is left open.
-/

namespace SExprCalc

/-! ### Tokens -/

/-- A number as it is written: an optional minus sign and at least one digit. -/
structure Numeral where
  /-- whether a minus sign stands in front -/
  negative : Bool
  /-- the digits -/
  digits : List Char
  /-- there is a digit -/
  ne_nil : digits ≠ [] := by decide
  /-- there are only digits -/
  isDigit : ∀ c ∈ digits, c.isDigit = true := by exact List.all_eq_true.mp (by decide)
  deriving DecidableEq, Repr

namespace Numeral

/-- The characters of a number. -/
def text (n : Numeral) : List Char := if n.negative then '-' :: n.digits else n.digits

/-- The value of a number, if it is in range. -/
def value (n : Numeral) : Except Fault Value :=
  match Literal.value? n.text with
  | some x => .ok (.number x)
  | none => .error (.literalOutOfRange (String.ofList n.text))

end Numeral

/-- An identifier: a letter, then letters and digits, all of them ASCII. -/
structure Identifier where
  /-- the first character -/
  first : Char
  /-- the other characters -/
  more : List Char
  /-- the first character is a letter -/
  isAlpha : first.isAlpha = true := by decide
  /-- the others are letters and digits -/
  isAlphanum : ∀ c ∈ more, c.isAlphanum = true := by exact List.all_eq_true.mp (by decide)
  deriving DecidableEq, Repr

namespace Identifier

/-- The characters of an identifier. -/
def text (x : Identifier) : List Char := x.first :: x.more

/-- The name that an identifier spells. -/
def name (x : Identifier) : String := String.ofList x.text

theorem eq_of_text_eq {x y : Identifier} (h : x.text = y.text) : x = y := by
  cases x; cases y
  obtain ⟨rfl, rfl⟩ := List.cons.inj h
  rfl

end Identifier

/-! ### Trees -/

/-- The expressions of the language. -/
inductive Expr where
  /-- a number -/
  | number (n : Numeral) : Expr
  /-- a name, which stands for what it is bound to -/
  | name (x : Identifier) : Expr
  /-- the sum of any number of operands -/
  | add (operands : List Expr) : Expr
  /-- the product of any number of operands -/
  | mult (operands : List Expr) : Expr
  /-- the quotient of two operands -/
  | div (a b : Expr) : Expr
  /-- the comparison of two operands -/
  | eq (a b : Expr) : Expr
  /-- bindings of names, and a body -/
  | letIn (bindings : List (Identifier × Expr)) (body : Expr) : Expr
  /-- the printing of an operand -/
  | print (a : Expr) : Expr
  deriving Repr

namespace Expr

mutual

/-- The number of levels that an expression takes: one for itself and those of its deepest part. -/
def height : Expr → Nat
  | number _ => 1
  | name _ => 1
  | add es => 1 + heightAll es
  | mult es => 1 + heightAll es
  | div a b => 1 + max a.height b.height
  | eq a b => 1 + max a.height b.height
  | letIn bs body => 1 + max (heightBindings bs) body.height
  | print a => 1 + a.height

/-- The greatest height of some expressions. -/
def heightAll : List Expr → Nat
  | [] => 0
  | e :: es => max e.height (heightAll es)

/-- The greatest height of the expressions that some bindings have. -/
def heightBindings : List (Identifier × Expr) → Nat
  | [] => 0
  | (_, e) :: bs => max e.height (heightBindings bs)

end

theorem height_le_heightAll {e : Expr} {es : List Expr} (h : e ∈ es) :
    e.height ≤ heightAll es := by
  induction es with
  | nil => cases h
  | cons a es ih =>
    rw [heightAll]
    rcases List.mem_cons.mp h with rfl | h
    · omega
    · have := ih h
      omega

theorem height_le_heightBindings {b : Identifier × Expr} {bs : List (Identifier × Expr)}
    (h : b ∈ bs) : b.2.height ≤ heightBindings bs := by
  induction bs with
  | nil => cases h
  | cons a bs ih =>
    rw [heightBindings]
    rcases List.mem_cons.mp h with rfl | h
    · omega
    · have := ih h
      omega

end Expr

/-! ### Meanings -/

/-- What an expression amounts to: a result or a fault, and the lines printed before it. -/
structure Meaning (α : Type) where
  /-- the result, or what went wrong -/
  result : Except Fault α
  /-- the lines printed, in order -/
  lines : List String
  deriving Repr

namespace Meaning

variable {α β : Type}

/-- A result, with nothing printed. -/
protected def pure (a : α) : Meaning α := ⟨.ok a, []⟩

/-- Goes on after a result; a fault is the end. -/
protected def bind (m : Meaning α) (f : α → Meaning β) : Meaning β :=
  match m.result with
  | .ok a => ⟨(f a).result, m.lines ++ (f a).lines⟩
  | .error fault => ⟨.error fault, m.lines⟩

instance : Monad Meaning where
  pure := Meaning.pure
  bind := Meaning.bind

/-- A result or a fault, with nothing printed. -/
def ofExcept (x : Except Fault α) : Meaning α := ⟨x, []⟩

/-- A line is printed. -/
def say (line : String) : Meaning Unit := ⟨.ok (), [line]⟩

/-- The number that a numeric form needs as an operand. -/
def number (form : Form) (m : Meaning Value) : Meaning Binary64 := do
  let v ← m
  ofExcept (v.expectNumber form.head)

@[simp] theorem result_pure (a : α) : (pure a : Meaning α).result = .ok a := rfl

@[simp] theorem lines_pure (a : α) : (pure a : Meaning α).lines = [] := rfl

@[simp] theorem ok_bind (a : α) (lines : List String) (f : α → Meaning β) :
    (⟨.ok a, lines⟩ : Meaning α) >>= f = ⟨(f a).result, lines ++ (f a).lines⟩ := rfl

@[simp] theorem error_bind (fault : Fault) (lines : List String) (f : α → Meaning β) :
    (⟨.error fault, lines⟩ : Meaning α) >>= f = ⟨.error fault, lines⟩ := rfl

/-- After a result the meanings continue, and the lines of the second come behind those of the
first. -/
theorem bind_of_ok {m : Meaning α} {a : α} (h : m.result = .ok a) (f : α → Meaning β) :
    m >>= f = ⟨(f a).result, m.lines ++ (f a).lines⟩ := by
  change Meaning.bind m f = _
  rw [Meaning.bind, h]

/-- A fault ends a meaning, with the lines that were printed before it. -/
theorem bind_of_error {m : Meaning α} {fault : Fault} (h : m.result = .error fault)
    (f : α → Meaning β) : m >>= f = ⟨.error fault, m.lines⟩ := by
  change Meaning.bind m f = _
  rw [Meaning.bind, h]

protected theorem bind_pure (m : Meaning α) : m >>= pure = m := by
  rcases h : m.result with fault | a
  · rw [bind_of_error h, ← h]
  · rw [bind_of_ok h]
    change Meaning.mk (.ok a) (m.lines ++ []) = m
    rw [List.append_nil, ← h]

/-- What is printed in three stages does not depend on how they are grouped. -/
protected theorem bind_assoc {γ : Type} (m : Meaning α) (f : α → Meaning β) (g : β → Meaning γ) :
    m >>= f >>= g = m >>= fun a => f a >>= g := by
  rcases h : m.result with fault | a
  · rw [bind_of_error h, bind_of_error h, bind_of_error rfl]
  · rw [bind_of_ok h, bind_of_ok h]
    rcases hf : (f a).result with fault | b
    · rw [bind_of_error rfl, bind_of_error hf]
    · rw [bind_of_ok rfl, bind_of_ok hf, List.append_assoc]

end Meaning

namespace Expr

mutual

/-- The meaning of an expression in a scope. -/
def meaning : Expr → Scope → Meaning Value
  | number n, _ => .ofExcept n.value
  | name x, scope => .ofExcept (scope.resolve (.text x.name))
  | add es, scope => do
    return .number (← meaningAll .add Binary64.add scope es (.zero false))
  | mult es, scope => do
    return .number (← meaningAll .mult Binary64.mul scope es (.ofInt 1))
  | div a b, scope => do
    let n ← (a.meaning scope).number .div
    let m ← (b.meaning scope).number .div
    return .number (n.div m)
  | eq a b, scope => do
    let v ← a.meaning scope.child
    let w ← b.meaning scope.child
    return .boolean (← .ofExcept (v.compare w))
  | letIn bs body, scope => do
    let inner ← meaningBindings scope.child bs
    body.meaning inner
  | print a, scope => do
    let v ← a.meaning scope
    .say (← .ofExcept v.format)
    return .nil

/-- The operands of a numeric form combined from the left. -/
def meaningAll (form : Form) (combine : Binary64 → Binary64 → Binary64) (scope : Scope) :
    List Expr → Binary64 → Meaning Binary64
  | [], total => return total
  | e :: es, total => do
    let x ← (e.meaning scope).number form
    meaningAll form combine scope es (combine total x)

/-- The scope that some bindings make. -/
def meaningBindings (scope : Scope) : List (Identifier × Expr) → Meaning Scope
  | [] => return scope
  | (x, e) :: bs => do
    let v ← e.meaning scope
    meaningBindings (scope.define x.name v) bs

end

/-! ### One level at a time

What an expression means depends on the meanings of its parts alone. `meaningBy` is that one step,
with the meaning of the parts as a parameter; the meaning is what the step makes of itself. -/

/-- The expressions directly inside an expression. -/
def parts : Expr → List Expr
  | number _ | name _ => []
  | add es | mult es => es
  | div a b | eq a b => [a, b]
  | letIn bs body => body :: bs.map Prod.snd
  | print a => [a]

/-- A part is lower than the whole, so recursion over parts ends. -/
theorem height_lt_of_mem_parts {e p : Expr} (h : p ∈ e.parts) : p.height < e.height := by
  cases e with
  | number | name => cases h
  | add es | mult es =>
    have hle : p.height ≤ heightAll es := height_le_heightAll h
    rw [height]
    omega
  | div a b | eq a b =>
    rw [height]
    rcases List.mem_cons.mp h with rfl | h
    · omega
    · cases List.mem_singleton.mp h
      omega
  | letIn bs body =>
    rw [height]
    rcases List.mem_cons.mp h with rfl | h
    · omega
    · obtain ⟨b, hb, rfl⟩ := List.mem_map.mp h
      have := height_le_heightBindings hb
      omega
  | print a =>
    cases List.mem_singleton.mp h
    rw [height]
    omega

section

variable (sem : Expr → Scope → Meaning Value)

/-- The operands of a numeric form combined from the left, given what they mean. -/
def meaningAllBy (form : Form) (combine : Binary64 → Binary64 → Binary64) (scope : Scope) :
    List Expr → Binary64 → Meaning Binary64
  | [], total => return total
  | e :: es, total => do
    let x ← (sem e scope).number form
    meaningAllBy form combine scope es (combine total x)

/-- The scope that some bindings make, given what their expressions mean. -/
def meaningBindingsBy (scope : Scope) : List (Identifier × Expr) → Meaning Scope
  | [] => return scope
  | (x, e) :: bs => do
    let v ← sem e scope
    meaningBindingsBy (scope.define x.name v) bs

/-- The meaning of an expression in a scope, given what its parts mean. -/
def meaningBy : Expr → Scope → Meaning Value
  | number n, _ => .ofExcept n.value
  | name x, scope => .ofExcept (scope.resolve (.text x.name))
  | add es, scope => do
    return .number (← meaningAllBy sem .add Binary64.add scope es (.zero false))
  | mult es, scope => do
    return .number (← meaningAllBy sem .mult Binary64.mul scope es (.ofInt 1))
  | div a b, scope => do
    let n ← (sem a scope).number .div
    let m ← (sem b scope).number .div
    return .number (n.div m)
  | eq a b, scope => do
    let v ← sem a scope.child
    let w ← sem b scope.child
    return .boolean (← .ofExcept (v.compare w))
  | letIn bs body, scope => do
    let inner ← meaningBindingsBy sem scope.child bs
    sem body inner
  | print a, scope => do
    let v ← sem a scope
    .say (← .ofExcept v.format)
    return .nil

end

theorem meaningAllBy_meaning (form : Form) (combine : Binary64 → Binary64 → Binary64)
    (scope : Scope) (es : List Expr) (total : Binary64) :
    meaningAllBy meaning form combine scope es total =
      meaningAll form combine scope es total := by
  induction es generalizing total with
  | nil => rw [meaningAllBy, meaningAll]
  | cons e es ih => simp only [meaningAllBy, meaningAll, ih]

theorem meaningBindingsBy_meaning (scope : Scope) (bs : List (Identifier × Expr)) :
    meaningBindingsBy meaning scope bs = meaningBindings scope bs := by
  induction bs generalizing scope with
  | nil => rw [meaningBindingsBy, meaningBindings]
  | cons b bs ih => simp only [meaningBindingsBy, meaningBindings, ih]

/-- The meaning is what the step makes of itself. -/
theorem meaningBy_meaning (e : Expr) (scope : Scope) :
    e.meaningBy meaning scope = e.meaning scope := by
  cases e <;> simp only [meaningBy, meaning, meaningAllBy_meaning, meaningBindingsBy_meaning]

end Expr

end SExprCalc
