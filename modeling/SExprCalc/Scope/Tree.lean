import SExprCalc.Eval.Expr
import SExprCalc.Script

/-!
# Trees of scopes

Scopes that are created one inside another form a tree, and stay alive side by side: a name bound
later in an outer scope is seen at once in all scopes inside it, unless something nearer hides it.
A tree therefore holds the own bindings of each scope once, with the path from the scope to the
root; the scope as an expression sees it (`Tree.scope`) is put together from that path.
-/

namespace SExprCalc.Scope

/-- A scope of a tree: its own bindings, and the numbers of the scopes around it, the nearest
first. -/
structure Node where
  /-- the bindings of the scope itself -/
  own : Bindings := {}
  /-- the scopes around it, from the inside outward -/
  ancestors : List Nat := []
  deriving DecidableEq, Repr

/-- Scopes, numbered in the order of their creation. -/
structure Tree where
  /-- the scopes by number -/
  nodes : List Node := [{}]
  deriving DecidableEq, Repr

namespace Tree

/-- The scopes from the given one to the root. -/
def path (t : Tree) (i : Nat) : List Nat :=
  i :: ((t.nodes[i]?).map Node.ancestors).getD []

/-- The own bindings of a scope. -/
def own (t : Tree) (i : Nat) : Bindings := ((t.nodes[i]?).map Node.own).getD {}

/-- A scope of the tree, with all that it sees. -/
def scope (t : Tree) (i : Nat) : Scope where
  own := t.own i
  outer := (t.path i).tail.map t.own

/-- Adds an empty scope inside a given one. -/
def child (t : Tree) (i : Nat) : Tree := ⟨t.nodes ++ [{ ancestors := t.path i }]⟩

/-- Binds a name in one scope. -/
def define (t : Tree) (i : Nat) (name : Name) (value : Value) : Except Fault Tree := do
  let b ← (t.own i).insert name value
  .ok ⟨t.nodes.modify i fun node => { node with own := b }⟩

/-- The nearest scope on the path to the root that binds a name. -/
def find? (t : Tree) (i : Nat) (name : Name) : Option Nat :=
  (t.path i).find? fun j => (t.own j).contains name

/-- An operation on one scope of a tree. -/
inductive Operation where
  /-- creates a scope inside this one and answers its number -/
  | child : Operation
  /-- binds a name -/
  | define (name : Name) (value : Value) : Operation
  /-- asks for the value of a name -/
  | lookup (name : Name) : Operation
  /-- asks for the value of a name that has to be bound -/
  | resolve (name : Name) : Operation
  /-- asks for the scope that binds a name -/
  | find (name : Name) : Operation
  /-- asks for the number of scopes around this one -/
  | depth : Operation
  /-- asks for the one-line view -/
  | summary : Operation
  /-- evaluates a text in this scope -/
  | eval (source : String) : Operation
  deriving DecidableEq, Repr

/-- A step: an operation and the number of the scope that it is meant for. -/
structure Step where
  /-- the scope -/
  place : Nat
  /-- what is to be done there -/
  operation : Operation
  deriving DecidableEq, Repr

/-- Applies a step. Texts are evaluated within the given depth limit. -/
def apply (maxDepth : Int) (t : Tree) (s : Step) : Except Fault Answer × Tree :=
  match s.operation with
  | .child => (.ok (.integer t.nodes.length), t.child s.place)
  | .define name value =>
    match t.define s.place name value with
    | .ok t' => (.ok .done, t')
    | .error fault => (.error fault, t)
  | .lookup name => (.ok (.ofValue? ((t.scope s.place).find? name)), t)
  | .resolve name => (((t.scope s.place).resolve name).map .value, t)
  | .find name =>
    (.ok (match t.find? s.place name with
      | some j => .integer j
      | none => .done), t)
  | .depth => (.ok (.integer (t.scope s.place).depth), t)
  | .summary => (.ok (.text (t.scope s.place).summary), t)
  | .eval source => ((evaluate source (t.scope s.place) maxDepth).result.map .value, t)

end Tree

end SExprCalc.Scope
