import SExprCalc.Scope.Bindings

/-!
# Scopes

A scope has bindings of its own and stands inside other scopes, of which it sees the bindings that
nothing nearer hides. New bindings always go into the scope itself.
-/

namespace SExprCalc

/-- A scope: its own bindings, and those of the scopes around it, the nearest first. -/
structure Scope where
  /-- the bindings of the scope itself -/
  own : Bindings := {}
  /-- the bindings of the scopes around it, from the inside outward -/
  outer : List Bindings := []
  deriving DecidableEq, Repr

namespace Scope

/-- All bindings in sight, the scope's own first. -/
def frames (s : Scope) : List Bindings := s.own :: s.outer

/-- An empty scope inside this one. -/
def child (s : Scope) : Scope := { outer := s.frames }

/-- Binds a name in the scope itself. -/
def define (s : Scope) (name : String) (value : Value) : Scope :=
  { s with own := s.own.set name value }

/-- The number of scopes around this one. -/
def depth (s : Scope) : Nat := s.outer.length

/-- The value of a name in the nearest scope that binds it. -/
def find? (s : Scope) (name : Name) : Option Value := s.frames.findSome? (·.find? name)

/-- The value of a name; an unbound name is a fault. -/
def resolve (s : Scope) (name : Name) : Except Fault Value :=
  match s.find? name with
  | some value => .ok value
  | none => .error (.unbound name)

/-- The scope with given frames, the outermost first. No frames make an empty scope. -/
def ofFrames (frames : List Bindings) : Scope :=
  match frames.reverse with
  | [] => {}
  | own :: outer => { own, outer }

/-- A one-line view: the scope's own bindings, and a mark if there are scopes around it. -/
def summary (s : Scope) : String :=
  s.own.inspect ++ if s.outer.isEmpty then "" else " -> ..."

/-- The whole chain as text, from the inside outward. -/
def inspect (s : Scope) : String :=
  "<Scope chain: " ++ " -> ".intercalate (s.frames.map Bindings.inspect) ++ ">"

/-! ### What a scope sees -/

@[simp] theorem frames_child (s : Scope) : s.child.frames = {} :: s.frames := rfl

@[simp] theorem depth_child (s : Scope) : s.child.depth = s.depth + 1 := rfl

/-- An empty scope sees what the scope around it sees. -/
@[simp] theorem find?_child (s : Scope) (name : Name) : s.child.find? name = s.find? name := by
  cases name <;> simp [find?, Bindings.find?, List.findSome?_cons]

/-- A new binding is seen at once. -/
@[simp] theorem find?_define_self (s : Scope) (name : String) (value : Value) :
    (s.define name value).find? (.text name) = some value := by
  simp [find?, frames, define, Bindings.find?]

/-- A new binding hides no other name. -/
theorem find?_define_ne (s : Scope) {name : String} {other : Name} (h : other ≠ .text name)
    (value : Value) : (s.define name value).find? other = s.find? other := by
  cases other with
  | text t =>
    have ht : t ≠ name := fun e => h (by rw [e])
    simp [find?, frames, define, Bindings.find?, List.findSome?_cons, Bindings.get?_set_ne _ ht]
  | _ => simp [find?, frames, define, Bindings.find?]

/-- Where two scopes see the same, they still do after the same binding. -/
theorem find?_define_congr {s t : Scope} {other : Name} (h : s.find? other = t.find? other)
    (name : String) (value : Value) :
    (s.define name value).find? other = (t.define name value).find? other := by
  by_cases hname : other = .text name
  · rw [hname, find?_define_self, find?_define_self]
  · rw [find?_define_ne s hname, find?_define_ne t hname, h]

end Scope

end SExprCalc
