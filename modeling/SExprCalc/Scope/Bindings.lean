import SExprCalc.Fault

/-!
# Bindings

The names that one scope binds, with their values. A name keeps the place of its first binding,
and binding it again replaces the value there.
-/

namespace SExprCalc

/-- Names with their values, in the order in which the names were first bound. -/
structure Bindings where
  /-- the names and values -/
  entries : List (String × Value) := []
  deriving DecidableEq, Repr

namespace Bindings

/-- Replaces the value of a name where it stands, or adds the name at the end. -/
def put (name : String) (value : Value) : List (String × Value) → List (String × Value)
  | [] => [(name, value)]
  | (n, v) :: more => if n = name then (n, value) :: more else (n, v) :: put name value more

/-- Binds a name. -/
def set (b : Bindings) (name : String) (value : Value) : Bindings :=
  ⟨put name value b.entries⟩

/-- Binds a name that may not be one: only text is accepted. -/
def insert (b : Bindings) (name : Name) (value : Value) : Except Fault Bindings :=
  match name with
  | .text s => .ok (b.set s value)
  | other => .error (.badKey other)

/-- The value of a name, if it is bound. -/
def get? (b : Bindings) (name : String) : Option Value := b.entries.lookup name

/-- The value under anything that is asked for in place of a name. Only text is ever bound. -/
def find? (b : Bindings) : Name → Option Value
  | .text s => b.get? s
  | _ => none

/-- Whether a name is bound. -/
def contains (b : Bindings) (name : Name) : Bool := (b.find? name).isSome

/-- The bound names, in the order in which they were first bound. -/
def names (b : Bindings) : List String := b.entries.map Prod.fst

/-- The number of bound names. -/
def size (b : Bindings) : Nat := b.entries.length

/-- The bindings as text: each name as it is, with its value inspected. -/
def inspect (b : Bindings) : String :=
  "\x7b" ++ ", ".intercalate (b.entries.map fun (name, value) => name ++ ": " ++ value.inspect) ++
    "\x7d"

/-! ### Reading after writing -/

theorem lookup_put_self (name : String) (value : Value) (l : List (String × Value)) :
    (put name value l).lookup name = some value := by
  induction l with
  | nil => simp [put]
  | cons e l ih =>
    obtain ⟨n, v⟩ := e
    by_cases h : n = name
    · simp [put, h]
    · have h' : (name == n) = false := by simp [Ne.symm h]
      rw [put, if_neg h, List.lookup_cons, h']
      exact ih

theorem lookup_put_ne {name other : String} (hne : other ≠ name) (value : Value)
    (l : List (String × Value)) : (put name value l).lookup other = l.lookup other := by
  induction l with
  | nil =>
    have h : (other == name) = false := by simp [hne]
    rw [put, List.lookup_cons, h]
  | cons e l ih =>
    obtain ⟨n, v⟩ := e
    by_cases h : n = name
    · subst h
      have h : (other == n) = false := by simp [hne]
      rw [put, if_pos rfl, List.lookup_cons, List.lookup_cons, h]
    · rw [put, if_neg h, List.lookup_cons, List.lookup_cons, ih]

/-- The last write of a name is what is read. -/
@[simp] theorem get?_set_self (b : Bindings) (name : String) (value : Value) :
    (b.set name value).get? name = some value :=
  lookup_put_self name value b.entries

/-- Writing one name does not touch another. -/
theorem get?_set_ne (b : Bindings) {name other : String} (hne : other ≠ name) (value : Value) :
    (b.set name value).get? other = b.get? other :=
  lookup_put_ne hne value b.entries

/-- Binding a name leaves what is found under any other. -/
theorem find?_set_ne (b : Bindings) {name : String} {other : Name} (h : other ≠ .text name)
    (value : Value) : (b.set name value).find? other = b.find? other := by
  cases other with
  | text n => exact b.get?_set_ne (fun hn => h (congrArg Name.text hn)) value
  | _ => rfl

/-- Nothing is bound at first. -/
@[simp] theorem get?_empty (name : String) : ({} : Bindings).get? name = none := rfl

/-! ### The order of the names -/

/-- A name that is already there keeps its place. -/
theorem map_fst_put_of_mem {name : String} {l : List (String × Value)}
    (h : name ∈ l.map Prod.fst) (value : Value) :
    (put name value l).map Prod.fst = l.map Prod.fst := by
  induction l with
  | nil => cases h
  | cons e l ih =>
    obtain ⟨n, v⟩ := e
    by_cases hn : n = name
    · rw [put, if_pos hn]
      rfl
    · have htail : name ∈ l.map Prod.fst := (List.mem_cons.mp h).resolve_left (Ne.symm hn)
      rw [put, if_neg hn, List.map_cons, List.map_cons, ih htail]

/-- A new name comes last. -/
theorem map_fst_put_of_not_mem {name : String} {l : List (String × Value)}
    (h : name ∉ l.map Prod.fst) (value : Value) :
    (put name value l).map Prod.fst = l.map Prod.fst ++ [name] := by
  induction l with
  | nil => rfl
  | cons e l ih =>
    obtain ⟨n, v⟩ := e
    obtain ⟨hn, htail⟩ : name ≠ n ∧ name ∉ l.map Prod.fst := by simpa using h
    rw [put, if_neg (Ne.symm hn), List.map_cons, List.map_cons, ih htail, List.cons_append]

/-- A name that is bound again keeps its place. -/
theorem names_set_of_mem {b : Bindings} {name : String} (h : name ∈ b.names) (value : Value) :
    (b.set name value).names = b.names :=
  map_fst_put_of_mem h value

/-- A new name comes last. -/
theorem names_set_of_not_mem {b : Bindings} {name : String} (h : name ∉ b.names)
    (value : Value) : (b.set name value).names = b.names ++ [name] :=
  map_fst_put_of_not_mem h value

theorem mem_names_set {b : Bindings} {name n : String} {value : Value} :
    n ∈ (b.set name value).names ↔ n ∈ b.names ∨ n = name := by
  by_cases hname : name ∈ b.names
  · rw [names_set_of_mem hname]
    exact ⟨.inl, fun hn => hn.elim id fun hn => hn ▸ hname⟩
  · rw [names_set_of_not_mem hname, List.mem_append, List.mem_singleton]

end Bindings

end SExprCalc
