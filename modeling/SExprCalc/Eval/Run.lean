import SExprCalc.Cursor.Basic
import SExprCalc.Form
import SExprCalc.Scope.Basic

/-!
# Runs

Evaluation reads as it goes: there is no tree between the text and the value. What it works on is a
**run**: the cursor that all levels of an expression share, the present depth of nesting, and a
history of what has happened. A computation over a run, `Eval α`, ends in a result or in a fault,
and *either way* leaves a run behind. So what was printed before a fault is not lost, and neither is
the place where it occurred.
-/

namespace SExprCalc

/-- What can be observed of a run while it goes on. -/
inductive Event where
  /-- an expression is entered at a depth, with the cursor at a position -/
  | entered (depth pos : Int) : Event
  /-- a form has been recognised, its head ending at a position -/
  | dispatched (form : Form) (pos : Int) : Event
  /-- a scope for bindings has been opened at a depth of nesting -/
  | scopeOpened (depth : Nat) : Event
  /-- a line has been printed -/
  | printed (line : String) : Event
  /-- a form has been read up to and including its closing parenthesis -/
  | closed (form : Form) (pos : Int) : Event
  deriving DecidableEq, Repr

/-- The state of an evaluation. -/
structure Run where
  /-- where reading has got to -/
  cursor : Cursor
  /-- how many expressions have been entered and not left -/
  depth : Int := 0
  /-- what has happened, the latest first -/
  history : List Event := []
  deriving DecidableEq, Repr

namespace Run

/-- What has happened, in order. -/
def events (run : Run) : List Event := run.history.reverse

/-- The lines among some events. -/
def lines (events : List Event) : List String :=
  events.filterMap fun
    | .printed line => some line
    | _ => none

/-- The text printed so far. -/
def output (run : Run) : String := String.join ((lines run.events).map (· ++ "\n"))

/-- The run after going one level deeper. -/
def deeper (run : Run) : Run :=
  { run with
    depth := run.depth + 1
    history := .entered (run.depth + 1) run.cursor.pos :: run.history }

end Run

/-- A computation over a run, which ends in a result or in a fault. -/
def Eval (α : Type) : Type := Run → Except Fault α × Run

namespace Eval

variable {α β : Type}

/-- Ends in a result at once. -/
@[inline] protected def pure (a : α) : Eval α := fun run => (.ok a, run)

/-- Goes on with the result of the first computation; a fault ends both. -/
@[inline] protected def bind (x : Eval α) (f : α → Eval β) : Eval β := fun run =>
  match x run with
  | (.ok a, run') => f a run'
  | (.error fault, run') => (.error fault, run')

instance : Monad Eval where
  pure := Eval.pure
  bind := Eval.bind

@[simp] theorem pure_apply (a : α) (run : Run) : (pure a : Eval α) run = (.ok a, run) := rfl

/-- The second computation continues from the run that the first one leaves; a fault ends both, with
the run as it is then. -/
theorem bind_apply (x : Eval α) (f : α → Eval β) (run : Run) :
    (x >>= f) run = match x run with
      | (.ok a, run') => f a run'
      | (.error fault, run') => (.error fault, run') := rfl

/-- Introduction for `bind` after a result. -/
theorem bind_of_ok {x : Eval α} {f : α → Eval β} {run run' : Run} {a : α}
    (h : x run = (.ok a, run')) : (x >>= f) run = f a run' := by
  rw [bind_apply, h]

/-- Introduction for `bind` after a fault. -/
theorem bind_of_error {x : Eval α} {f : α → Eval β} {run run' : Run} {fault : Fault}
    (h : x run = (.error fault, run')) : (x >>= f) run = (.error fault, run') := by
  rw [bind_apply, h]

instance : LawfulMonad Eval := LawfulMonad.mk' Eval
  (fun x => funext fun run => by
    change (match x run with
      | (.ok a, run') => ((.ok (id a), run') : Except Fault _ × Run)
      | (.error fault, run') => (.error fault, run')) = x run
    rcases x run with ⟨_ | _, _⟩ <;> rfl)
  (fun _ _ => rfl)
  (fun x f g => funext fun run => by
    change (match (match x run with
        | (.ok a, run') => f a run'
        | (.error fault, run') => (.error fault, run')) with
      | (.ok b, run'') => g b run''
      | (.error fault, run'') => (.error fault, run'')) = match x run with
        | (.ok a, run') => (f a >>= g) run'
        | (.error fault, run') => (.error fault, run')
    rcases x run with ⟨_ | _, _⟩ <;> rfl)

/-! ### Elementary steps -/

/-- Ends in a fault. -/
def fail (fault : Fault) : Eval α := fun run => (.error fault, run)

/-- A result or fault that does not depend on the run. -/
def ofExcept : Except Fault α → Eval α
  | .ok a => pure a
  | .error fault => fail fault

/-- A view of the cursor. -/
def look (f : Cursor → α) : Eval α := fun run => (.ok (f run.cursor), run)

/-- A look ahead that may fail. -/
def lookAhead (f : Cursor → Except Fault α) : Eval α := fun run => (f run.cursor, run)

/-- A reader: it moves the cursor on success and leaves it alone otherwise. -/
def read (f : Cursor → Except Fault (α × Cursor)) : Eval α := fun run =>
  match f run.cursor with
  | .ok (a, cursor) => (.ok a, { run with cursor })
  | .error fault => (.error fault, run)

/-- A move of the cursor. -/
def move (f : Cursor → Except Fault Cursor) : Eval Unit := fun run =>
  match f run.cursor with
  | .ok cursor => (.ok (), { run with cursor })
  | .error fault => (.error fault, run)

/-- Records an event. -/
def note (event : Event) : Eval Unit := fun run =>
  (.ok (), { run with history := event :: run.history })

@[simp] theorem fail_apply (fault : Fault) (run : Run) :
    (fail fault : Eval α) run = (.error fault, run) := rfl

@[simp] theorem ofExcept_apply (x : Except Fault α) (run : Run) : ofExcept x run = (x, run) := by
  cases x <;> rfl

@[simp] theorem look_apply (f : Cursor → α) (run : Run) : look f run = (.ok (f run.cursor), run) :=
  rfl

@[simp] theorem lookAhead_apply (f : Cursor → Except Fault α) (run : Run) :
    lookAhead f run = (f run.cursor, run) := rfl

@[simp] theorem note_apply (event : Event) (run : Run) :
    note event run = (.ok (), { run with history := event :: run.history }) := rfl

/-- A reader that succeeds moves the cursor and changes nothing else. -/
theorem read_of_ok {f : Cursor → Except Fault (α × Cursor)} {run : Run} {a : α} {cursor : Cursor}
    (h : f run.cursor = .ok (a, cursor)) : read f run = (.ok a, { run with cursor }) := by
  simp [read, h]

/-- A reader that fails changes nothing. -/
theorem read_of_error {f : Cursor → Except Fault (α × Cursor)} {run : Run} {fault : Fault}
    (h : f run.cursor = .error fault) : read f run = (.error fault, run) := by
  simp [read, h]

/-! ### Reading -/

/-- The character that lies ahead. -/
def peek : Eval (Option Char) := lookAhead Cursor.peek

/-- Moves past spaces. -/
def skipSpaces : Eval Unit := move Cursor.skipSpaces

/-- Moves past a token. -/
def expect (token : String) : Eval Unit := move (·.expect token)

/-- Moves by a number of characters. -/
def advance (n : Int) : Eval Unit := move fun c => .ok (c.advance n)

/-- Reads an identifier. -/
def readIdentifier : Eval String := read Cursor.readIdentifier

/-- Reads a number. -/
def readNumber : Eval Binary64 := read Cursor.readNumber

/-! ### Depth -/

/-- Goes one level deeper. If that is deeper than the limit, it is a fault, and the level has been
entered all the same. -/
def enter (limit : Option Int) : Eval Unit := fun run =>
  match limit with
  | some d =>
    if d < run.depth + 1 then (.error (.tooDeep d run.cursor.restText), run.deeper)
    else (.ok (), run.deeper)
  | none => (.ok (), run.deeper)

/-- Comes back from a level. -/
def leave : Eval Unit := fun run => (.ok (), { run with depth := run.depth - 1 })

/-- Runs a computation and then comes back from its level, also after a fault. -/
def thenLeave (x : Eval α) : Eval α := fun run =>
  match x run with
  | (result, run') => (result, { run' with depth := run'.depth - 1 })

/-- Runs a computation one level deeper. A level that the limit forbids is not left. -/
def nested (limit : Option Int) (x : Eval α) : Eval α := do
  enter limit
  x.thenLeave

/-- Within the limit, `nested` runs its computation at the next depth and restores the depth,
whatever the outcome. -/
theorem nested_of_le {limit : Option Int} {run : Run} (h : ∀ d ∈ limit, run.depth + 1 ≤ d)
    (x : Eval α) : nested limit x run = x.thenLeave run.deeper := by
  have henter : enter limit run = (.ok (), run.deeper) := by
    cases limit with
    | none => rfl
    | some d => exact if_neg (Int.not_lt.2 (h d rfl))
  exact bind_of_ok henter

/-- Beyond the limit, `nested` runs nothing, and the level it tried to enter is not left. -/
theorem nested_of_lt {d : Int} {run : Run} (h : d < run.depth + 1) (x : Eval α) :
    nested (some d) x run = (.error (.tooDeep d run.cursor.restText), run.deeper) := by
  have henter : enter (some d) run = (.error (.tooDeep d run.cursor.restText), run.deeper) :=
    if_pos h
  exact bind_of_error henter

end Eval

end SExprCalc
