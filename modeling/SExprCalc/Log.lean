import SExprCalc.Eval.Run

/-!
# Log records

What a run reports about itself apart from the lines it prints. A record has a level, the name of
the part of the program that it comes from, and a message.
-/

namespace SExprCalc

namespace Log

/-- The levels at which the program logs. -/
inductive Level where
  /-- each step of an evaluation -/
  | debug : Level
  /-- an evaluation that failed -/
  | info : Level
  deriving DecidableEq, Repr

/-- The name of a level. -/
def Level.name : Level → String
  | debug => "DEBUG"
  | info => "INFO"

/-- The weight of a level, to be compared with the level from which records are shown. -/
def Level.weight : Level → Nat
  | debug => 10
  | info => 20

/-- A log record. -/
structure Record where
  /-- its level -/
  level : Level
  /-- where it comes from -/
  logger : String
  /-- what it says -/
  message : String
  deriving DecidableEq, Repr

/-- A record as one line. -/
def Record.render (r : Record) : String := r.level.name ++ ":" ++ r.logger ++ ":" ++ r.message

/-- One item of what a program writes: a log record or a line of its own. -/
inductive Entry where
  /-- a log record -/
  | record (r : Record) : Entry
  /-- a line -/
  | line (s : String) : Entry
  deriving DecidableEq, Repr

/-- The records among some entries. -/
def records (entries : List Entry) : List Record :=
  entries.filterMap fun
    | .record r => some r
    | .line _ => none

/-- The text of the lines among some entries. -/
def output (entries : List Entry) : String :=
  String.join (entries.filterMap fun
    | .record _ => none
    | .line s => some (s ++ "\n"))

end Log

/-- What an event of a run leaves in writing, if anything. -/
def Event.entry? : Event → Option Log.Entry
  | .entered _ _ => none
  | .dispatched form pos =>
    some (.record ⟨.debug, "sigma.evaluation.evaluator",
      "dispatch " ++ form.head ++ " at " ++ toString pos⟩)
  | .scopeOpened depth =>
    some (.record ⟨.debug, "sigma.evaluation.special_forms.let_form",
      "let: new scope at depth " ++ toString depth⟩)
  | .printed line => some (.line line)
  | .closed _ _ => none

/-- All that a run leaves in writing, in order. -/
def Run.entries (run : Run) : List Log.Entry := run.events.filterMap Event.entry?

end SExprCalc
