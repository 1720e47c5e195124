import SExprCalc.Interpreter

/-!
# The program

Run on its own, the interpreter evaluates an example and reports on it. Log records from the
configured level on go to the standard error output, in order with the lines written there.
-/

namespace SExprCalc.Program

/-- The text that the program evaluates. -/
def exampleSource : String := "(let a 1 b 1 (print (eq a b)))"

/-- What the program writes for an entry, and where. -/
def write (threshold : Nat) (sink : Sink) : Log.Entry → Option (Sink × String)
  | .record r => if threshold ≤ r.level.weight then some (.stderr, r.render ++ "\n") else none
  | .line s => some (sink, s ++ "\n")

/-- Runs the program: its status, and what it writes, in order. A fault that is passed on ends it
with status one. -/
def run (logger : String) (env : Environment) : Nat × List (Sink × String) :=
  let interpreter := Interpreter.make env logger none none
  let (status, printed, report) := interpreter.run exampleSource
  (status.toOption.getD 1,
    (printed ++ report).filterMap (write (Settings.logLevel env) (interpreter.currentSink env)))

/-- The text that some writes leave in one sink. -/
def textIn (sink : Sink) (writes : List (Sink × String)) : String :=
  String.join (writes.filterMap fun (s, text) => if s = sink then some text else none)

end SExprCalc.Program
