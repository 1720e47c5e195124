import SExprCalc.Eval.Expr
import SExprCalc.Log
import SExprCalc.Settings

/-!
# The interpreter

An interpreter evaluates one text after another, each in a fresh scope, so that nothing carries
over between them. Its depth limit is fixed when it is made. The sink, if the caller has given none,
is looked up anew for every text.
-/

namespace SExprCalc

/-- An interpreter. -/
structure Interpreter where
  /-- how deep expressions may nest -/
  maxDepth : Int
  /-- the sink that the caller has given, if any -/
  sink : Option Sink
  /-- the name under which it logs -/
  logger : String
  deriving DecidableEq, Repr

namespace Interpreter

/-- The name under which an interpreter logs within a larger program. -/
def libraryLogger : String := "sigma.interpreter"

/-- The name under which the interpreter logs when it is itself the program. -/
def commandLogger : String := "__main__"

/-- Makes an interpreter; what the caller leaves open comes from the environment. -/
def make (env : Environment) (logger : String) (sink : Option Sink) (maxDepth : Option Int) :
    Interpreter :=
  { maxDepth := maxDepth.getD (Settings.maxDepth env), sink, logger }

/-- Where the interpreter writes to at present. -/
def currentSink (i : Interpreter) (env : Environment) : Sink := i.sink.getD (Settings.sink env)

/-- Evaluates a text, and gives what it left in writing. -/
def eval (i : Interpreter) (source : String) : Except Fault Value × List Log.Entry :=
  let evaluation := evaluate source {} i.maxDepth
  let shown := String.ofList (Text.quoted source.toList)
  (evaluation.result, .record ⟨.debug, i.logger, "evaluating " ++ shown⟩ :: evaluation.run.entries)

/-- Reports the outcome of an evaluation on a line of its own, and gives the status: zero for a
value, one for a fault of the language. Any other fault is not reported but passed on, and so is the
fault that formatting the value may end in. -/
def report (i : Interpreter) (source : String) :
    Except Fault Value → Except Fault Nat × List Log.Entry
  | .ok value =>
    match value.format with
    | .ok text => (.ok 0, [.line (source ++ " => " ++ text)])
    | .error fault => (.error fault, [])
  | .error fault =>
    if fault.ofLanguage then
      let shown := String.ofList (Text.quoted source.toList)
      (.ok 1, [
        .record ⟨.info, i.logger, "evaluation of " ++ shown ++ " failed: " ++ fault.message⟩,
        .line ("error: " ++ fault.message)])
    else (.error fault, [])

/-- Evaluates a text and reports the outcome. Gives the status, what the evaluation left in writing,
and the report. -/
def run (i : Interpreter) (source : String) :
    Except Fault Nat × List Log.Entry × List Log.Entry :=
  let (result, printed) := i.eval source
  let (status, report) := i.report source result
  (status, printed, report)

end Interpreter

/-! ### Sessions -/

/-- An interpreter in an environment that may change while it is in use. -/
structure Session where
  /-- the interpreter -/
  interpreter : Interpreter
  /-- the environment at present -/
  env : Environment

namespace Session

/-- A step of a session. -/
inductive Step where
  /-- evaluates a text -/
  | eval (source : String) : Step
  /-- evaluates a text and reports on it -/
  | run (source : String) : Step
  /-- asks for the depth limit -/
  | maxDepth : Step
  /-- sets a variable of the environment, or unsets it -/
  | setVariable (name : String) (text : Option String) : Step
  deriving DecidableEq, Repr

/-- What a step gives back. -/
inductive Outcome where
  /-- a value or a fault -/
  | result (r : Except Fault Value) : Outcome
  /-- the status of a report -/
  | status (n : Nat) : Outcome
  /-- the depth limit -/
  | maxDepth (d : Int) : Outcome
  /-- nothing -/
  | done : Outcome

/-- What a report gives back: its status, or the fault that it passes on. -/
def Outcome.ofStatus : Except Fault Nat → Outcome
  | .ok n => .status n
  | .error fault => .result (.error fault)

/-- What a step gives back, what it leaves in writing, and where. -/
structure Reply where
  /-- what it gives back -/
  outcome : Outcome
  /-- what evaluation leaves in writing -/
  printed : List Log.Entry := []
  /-- where the lines of evaluation go -/
  sink : Sink
  /-- what is written about the outcome -/
  report : List Log.Entry := []
  /-- where the report goes -/
  reportSink : Sink := sink

/-- All that a step leaves in writing. -/
def Reply.entries (r : Reply) : List Log.Entry := r.printed ++ r.report

/-- The text that a step writes to one sink. -/
def Reply.textIn (r : Reply) (sink : Sink) : String :=
  (if r.sink = sink then Log.output r.printed else "") ++
    if r.reportSink = sink then Log.output r.report else ""

/-- Applies a step. The sink for a report is looked up before the evaluation, which looks up its own
once more. -/
def apply (s : Session) : Step → Reply × Session
  | .eval source =>
    let (result, printed) := s.interpreter.eval source
    ({ outcome := .result result, printed, sink := s.interpreter.currentSink s.env }, s)
  | .run source =>
    let reportSink := s.interpreter.currentSink s.env
    let (status, printed, report) := s.interpreter.run source
    let sink := s.interpreter.currentSink s.env
    ({ outcome := .ofStatus status, printed, sink, report, reportSink }, s)
  | .maxDepth =>
    ({ outcome := .maxDepth s.interpreter.maxDepth, sink := s.interpreter.currentSink s.env }, s)
  | .setVariable name text =>
    ({ outcome := .done, sink := s.interpreter.currentSink s.env },
      { s with env := s.env.update name text })

/-- Applies steps in turn and gives the reply to each. -/
def replies : Session → List Step → List Reply
  | _, [] => []
  | s, step :: more =>
    let (reply, next) := s.apply step
    reply :: replies next more

end Session

end SExprCalc
