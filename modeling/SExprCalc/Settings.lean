import SExprCalc.Text.Case
import SExprCalc.Text.Integer

/-!
# Settings

Three settings come from the environment: where lines are written, how deep expressions may nest,
and which log records are shown. A setting that is absent or makes no sense has its default.
-/

namespace SExprCalc

/-- The environment: the text of each variable that is set. -/
abbrev Environment : Type := String → Option String

/-- The environment after setting a variable, or unsetting it. -/
def Environment.update (env : Environment) (name : String) (text : Option String) : Environment :=
  fun other => if other = name then text else env other

/-- The environment made of some variables with their texts. -/
def Environment.ofList (l : List (String × String)) : Environment := fun name => l.lookup name

/-- Where lines are written to. -/
inductive Sink where
  /-- a buffer that the caller has given -/
  | buffer : Sink
  /-- the standard output -/
  | stdout : Sink
  /-- the standard error output -/
  | stderr : Sink
  deriving DecidableEq, Repr

namespace Settings

/-- A positive integer from the environment, or a default. -/
def positive (env : Environment) (name : String) (default : Int) : Int :=
  match (env name).bind fun text => Text.integer? (Text.trim text.toList) with
  | some n => if 0 < n then n else default
  | none => default

/-- How deep expressions may nest: 200 levels unless set otherwise. -/
def maxDepth (env : Environment) : Int := positive env "SIGMA_MAX_DEPTH" 200

/-- Where lines go if the caller has given no sink: the standard error output unless set
otherwise. -/
def sink (env : Environment) : Sink :=
  match env "SIGMA_DIAGNOSTIC_STREAM" with
  | none => .stderr
  | some text =>
    if Text.lower (Text.trim text.toList) = "stdout".toList then .stdout else .stderr

/-- The levels of logging by name. -/
def levels : List (String × Nat) := [
  ("CRITICAL", 50), ("FATAL", 50), ("ERROR", 40), ("WARNING", 30), ("WARN", 30), ("INFO", 20),
  ("DEBUG", 10), ("NOTSET", 0)]

/-- The level from which log records are shown: that of warnings unless set otherwise. -/
def logLevel (env : Environment) : Nat :=
  match env "SIGMA_LOG_LEVEL" with
  | none => 30
  | some text => (levels.lookup (String.ofList (Text.upper (Text.trim text.toList)))).getD 30

end Settings

end SExprCalc
