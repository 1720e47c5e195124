import SExprCalc.Program

/-!
# Command line

Reads the settings, runs the program and passes on what it writes.
-/

namespace SExprCalc.Program

/-- The variables that the program looks at. -/
def settingNames : List String :=
  ["SIGMA_MAX_DEPTH", "SIGMA_DIAGNOSTIC_STREAM", "SIGMA_LOG_LEVEL"]

/-- The settings in the environment of the process. -/
def readEnvironment : IO Environment := do
  let texts ← settingNames.mapM fun name => do
    let text ← IO.getEnv name
    return (name, text)
  return fun name => (texts.lookup name).join

/-- Writes a text to the standard output or the standard error output. -/
def put (sink : Sink) (text : String) : IO Unit := do
  let stream ← if sink = .stdout then IO.getStdout else IO.getStderr
  stream.putStr text
  stream.flush

end SExprCalc.Program

/-- Runs the program in the environment of the process. -/
def main : IO UInt32 := do
  let env ← SExprCalc.Program.readEnvironment
  let (status, writes) := SExprCalc.Program.run SExprCalc.Interpreter.commandLogger env
  writes.forM fun (sink, text) => SExprCalc.Program.put sink text
  return status.toUInt32
