import SExprCalc.Cursor.Basic
import SExprCalc.Cursor.Step
import SExprCalc.Eval.Expr
import SExprCalc.Eval.Forms
import SExprCalc.Eval.Run
import SExprCalc.Eval.Step
import SExprCalc.Fault
import SExprCalc.Form
import SExprCalc.Interpreter
import SExprCalc.Log
import SExprCalc.Main
import SExprCalc.Number.Binary64
import SExprCalc.Number.Fixed
import SExprCalc.Number.Literal
import SExprCalc.Number.Rounding
import SExprCalc.Number.Shortest
import SExprCalc.Program
import SExprCalc.Scope.Basic
import SExprCalc.Scope.Bindings
import SExprCalc.Scope.Step
import SExprCalc.Scope.Tree
import SExprCalc.Script
import SExprCalc.Settings
import SExprCalc.Text.Blank
import SExprCalc.Text.Case
import SExprCalc.Text.Digit
import SExprCalc.Text.Integer
import SExprCalc.Text.Printable
import SExprCalc.Text.Quoted
import SExprCalc.Value
import SExprCalc.Proofs.Layout
import SExprCalc.Proofs.Agreement
import SExprCalc.Proofs.Refinement
import SExprCalc.Proofs.Unambiguous
import SExprCalc.Proofs.Acceptance
import SExprCalc.Proofs.Unread
import SExprCalc.Proofs.Growth
import SExprCalc.Proofs.Traversal
import SExprCalc.Proofs.Lockstep
import SExprCalc.Proofs.Legality
import SExprCalc.Proofs.DepthLimit
import SExprCalc.Proofs.Levels
import SExprCalc.Proofs.FaultPlace
import SExprCalc.Proofs.Locality
import SExprCalc.Proofs.Progress
import SExprCalc.Proofs.Tree
import SExprCalc.Proofs.ScopeHistory
import SExprCalc.Proofs.NameResolution
import SExprCalc.Proofs.Reading
import SExprCalc.Proofs.DepthCounter
import SExprCalc.Proofs.IntegerText
import SExprCalc.Proofs.SettingTexts
import SExprCalc.Proofs.Sessions
import SExprCalc.Proofs.BoundedMeaning
import SExprCalc.Proofs.LetNesting
import SExprCalc.Proofs.Comparison
import SExprCalc.Proofs.Arity
import SExprCalc.Proofs.Nearest
import SExprCalc.Proofs.Word
import SExprCalc.Proofs.LiteralValue
import SExprCalc.Proofs.FixedPoint
import SExprCalc.Proofs.ReadBack
import SExprCalc.Proofs.Arithmetic
import SExprCalc.Proofs.Reduction
import SExprCalc.Proofs.Division
import SExprCalc.Proofs.DispatchTrace
import SExprCalc.Proofs.BindingHistory
import SExprCalc.Proofs.LongestToken
