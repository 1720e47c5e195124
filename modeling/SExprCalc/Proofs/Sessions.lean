import SExprCalc.Interpreter
import SExprCalc.Proofs.Legality
import SExprCalc.Proofs.SettingTexts

/-!
# Sessions

A session evaluates texts one after another while the environment may change. No step changes the
interpreter, and of the environment only the name of the stream matters after the interpreter has
been made. So the reply to an evaluation depends on its text, on the limit fixed at the start and on
the stream named at that step: it is the reply of a new interpreter. Which limit the environment
sets and which stream it names is told by the texts of its variables alone (`Settings.Limits`,
`Settings.NamesStdout`).

A report comes about in any case. It is written outside the part that catches faults, so this rests
on the evaluator: in a fresh scope it gives values that can be formatted, and its faults are all of
the language.
-/

namespace SExprCalc

open Eval

/-! ### What is written -/

/-- Of what a run leaves in writing, the lines are those it has printed. -/
theorem Run.output_entries (run : Run) : Log.output run.entries = run.output := by
  rw [Log.output, Run.entries, Run.output, Run.lines, List.filterMap_filterMap,
    List.map_filterMap]
  congr 2
  funext event
  cases event <;> rfl

namespace Interpreter

variable {fault : Fault} {v : Value}

/-- Of what an evaluation leaves in writing, the lines are those it prints. -/
theorem output_eval (i : Interpreter) (source : String) :
    Log.output (i.eval source).2 = (evaluate source {} i.maxDepth).run.output :=
  Run.output_entries _

/-- An ordinary fault is one of the language, so it is reported. -/
theorem report_of_error (i : Interpreter) (source : String) (h : fault.Ordinary) :
    (i.report source (.error fault)).1 = .ok 1 ∧
      Log.output (i.report source (.error fault)).2 = "error: " ++ fault.message ++ "\n" := by
  have hlanguage : fault.ofLanguage = true := by
    rw [Fault.ofLanguage, decide_eq_true_iff]
    intro hposition
    have hmem := h.1
    rw [hposition] at hmem
    simp at hmem
  rw [report, if_pos hlanguage]
  exact ⟨rfl, rfl⟩

/-- A value that can be formatted is reported. -/
theorem report_of_ok (i : Interpreter) (source : String) {text : String}
    (h : v.format = .ok text) :
    (i.report source (.ok v)).1 = .ok 0 ∧
      Log.output (i.report source (.ok v)).2 = source ++ " => " ++ text ++ "\n" := by
  rw [report, h]
  exact ⟨rfl, rfl⟩

end Interpreter

/-! ### Steps of a session -/

namespace Session

/-- What a step does to the environment. -/
def Step.environment (env : Environment) : Step → Environment
  | .setVariable name text => env.update name text
  | .eval _ | .run _ | .maxDepth => env

/-- The environment after some steps. -/
def environmentAfter (env : Environment) (steps : List Step) : Environment :=
  steps.foldl Step.environment env

/-- A step changes nothing but the environment. -/
theorem apply_snd (s : Session) (step : Step) :
    (s.apply step).2 = { s with env := step.environment s.env } := by
  cases step <;> rfl

theorem replies_cons (s : Session) (step : Step) (more : List Step) :
    replies s (step :: more) = (s.apply step).1 :: replies (s.apply step).2 more := rfl

/-- The reply to a step in the midst of others is the one it has in the environment of that time. -/
theorem getElem?_replies (i : Interpreter) (env : Environment) (before : List Step) (step : Step)
    (more : List Step) :
    (replies ⟨i, env⟩ (before ++ step :: more))[before.length]? =
      some (apply ⟨i, environmentAfter env before⟩ step).1 := by
  induction before generalizing env with
  | nil => rfl
  | cons first before ih =>
    rw [List.cons_append, replies_cons, apply_snd]
    exact ih _

/-- What an evaluation writes goes to the sink of that time. -/
theorem textIn_eval (i : Interpreter) (env : Environment) (source : String) (sink : Sink) :
    (apply ⟨i, env⟩ (.eval source)).1.textIn sink =
      if sink = i.currentSink env then (evaluate source {} i.maxDepth).run.output else "" := by
  simp only [apply, Reply.textIn, i.output_eval source, eq_comm (a := sink)]
  split <;> simp [Log.output]

/-- What is printed and what is reported go to the same sink. -/
theorem textIn_run (i : Interpreter) (env : Environment) (source : String) (sink : Sink) :
    (apply ⟨i, env⟩ (.run source)).1.textIn sink =
      if sink = i.currentSink env then (evaluate source {} i.maxDepth).run.output ++
        Log.output (i.report source (evaluate source {} i.maxDepth).result).2 else "" := by
  have hresult : (i.eval source).1 = (evaluate source {} i.maxDepth).result := rfl
  simp only [apply, Interpreter.run, Reply.textIn, i.output_eval source, hresult,
    eq_comm (a := sink)]
  split <;> simp

/-- The reply to an evaluation does not depend on the environment, but for the sink. -/
theorem apply_fst_congr (i : Interpreter) {env env' : Environment}
    (h : i.currentSink env' = i.currentSink env) (source : String) :
    (apply ⟨i, env'⟩ (.eval source)).1 = (apply ⟨i, env⟩ (.eval source)).1 ∧
      (apply ⟨i, env'⟩ (.run source)).1 = (apply ⟨i, env⟩ (.run source)).1 := by
  simp only [apply, h, and_self]

/-- A reply that reports on an evaluation: the status tells whether there is a value, and the text
is all written to one sink, first what the evaluation has printed and then one line about how it
ended. -/
def Reply.Reports (r : Reply) (source : String) (evaluation : Evaluation) (target : Sink) : Prop :=
  match evaluation.result with
  | .ok v => ∃ text, v.format = .ok text ∧ r.outcome = .status 0 ∧
      ∀ s, r.textIn s = if s = target then
        evaluation.run.output ++ (source ++ " => " ++ text ++ "\n") else ""
  | .error fault => r.outcome = .status 1 ∧
      ∀ s, r.textIn s = if s = target then
        evaluation.run.output ++ ("error: " ++ fault.message ++ "\n") else ""

/-- A report is always made, whatever the text: evaluation in a fresh scope gives a legal value,
which can be shown, or an ordinary fault, which is caught. -/
theorem reports_apply (i : Interpreter) (env : Environment) (source : String) :
    (apply ⟨i, env⟩ (.run source)).1.Reports source (evaluate source {} i.maxDepth)
      (i.currentSink env) := by
  have hlegal := legal_of_evaluate (show Scope.Legal {} by decide) source i.maxDepth
  have houtcome : (apply ⟨i, env⟩ (.run source)).1.outcome =
      .ofStatus (i.report source (evaluate source {} i.maxDepth).result).1 := rfl
  have htextIn := textIn_run i env source
  rw [Reply.Reports]
  rcases hresult : (evaluate source {} i.maxDepth).result with fault | v <;>
    rw [hresult] at hlegal houtcome htextIn
  · obtain ⟨hstatus, htext⟩ := i.report_of_error source hlegal
    rw [hstatus] at houtcome
    rw [htext] at htextIn
    exact ⟨houtcome, htextIn⟩
  · -- a legal value is one that can be shown
    obtain ⟨text, hformat⟩ := Value.format_isOk.mp hlegal
    obtain ⟨hstatus, htext⟩ := i.report_of_ok source hformat
    rw [hstatus] at houtcome
    rw [htext] at htextIn
    exact ⟨text, hformat, houtcome, htextIn⟩

end Session

/-! ### The theorem -/

/-- For an interpreter made in any environment, with or without a sink and a limit of its own, and
any steps before and after:

* a limit that is not given is the one that the environment sets when the interpreter is made: the
  positive integer that is spelled there, or else 200 levels;
* a sink that is not given is the standard output if the environment spells its name *by then*, in
  any mix of cases and with white space around it, and otherwise the standard error output, also if
  the variable is not set;
* an evaluation gives what `evaluate` gives in a fresh scope with that limit, and all that it prints
  goes to that sink;
* a report on the same text at the same point never passes a fault on. Its status is zero exactly if
  the evaluation gives a value, and it writes to the same sink what the evaluation prints, followed
  by the line that tells the value or the fault;
* both replies are those of a new interpreter with that limit, in any environment that names the
  same stream, or in any at all if the sink is given. -/
theorem session_replies_of_fresh (env : Environment) (logger : String) (sink : Option Sink)
    (maxDepth : Option Int) (before more : List Session.Step) (source : String) :
    let limit := maxDepth.getD (Settings.maxDepth env)
    let now := Session.environmentAfter env before
    let target := sink.getD (Settings.sink now)
    let session : Session := ⟨.make env logger sink maxDepth, env⟩
    let evaluation := evaluate source {} limit
    (maxDepth = none → Settings.Limits env limit) ∧
    (sink = none → (Settings.NamesStdout now → target = .stdout) ∧
      (¬Settings.NamesStdout now → target = .stderr)) ∧
    ∃ evaluated reported : Session.Reply,
      (session.replies (before ++ .eval source :: more))[before.length]? = some evaluated ∧
      (session.replies (before ++ .run source :: more))[before.length]? = some reported ∧
      evaluated.outcome = .result evaluation.result ∧
      (∀ s, evaluated.textIn s = if s = target then evaluation.run.output else "") ∧
      reported.Reports source evaluation target ∧
      ∀ env' : Environment,
        (sink = none → (Settings.NamesStdout env' ↔ Settings.NamesStdout now)) →
        let fresh : Session := ⟨.make env' logger sink (some limit), env'⟩
        fresh.replies [.eval source] = [evaluated] ∧ fresh.replies [.run source] = [reported] := by
  intro limit now target session evaluation
  have hfresh (env' : Environment) :
      Interpreter.make env' logger sink (some limit) = .make env logger sink maxDepth := rfl
  refine ⟨?_, ?_, _, _, Session.getElem?_replies _ _ _ _ _, Session.getElem?_replies _ _ _ _ _, rfl,
    Session.textIn_eval _ _ _, Session.reports_apply _ _ _, ?_⟩
  · rintro rfl
    exact Settings.limits_maxDepth env
  · rintro rfl
    exact ⟨Settings.sink_of_namesStdout, Settings.sink_of_not_namesStdout⟩
  · intro env' hnames
    have hcurrent : (Interpreter.make env logger sink maxDepth).currentSink env' =
        (Interpreter.make env logger sink maxDepth).currentSink now := by
      cases sink with
      | none => exact Settings.sink_congr (hnames rfl)
      | some given => rfl
    obtain ⟨heval, hrun⟩ := Session.apply_fst_congr _ hcurrent source
    rw [hfresh]
    exact ⟨congrArg (· :: []) heval, congrArg (· :: []) hrun⟩

/-- Steps that change the limit, name no stream that there is, let an evaluation fail and then send
the lines elsewhere. -/
def redirection : List Session.Step := [
  .setVariable "SIGMA_MAX_DEPTH" (some "1"),
  .setVariable "SIGMA_DIAGNOSTIC_STREAM" (some "std out"), .run "(print(div 1))",
  .setVariable "SIGMA_DIAGNOSTIC_STREAM" (some " StdOut ")]

/-- The report in the midst of it goes to the standard error output. The report after it is that of
a new interpreter: the limit is still the first one, and the lines go where the environment says by
then. -/
theorem session_replies_of_fresh_redirected :
    let session : Session := ⟨.make (.ofList []) "log" none none, .ofList []⟩
    let steps := redirection ++ [.run "(print 1)"]
    let other : Environment := .ofList [("SIGMA_DIAGNOSTIC_STREAM", "stdout")]
    (∃ failed : Session.Reply, (session.replies steps)[2]? = some failed ∧
      failed.outcome = .status 1 ∧ failed.textIn .stdout = "" ∧
      failed.textIn .stderr = "error: not enough arguments for binary op\n") ∧
    ∃ reported : Session.Reply, (session.replies steps)[4]? = some reported ∧
      reported.outcome = .status 0 ∧
      reported.textIn .stdout = "1.000000\n(print 1) => nil\n" ∧ reported.textIn .stderr = "" ∧
      Session.replies ⟨.make other "log" none (some 200), other⟩ [.run "(print 1)"] =
        [reported] := by
  intro session steps other
  have hlimit : (none : Option Int).getD (Settings.maxDepth (.ofList [])) = 200 := by decide
  have hunnamed : ¬Settings.NamesStdout
      (Session.environmentAfter (.ofList []) (redirection.take 2)) := by
    rw [Settings.namesStdout_iff (show _ = some "std out" by decide)]
    decide +kernel
  have hnamed : Settings.NamesStdout (Session.environmentAfter (.ofList []) redirection) :=
    (Settings.namesStdout_iff (show _ = some " StdOut " by decide)).mpr (by decide +kernel)
  have hother : Settings.NamesStdout other :=
    (Settings.namesStdout_iff (show _ = some "stdout" by decide)).mpr (by decide +kernel)
  have hfault : (evaluate "(print(div 1))" {} 200).result = .error .tooFewOperands := by
    decide +kernel
  have hresult : (evaluate "(print 1)" {} 200).result = .ok .nil := by decide +kernel
  have houtput : (evaluate "(print 1)" {} 200).run.output = "1.000000\n" := by decide +kernel
  have hsilent : (evaluate "(print(div 1))" {} 200).run.output = "" := by decide +kernel
  constructor
  · have hreplies := session_replies_of_fresh (.ofList []) "log" none none (redirection.take 2)
      (redirection.drop 3 ++ [.run "(print 1)"]) "(print(div 1))"
    have htarget := (hreplies.2.1 rfl).2 hunnamed
    simp only [htarget, hlimit, Session.Reply.Reports, hfault] at hreplies
    obtain ⟨-, -, -, failed, -, hreply, -, -, ⟨houtcome, htext⟩, -⟩ := hreplies
    refine ⟨failed, hreply, houtcome, ?_, ?_⟩
    · rw [htext, if_neg (by decide)]
    · rw [htext, if_pos rfl, hsilent]
      decide
  · have hreplies := session_replies_of_fresh (.ofList []) "log" none none redirection []
      "(print 1)"
    have htarget := (hreplies.2.1 rfl).1 hnamed
    simp only [htarget, hlimit, Session.Reply.Reports, hresult] at hreplies
    obtain ⟨-, -, evaluated, reported, -, hreply, -, -, ⟨text, hformat, houtcome, htext⟩, hfresh⟩ :=
      hreplies
    obtain rfl : "nil" = text := by simpa [Value.format] using hformat
    refine ⟨reported, hreply, houtcome, ?_, ?_, ?_⟩
    · rw [htext, if_pos rfl, houtput]
      decide +kernel
    · rw [htext, if_neg (by decide)]
    · exact (hfresh other fun _ => iff_of_true hother hnamed).2

end SExprCalc
