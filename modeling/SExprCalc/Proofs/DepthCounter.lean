import SExprCalc.Eval.Step
import SExprCalc.Proofs.DepthLimit
import SExprCalc.Proofs.Locality
import SExprCalc.Proofs.Reading

/-!
# The depth counter over the life of a run

A level that is within the limit is left again, whatever happens in it; a level beyond the limit has
been counted and is never left. So an evaluation that ends in a fault about depth leaves the counter
one too high, from however deep the fault comes: only the level that failed has not been left. Any
other end restores it. A run that goes on after such faults therefore has less and less room.

An evaluation in the life of a run is compared with one without a limit that starts at the same
cursor some levels lower (`Run.Beside`). The two do the same until the limited one is cut off, and
it is cut off exactly when the other enters a level that the limit, less the difference, does not
allow (`EndsBeside`). That is a `Traversal`, so forms keep it if their operands do, and an induction
on the levels closes the recursion (`Parallel`). Between the evaluations of a run its cursor can be
moved anywhere, so all that is used of readers is that they look at the cursor alone
(`Eval.Reading`).
-/

namespace SExprCalc

open Eval

/-! ### With and without a limit, side by side -/

/-- Two runs at the same place that have printed the same, of which the second is some levels lower.
It has entered no level that the limit, less the difference, does not allow. -/
structure Run.Beside (limit lead depth : Int) (r s : Run) : Prop where
  /-- both are at the same place -/
  cursor : s.cursor = r.cursor
  /-- the second is lower -/
  lower : s.depth + lead = depth
  /-- both have printed the same -/
  printed : s.printed = r.printed
  /-- the second is within what the limit allows -/
  shallow : Shallow (limit - lead) s.history
  /-- the depth of the first -/
  depth : r.depth = depth

section

variable {α β : Type} {limit lead depth : Int} {n : Nat} {r s : Run}

/-- Both runs may note the same event. An entry may not be noted so, because the two runs enter at
different depths. -/
theorem Run.Beside.noted (h : Run.Beside limit lead depth r s) {event : Event}
    (hevent : ∀ depth pos, event ≠ .entered depth pos) :
    Run.Beside limit lead depth (r.noted event) (s.noted event) where
  cursor := h.cursor
  depth := h.depth
  lower := h.lower
  printed := by rw [printed_noted, printed_noted, h.printed]
  shallow := h.shallow.cons fun depth pos heq => absurd heq (hevent depth pos)

/-- A level that the limit allows. -/
theorem Run.Beside.deeper (h : Run.Beside limit lead depth r s) (hle : depth + 1 ≤ limit) :
    Run.Beside limit lead (depth + 1) r.deeper s.deeper where
  cursor := h.cursor
  depth := congrArg (· + 1) h.depth
  lower := by
    have := h.lower
    change s.depth + 1 + lead = depth + 1
    omega
  printed := by rw [printed_deeper, printed_deeper, h.printed]
  shallow := by
    refine h.shallow.cons ?_
    rintro _ _ ⟨⟩
    have := h.lower
    omega

/-- Leaving an expression brings both runs back to the depth at which they entered it. -/
theorem Run.Beside.shallower (h : Run.Beside limit lead (depth + 1) r s) :
    Run.Beside limit lead depth r.shallower s.shallower where
  cursor := h.cursor
  depth := by
    have := h.depth
    change r.depth - 1 = depth
    omega
  lower := by
    have := h.lower
    change s.depth - 1 + lead = depth
    omega
  printed := h.printed
  shallow := h.shallow

/-- What has been entered stays in the history. -/
theorem not_shallow_of_suffix {level : Int} {events events' : List Event}
    (h : ¬ Shallow level events) (hsuffix : events <:+ events') : ¬ Shallow level events' :=
  fun h' => h fun depth pos hmem => h' depth pos (hsuffix.subset hmem)

/-- Two runs side by side with less than some amount of text left to read. -/
def Run.BesideBefore (limit lead depth : Int) (n : Nat) (r s : Run) : Prop :=
  Run.Beside limit lead depth r s ∧ r.cursor.remaining < n

theorem Run.BesideBefore.noted (h : Run.BesideBefore limit lead depth n r s) {event : Event}
    (hevent : ∀ depth pos, event ≠ .entered depth pos) :
    Run.BesideBefore limit lead depth n (r.noted event) (s.noted event) :=
  ⟨h.1.noted hevent, h.2⟩

/-- How the evaluation with a limit and the one without can end in faults that have gone on side by
side: alike, or with the first cut off at a level that is not left and that the second enters. -/
def cutOff (limit lead depth : Int) : Parting where
  fault f r s := f.family ≠ .depth ∧ Run.Beside limit lead depth r s
  gone f r s := f.family = .depth ∧ r.depth = depth + 1 ∧ ¬ Shallow (limit - lead) s.history
  gone_mono h hsuffix := ⟨h.1, h.2.1, not_shallow_of_suffix h.2.2 hsuffix⟩

/-- How the two end: side by side again, or as `cutOff` says. -/
abbrev EndsBeside (limit lead depth : Int) (n : Nat) (P : α → α → Prop)
    (out out' : Except Fault α × Run) : Prop :=
  (cutOff limit lead depth).Ends (Run.BesideBefore limit lead depth n) P out out'

/-- The cursor is the same in both runs, so both go on with the same after what only looks at it. -/
theorem Eval.Reading.bind_ends {x : Eval α} (hx : Reading x) {P : β → β → Prop}
    {f g : α → Eval β} (h : Run.BesideBefore limit lead depth n r s)
    (hf : ∀ a r' s', x r = (.ok a, r') → Run.BesideBefore limit lead depth n r' s' →
      EndsBeside limit lead depth n P (f a r') (g a s')) :
    EndsBeside limit lead depth n P ((x >>= f) r) ((x >>= g) s) := by
  obtain ⟨h, hn⟩ := h
  obtain ⟨result, c, hle, hresult, hrun⟩ := hx r.cursor
  have hmoved : Run.Beside limit lead depth { r with cursor := c } { s with cursor := c } :=
    ⟨rfl, h.lower, h.printed, h.shallow, h.depth⟩
  cases result with
  | error fault =>
    rw [bind_of_error (hrun r rfl), bind_of_error (hrun s h.cursor)]
    exact .error ⟨hresult fault rfl, hmoved⟩
  | ok a =>
    rw [bind_of_ok (hrun r rfl), bind_of_ok (hrun s h.cursor)]
    exact hf a _ _ (hrun r rfl) ⟨hmoved, Nat.lt_of_le_of_lt hle hn⟩

/-- Reading depends on the cursor alone, which the two runs share, so both read the same or fail
alike, and neither counter moves. -/
theorem Eval.Reading.ends {x : Eval α} (hx : Reading x)
    (h : Run.BesideBefore limit lead depth n r s) :
    EndsBeside limit lead depth n Eq (x r) (x s) := by
  have hpure := hx.bind_ends (f := pure) (g := pure) (P := Eq) h fun _ _ _ _ h' => .ok rfl h'
  rwa [bind_pure] at hpure

/-- Evaluations side by side go through the forms side by side. -/
def beside (limit lead depth : Int) (n : Nat) : Traversal where
  toParting := cutOff limit lead depth
  runs := Run.BesideBefore limit lead depth n
  scopes σ τ := τ = σ
  value _ := True
  remaining h := congrArg Cursor.remaining h.1.cursor
  nextChar := reading_nextChar.ends
  bindingName := reading_bindingName.ends
  printed h := h.noted (by simp)
  define := by
    rintro _ σ name v rfl -
    rfl
  number _ := trivial
  boolean _ := trivial
  nil := trivial
  miscounted _ _ h hcount := ⟨family_ne_depth_of_miscounts hcount, h.1⟩
  refused h hrefused := ⟨family_ne_depth_of_refused hrefused, h.1⟩

/-- Two computations that end side by side at any depth, if less than some amount of text is left to
read. -/
def Parallel (limit lead : Int) (n : Nat) (x y : Eval Value) : Prop :=
  ∀ depth, (beside limit lead depth n).Related (beside limit lead depth n).Same x y

/-! ### Expressions side by side -/

variable {x y : Eval Value} {operand operand' : Scope → Eval Value} {scope : Scope}

theorem Eval.Reading.bind_related {x : Eval α} (hx : Reading x) {P : β → β → Prop}
    {f g : α → Eval β} (hf : ∀ a, (beside limit lead depth n).Related P (f a) (g a)) :
    (beside limit lead depth n).Related P (x >>= f) (x >>= g) :=
  fun _ _ h => hx.bind_ends h fun a _ _ _ h' => hf a h'

theorem related_note (event : Event) (hevent : ∀ depth pos, event ≠ .entered depth pos) :
    (beside limit lead depth n).Related Eq (note event) (note event) :=
  fun _ _ h => .ok rfl (h.noted hevent)

/-- A fault is the same for both runs, unless it says that the nesting is too deep: only one of them
may have found that. -/
theorem related_fail {fault : Fault} (h : fault.family ≠ .depth) {P : α → α → Prop} :
    (beside limit lead depth n).Related P (fail fault) (fail fault) :=
  fun _ _ hr => .error ⟨h, hr.1⟩

theorem related_value (v : Value) :
    (beside limit lead depth n).Related (beside limit lead depth n).Same (pure v) (pure v) :=
  Traversal.related_pure ⟨rfl, trivial⟩

/-- The end of a form. -/
theorem parallel_close (form : Form) (v : Value) :
    Parallel limit lead n (form.close v) (form.close v) :=
  fun _ => reading_skipSpaces.bind_related fun _ => (reading_expect ")").bind_related fun _ =>
    (reading_look (·.pos)).bind_related fun pos =>
      (related_note (.closed form pos) (by simp)).bind_eq fun _ => related_value v

variable [∀ scope, Grows (operand' scope)]

/-- Every form ends side by side if its operands do. -/
theorem Parallel.eval (hop : ∀ scope, Parallel limit lead n (operand scope) (operand' scope))
    (scope : Scope) (form : Form) :
    Parallel limit lead n (form.eval operand scope) (form.eval operand' scope) := by
  intro depth r s h
  refine Traversal.eval_ends ?_ form rfl ?_
  · rintro _ σ rfl
    exact hop σ depth
  · cases form with
    | letIn => exact h.noted (by simp)
    | _ => exact h

theorem Parallel.formAhead (hop : ∀ scope, Parallel limit lead n (operand scope) (operand' scope))
    (scope : Scope) :
    Parallel limit lead n (formAhead operand scope) (formAhead operand' scope) := by
  refine fun depth => (reading_look _).bind_related fun form? => ?_
  cases form? with
  | none =>
    exact (reading_look (·.restText)).bind_related fun rest => related_fail (by simp [Fault.family])
  | some form =>
    exact (reading_advance form.head.length).bind_related fun _ =>
      (reading_look (·.pos)).bind_related fun pos =>
        (related_note (.dispatched form pos) (by simp)).bind_eq fun _ =>
          (Parallel.eval hop scope form depth).bind_same fun v _ => parallel_close form v depth

/-- An opening parenthesis is not the end of the text, so less text is left behind it. -/
theorem Parallel.expressionAhead
    (hop : ∀ scope, Parallel limit lead n (operand scope) (operand' scope)) (scope : Scope) :
    Parallel limit lead (n + 1) (expressionAhead operand scope)
      (expressionAhead operand' scope) := by
  intro depth
  refine reading_skipSpaces.bind_related fun _ => ?_
  intro r s h
  refine reading_peek.bind_ends h ?_
  intro next r₁ s₁ hpeek h₁
  cases next with
  | none => exact related_fail (by decide) h₁
  | some c =>
    dsimp only
    split_ifs with hopen hnumber hname
    · refine (reading_advance 1).bind_ends h₁ ?_
      intro _ r₂ s₂ hadvance h₂
      have hless : r₂.cursor.remaining < n := by
        have hsame : r = r₁ := congrArg Prod.snd hpeek
        have hlt : r.cursor.pos < r.cursor.size :=
          Cursor.pos_lt_of_peek (congrArg Prod.fst hpeek)
        have hn := h.2
        cases hadvance
        simp only [← hsame, Cursor.remaining, Cursor.advance, Cursor.size] at hn hlt ⊢
        omega
      exact (Parallel.formAhead hop scope depth ⟨h₂.1, hless⟩).mono fun h' =>
        ⟨h'.1, Nat.lt_succ_of_lt h'.2⟩
    · exact (reading_readNumber.bind_related fun _ => related_value _) h₁
    · refine (reading_readIdentifier.bind_related fun name => ?_) h₁
      rw [Scope.resolve]
      split
      · exact related_value _
      · exact related_fail (by simp [Fault.family])
    · exact related_fail (by simp [Fault.family]) h₁

/-- After the expression is left, the counters are one level lower in both runs, if it ended in
both. -/
theorem EndsBeside.thenLeave {P : Value → Value → Prop}
    (h : EndsBeside limit lead (depth + 1) n P (x r) (y s)) :
    EndsBeside limit lead depth n P (x.thenLeave r) (y.thenLeave s) := by
  rw [thenLeave_apply, thenLeave_apply]
  rcases hx : x r with ⟨result, r'⟩
  rcases hy : y s with ⟨result', s'⟩
  rw [hx, hy] at h
  cases h with
  | ok h hr => exact .ok h ⟨hr.1.shallower, hr.2⟩
  | error h => exact .error ⟨h.1, h.2.shallower⟩
  | gone h =>
    -- only the level that failed is not left, so one too many remains one too many
    obtain ⟨hfault, hdepth, hdeep⟩ := h
    refine .gone ⟨hfault, ?_, hdeep⟩
    change r'.depth - 1 = depth + 1
    omega

/-- One level: it can be entered with the limit as without, or the limit forbids it and it stays
entered. -/
theorem Parallel.nested (hxy : Parallel limit lead n x y) [Grows y] :
    Parallel limit lead n (nested (some limit) x) (nested none y) := by
  intro depth r s h
  have hfree : Eval.nested none y s = y.thenLeave s.deeper := nested_of_le (fun _ h => by cases h) y
  have hdepth := h.1.depth
  rw [hfree]
  rcases within_or_beyond (some limit) r.depth with hle | ⟨d, ⟨⟩, hlt⟩
  · rw [nested_of_le hle]
    exact EndsBeside.thenLeave (hxy (depth + 1) ⟨h.1.deeper (hdepth ▸ hle limit rfl), h.2⟩)
  · -- the level stays counted on the one side, and is entered on the other
    rw [nested_of_lt hlt]
    refine .gone ⟨rfl, congrArg (· + 1) hdepth, ?_⟩
    have hentered : ¬ Shallow (limit - lead) s.deeper.history := by
      intro hshallow
      have hle := hshallow (s.depth + 1) s.cursor.pos (List.mem_cons_self ..)
      have := h.1.lower
      omega
    exact not_shallow_of_suffix hentered (Grows.grows (x := y.thenLeave) s.deeper)

/-- With more levels than there are characters left to read, only the limit cuts an evaluation
off. -/
theorem parallel_expressionWithin (limit lead : Int) (levels : Nat) (scope : Scope) :
    Parallel limit lead levels (expressionWithin (some limit) levels scope)
      (expressionWithin none levels scope) := by
  induction levels generalizing scope with
  | zero =>
    intro depth r s h
    exact absurd h.2 (Nat.not_lt_zero _)
  | succ levels ih => exact (Parallel.expressionAhead ih scope).nested

end

/-! ### Steps of a run -/

/-- Whether a step evaluates something. -/
def Run.Step.evaluates : Run.Step → Bool
  | .expression | .form _ => true
  | .enter | .leave | .cursor _ => false

/-- Whether an outcome is a fault about depth. -/
def isTooDeep (outcome : Except Fault Answer) : Bool :=
  match outcome with
  | .ok _ => false
  | .error fault => fault.family = .depth

/-- The number of evaluations among some steps that end in a fault about depth. -/
def depthFaults (limit : Option Int) (scope : Scope) (run : Run) (steps : List Run.Step) : Nat :=
  (steps.zip (transcript (Run.apply limit scope) run steps)).countP
    fun (step, outcome, _) => step.evaluates && isTooDeep outcome

section

variable {limit lead depth : Int} {n : Nat} {out out' : Except Fault Answer × Run}

/-- The counter is back where it was after an expression, and one too high if the nesting was too
deep: that entry is never left. -/
theorem EndsBeside.depth_eq (h : EndsBeside limit lead depth n Eq out out') :
    out.2.depth = depth + (if isTooDeep out.1 then 1 else 0 : Nat) := by
  cases h with
  | ok _ hr => simp [isTooDeep, hr.1.depth]
  | error h => simp [isTooDeep, h.1, h.2.depth]
  | gone h => simp [isTooDeep, h.1, h.2.1]

/-- What an evaluation without a limit enters decides how the one with the limit ends. -/
theorem EndsBeside.same_or_tooDeep (h : EndsBeside limit lead depth n Eq out out') :
    (Shallow (limit - lead) out'.2.events → out.1 = out'.1 ∧ out.2.output = out'.2.output) ∧
      (¬ Shallow (limit - lead) out'.2.events → isTooDeep out.1 = true) := by
  have hevents {level : Int} {run : Run} :
      Shallow level run.events ↔ Shallow level run.history := by
    simp [Shallow, Run.events]
  rw [hevents]
  have hsame {r s : Run} {result : Except Fault Answer} (h : Run.Beside limit lead depth r s) :
      (Shallow (limit - lead) s.history → result = result ∧ r.output = s.output) ∧
        (¬ Shallow (limit - lead) s.history → isTooDeep result = true) :=
    ⟨fun _ => ⟨rfl, (Run.output_eq h.printed).symm⟩, fun hdeep => absurd h.shallow hdeep⟩
  cases h with
  | ok h hr =>
    cases h
    exact hsame hr.1
  | error h => exact hsame h.2
  | gone h =>
    exact ⟨fun hshallow => absurd hshallow h.2.2, fun _ => by simp [isTooDeep, h.1]⟩

/-- An evaluation in the life of a run goes like one without a limit that starts a life of its own
there. -/
theorem endsBeside_apply (limit : Int) (scope : Scope) (run : Run) (step : Run.Step)
    (hstep : step.evaluates = true) :
    EndsBeside limit run.depth run.depth (run.cursor.remaining + 1) Eq
      (run.apply (some limit) scope step) (Run.apply none scope { cursor := run.cursor } step) := by
  have hstart : Run.BesideBefore limit run.depth run.depth (run.cursor.remaining + 1)
      { run with history := [] } { cursor := run.cursor } :=
    ⟨⟨rfl, Int.zero_add _, rfl, (fun _ _ h => by cases h), rfl⟩, Nat.lt_succ_self _⟩
  have hlevels := parallel_expressionWithin limit run.depth (run.cursor.remaining + 1)
  have hanswer : ∀ v w : Value, v = w ∧ True →
      (beside limit run.depth run.depth (run.cursor.remaining + 1)).Related Eq
        (pure (Answer.value v)) (pure (Answer.value w)) := by
    rintro v _ ⟨rfl, -⟩
    exact Traversal.related_pure rfl
  cases step with
  | expression =>
    exact Parting.Ends.bind (x := Eval.expression (some limit) scope)
      (y := Eval.expression none scope) (hlevels scope run.depth hstart)
      fun v w _ _ _ h hr => hanswer v w h hr
  | form f =>
    exact Parting.Ends.bind (x := Eval.form (some limit) scope f)
      (y := Eval.form none scope f) (Parallel.eval hlevels scope f run.depth hstart)
      fun v w _ _ _ h hr => hanswer v w h hr
  | _ => cases hstep

/-- What one step does to the counter: entering and leaving move it by one, and an evaluation leaves
it as it was, unless it ends in a fault of depth, whose level is never left. -/
theorem depth_apply (limit : Int) (scope : Scope) (run : Run) (step : Run.Step) :
    (run.apply (some limit) scope step).2.depth =
      run.depth + (if step = .enter then 1 else 0 : Nat) - (if step = .leave then 1 else 0 : Nat)
      + (if step.evaluates && isTooDeep (run.apply (some limit) scope step).1 then 1 else 0 : Nat)
      := by
  cases step with
  | enter =>
    by_cases h : limit < run.depth + 1 <;>
      simp [Run.apply, Run.action, bind_apply, enter, Run.deeper, Run.Step.evaluates, h]
  | leave => simp [Run.apply, Run.action, bind_apply, leave, Run.Step.evaluates]
  | cursor s => simp [Run.apply, Run.action, Run.Step.evaluates]
  -- evaluating a whole expression or one form: compared with a run that has no limit
  | expression =>
    simpa [Run.Step.evaluates] using
      (endsBeside_apply limit scope run .expression rfl).depth_eq
  | form f =>
    simpa [Run.Step.evaluates] using
      (endsBeside_apply limit scope run (.form f) rfl).depth_eq

/-- The first step counts as a fault of depth if it evaluates and ends in one, and the other steps
count from the run that it leaves. -/
theorem depthFaults_cons (limit : Option Int) (scope : Scope) (run : Run) (step : Run.Step)
    (more : List Run.Step) :
    depthFaults limit scope run (step :: more) =
      depthFaults limit scope (run.apply limit scope step).2 more +
        if step.evaluates && isTooDeep (run.apply limit scope step).1 then 1 else 0 := by
  rw [depthFaults, transcript, List.zip_cons_cons, List.countP_cons]
  rfl

/-- What a whole life does to the counter. -/
theorem depth_stateAfter (limit : Int) (scope : Scope) (run : Run) (steps : List Run.Step) :
    (stateAfter (Run.apply (some limit) scope) run steps).depth =
      run.depth + steps.count .enter - steps.count .leave
        + depthFaults (some limit) scope run steps := by
  induction steps generalizing run with
  | nil => simp [stateAfter, transcript, depthFaults]
  | cons step more ih =>
    rw [stateAfter_cons, ih, depth_apply, depthFaults_cons, List.count_cons, List.count_cons]
    simp only [beq_iff_eq, Int.natCast_add]
    omega

end

/-- The depth counter over a life that starts at depth 0, whatever the text, the place in it, the
scope and the limit:

* it counts the levels entered by hand, those that failed included, less those left by hand, and one
  for each evaluation that ended in a fault about depth;
* an evaluation that ends in a value or in another fault restores it, and one that ends in a fault
  about depth raises it by one;
* so after `k` such faults and no level entered or left by hand, an evaluation ends as it would
  without a limit, with the same output, if that enters no level beyond the limit less `k`; and if
  it does, it ends in a fault about depth. -/
theorem depth_eq_entered_sub_left_add_faults (cursor : Cursor) (scope : Scope) (maxDepth : Int)
    (steps : List Run.Step) :
    let run := stateAfter (Run.apply (some maxDepth) scope) { cursor } steps
    let k := depthFaults (some maxDepth) scope { cursor } steps
    run.depth = steps.count .enter - steps.count .leave + k ∧
    (∀ (r : Run) (step : Run.Step), step.evaluates = true →
      (r.apply (some maxDepth) scope step).2.depth =
        r.depth + (if isTooDeep (r.apply (some maxDepth) scope step).1 then 1 else 0 : Nat)) ∧
    (.enter ∉ steps → .leave ∉ steps → ∀ step : Run.Step, step.evaluates = true →
      let limited := run.apply (some maxDepth) scope step
      let free := Run.apply none scope { cursor := run.cursor } step
      (Shallow (maxDepth - k) free.2.events →
        limited.1 = free.1 ∧ limited.2.output = free.2.output) ∧
      (¬ Shallow (maxDepth - k) free.2.events → isTooDeep limited.1 = true)) := by
  have hdepth := depth_stateAfter maxDepth scope { cursor } steps
  refine ⟨?_, ?_, ?_⟩
  · simpa using hdepth
  · intro r step hstep
    exact (endsBeside_apply maxDepth scope r step hstep).depth_eq
  · intro henter hleave step hstep
    have hk : (stateAfter (Run.apply (some maxDepth) scope) { cursor } steps).depth =
        depthFaults (some maxDepth) scope { cursor } steps := by
      simpa [List.count_eq_zero.mpr henter, List.count_eq_zero.mpr hleave] using hdepth
    have hends := endsBeside_apply maxDepth scope
      (stateAfter (Run.apply (some maxDepth) scope) { cursor } steps) step hstep
    rw [hk] at hends
    exact hends.same_or_tooDeep

/-- With a limit of one level, a sum is cut off at its operand. From then on not even the operand on
its own is within the limit. -/
theorem depth_eq_entered_sub_left_add_faults_sum :
    let run := stateAfter (Run.apply (some 1) {}) { cursor := .ofString "(add 1)" } [.expression]
    run.depth = 1 ∧ isTooDeep (run.apply (some 1) {} .expression).1 = true := by
  obtain ⟨hdepth, -, hroom⟩ :=
    depth_eq_entered_sub_left_add_faults (.ofString "(add 1)") {} 1 [.expression]
  have hk : depthFaults (some 1) {} { cursor := .ofString "(add 1)" } [.expression] = 1 := by
    decide +kernel
  refine ⟨?_, (hroom (by simp) (by simp) .expression rfl).2 ?_⟩
  · rw [hdepth, hk]
    rfl
  · rw [hk]
    intro hshallow
    exact absurd (hshallow 1 5 (by decide +kernel)) (by decide)

end SExprCalc
