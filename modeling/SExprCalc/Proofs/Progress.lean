import SExprCalc.Proofs.Acceptance
import SExprCalc.Proofs.DepthLimit
import SExprCalc.Proofs.Levels

/-!
# Evaluation ends, and reads forward only

Two bounds stand in the definitions of evaluation: a number of levels, and a number of rounds for
each loop. Neither is ever used up. An operand is evaluated behind the opening parenthesis of its
form, and a success reads at least one character; so every level and every round has less text ahead
than the one before. Hence

* more levels than there are characters ahead make no difference (`expressionWithin_eq_expression`),
  and levels do not run out;
* a loop with more rounds than there are characters ahead is the loop without any bound, which goes
  on until a round leaves it or fails (`Loops`).

The same argument counts how many expressions are entered. Each one that is evaluated with success
can be charged to a character that it reads itself; after a fault at most one is not paid for. That
is the invariant `advancing`, relative to the run at which an expression is entered.
-/

namespace SExprCalc

open Eval

/-! ### Entries and progress -/

/-- Whether an event is the entering of an expression. -/
def Event.isEntry : Event → Bool
  | .entered _ _ => true
  | _ => false

namespace Run

variable {run run' run'' : Run}

/-- The number of expressions that have been entered. -/
def entryCount (run : Run) : Nat := run.history.countP Event.isEntry

@[simp] theorem entryCount_deeper (run : Run) : run.deeper.entryCount = run.entryCount + 1 :=
  List.countP_cons_of_pos rfl

theorem entryCount_noted (run : Run) {event : Event}
    (h : ∀ depth pos, event ≠ .entered depth pos) :
    (run.noted event).entryCount = run.entryCount := by
  refine List.countP_cons_of_neg ?_
  cases event with
  | entered depth pos => exact absurd rfl (h depth pos)
  | _ => simp [Event.isEntry]

/-- One more than the number of characters that are left is more than there are ahead. -/
theorem Inside.length_lt_remaining (h : run.Inside) :
    run.unread.length < run.cursor.remaining + 1 := by
  rw [Cursor.Inside.remaining_eq h]
  exact Nat.lt_succ_self _

/-- A run of the same text that is not further back. -/
structure Onward (run run' : Run) : Prop where
  /-- the cursor is within the text -/
  inside : run'.Inside
  /-- the text is the same -/
  source : run'.cursor.source = run.cursor.source
  /-- the cursor has not moved back -/
  le_pos : run.cursor.pos ≤ run'.cursor.pos

theorem Onward.refl (h : run.Inside) : run.Onward run := ⟨h, rfl, Int.le_refl _⟩

theorem Onward.trans (h : run.Onward run') (h' : run'.Onward run'') : run.Onward run'' :=
  ⟨h'.inside, h'.source.trans h.source, Int.le_trans h.le_pos h'.le_pos⟩

theorem Onward.moved (h : run.Onward run') {n : Nat} (hn : n ≤ run'.unread.length) :
    run.Onward (run'.moved n) := by
  refine ⟨h.inside.moved hn, h.source, ?_⟩
  have := h.le_pos
  simp only [cursor_moved, Cursor.pos_moved]
  omega

/-- In one text, being further on and having less text ahead are the same. -/
theorem Onward.length_lt_iff (h : run.Onward run') (hin : run.Inside) :
    run'.unread.length < run.unread.length ↔ run.cursor.pos < run'.cursor.pos := by
  have hlen : (run.unread.length : Int) = run.cursor.size - run.cursor.pos :=
    Cursor.Inside.length_rest hin
  have hlen' : (run'.unread.length : Int) = run'.cursor.size - run'.cursor.pos :=
    Cursor.Inside.length_rest h.inside
  have hsize : run'.cursor.size = run.cursor.size := congrArg List.length h.source
  omega

theorem Past.onward {t : List Char} (h : run.Past run' t) (hin : run.Inside) :
    run.Onward run' := by
  have := h.pos_eq hin
  exact ⟨h.inside, h.source, by omega⟩

end Run

variable {run run' r : Run} {limit : Option Int} {scope : Scope} {v : Value} {n m k : Nat}

/-- What is read with success is at least one character. -/
theorem Taken.pos_lt {e : Expr} (h : Taken limit run run' e) (hin : run.Inside) :
    run.cursor.pos < run'.cursor.pos := by
  obtain ⟨k, t, hw, -, -, hpast⟩ := h
  obtain ⟨c, more, rfl, -⟩ := hw.exists_first
  have := hpast.pos_eq hin
  simp only [List.length_append, List.length_cons] at this
  omega

theorem Taken.onward {e : Expr} (h : Taken limit run run' e) (hin : run.Inside) :
    run.Onward run' := by
  obtain ⟨k, t, -, -, -, hpast⟩ := h
  exact hpast.onward hin

/-! ### Levels -/

/-- What holds while the expression at which a run is about to enter is evaluated: it may enter as
many expressions as it passes characters, and one in any case. -/
def advancing (run : Run) : Invariant where
  run r := run.Onward r ∧
    (r.entryCount : Int) ≤ run.entryCount + max 1 (r.cursor.pos - run.cursor.pos)
  scope _ := True
  value _ := True
  fault f r := (∀ l, f ≠ .stackExhausted l) ∧ run.Onward r ∧
    (r.entryCount : Int) ≤ run.entryCount + (r.cursor.pos - run.cursor.pos) + 1
  inside h := h.1.inside
  moved {r n} h hn := by
    refine ⟨h.1.moved hn, ?_⟩
    have := h.2
    simp only [Run.cursor_moved, Cursor.pos_moved, Run.entryCount, Run.history_moved] at this ⊢
    omega
  noted {r event} h hevent :=
    ⟨⟨h.1.inside.noted _, h.1.source, h.1.le_pos⟩, by
      rw [Run.entryCount_noted r hevent]
      exact h.2⟩
  child _ := trivial
  define _ _ := trivial
  found _ _ := trivial
  number _ := trivial
  boolean _ := trivial
  nil := trivial
  raised {r f} h hraised := by
    refine ⟨?_, h.1, ?_⟩
    · rintro l rfl
      exact family_ne_depth_of_raised hraised rfl
    · have := h.1.le_pos
      have := h.2
      omega

/-- How two evaluations of one expression end that may differ in their number of levels. -/
def EndsOnward (run : Run) (k : Nat) (out out' : Except Fault Value × Run) : Prop :=
  ((advancing run).lockstep.below k).Ends (advancing run).lockstep.Same out out'

theorem EndsOnward.shallower {out out' : Except Fault Value × Run}
    (h : EndsOnward run k out out') :
    EndsOnward run k (out.1, out.2.shallower) (out'.1, out'.2.shallower) := by
  cases h with
  | ok h hr =>
    obtain ⟨⟨rfl, honward, hcount⟩, hk⟩ := hr
    exact .ok h ⟨⟨rfl, ⟨honward.inside, honward.source, honward.le_pos⟩, hcount⟩, hk⟩
  | error h =>
    obtain ⟨rfl, hfault, honward, hcount⟩ := h
    exact .error ⟨rfl, hfault, ⟨honward.inside, honward.source, honward.le_pos⟩, hcount⟩
  | gone h => exact h.elim

/-- An operand that is entered further on and reads something pays for what it enters. -/
theorem EndsOnward.of_operand {out out' : Except Fault Value × Run} (hr : (advancing run).run r)
    (hlt : run.cursor.pos < r.cursor.pos)
    (hreads : ∀ v, out.1 = .ok v → r.cursor.pos < out.2.cursor.pos)
    (h : EndsOnward r k out out') : EndsOnward run k out out' := by
  obtain ⟨honward, hcount⟩ := hr
  cases h with
  | @ok v _ r' _ h hr' =>
    obtain ⟨⟨rfl, honward', hcount'⟩, hk⟩ := hr'
    have hpos : r.cursor.pos < r'.cursor.pos := hreads v rfl
    refine .ok h ⟨⟨rfl, honward.trans honward', ?_⟩, hk⟩
    omega
  | @error f r' _ h =>
    obtain ⟨rfl, hfault, honward', hcount'⟩ := h
    refine .error ⟨rfl, hfault, honward.trans honward', ?_⟩
    omega
  | gone h => exact h.elim

/-- With two numbers of levels, both of them greater than the number of characters ahead, an
expression is evaluated alike. -/
theorem endsOnward_expressionWithin (hin : run.Inside) (hn : run.unread.length < n)
    (hm : run.unread.length < m) (hk : run.unread.length < k) :
    EndsOnward run k (expressionWithin limit n scope run)
      (expressionWithin limit m scope run) := by
  induction n generalizing run scope m k with
  | zero => exact absurd hn (Nat.not_lt_zero _)
  | succ n ih =>
    obtain _ | m := m
    · exact absurd hm (Nat.not_lt_zero _)
    have honward : run.Onward run.deeper := ⟨hin, rfl, Int.le_refl _⟩
    rw [expressionWithin, expressionWithin]
    rcases within_or_beyond limit run.depth with hle | ⟨d, rfl, hlt⟩
    · rw [nested_of_le hle, nested_of_le hle, thenLeave_apply, thenLeave_apply]
      have hdeeper : (advancing run).run run.deeper := by
        refine ⟨honward, ?_⟩
        rw [Run.entryCount_deeper]
        omega
      have hruns : ((advancing run).lockstep.below k).runs run.deeper run.deeper :=
        ⟨⟨rfl, hdeeper⟩, hk⟩
      refine EndsOnward.shallower (Lockstep.expressionAhead_ends hruns ?_ ⟨rfl, trivial⟩)
      -- an operand has less text ahead, so one level less is still enough for both
      rintro σ _ ⟨rfl, -⟩ r _ ⟨⟨rfl, hr⟩, hless⟩
      have hless : r.unread.length < run.unread.length := hless
      refine EndsOnward.of_operand hr ((hr.1.length_lt_iff hin).mp hless) ?_
        (ih hr.1.inside (by omega) (by omega) hless)
      intro v hv
      obtain ⟨e, he⟩ := expressionWithin_accepts n σ hr.1.inside (Prod.ext hv rfl)
      exact he.pos_lt hr.1.inside
    · rw [nested_of_lt hlt, nested_of_lt hlt]
      refine .error ⟨rfl, nofun, honward, ?_⟩
      have hpos := honward.le_pos
      rw [Run.entryCount_deeper]
      omega

/-- The two evaluations end alike, whatever number of levels each of them has: neither runs out. -/
theorem EndsOnward.eq {out out' : Except Fault Value × Run} (h : EndsOnward run k out out') :
    out = out' := by
  cases h with
  | ok h hr => rw [h.1, hr.1.1]
  | error h => rw [h.1]
  | gone h => exact h.elim

/-- More levels than there are characters ahead make no difference. -/
theorem expressionWithin_eq_expression (hin : run.Inside) (hn : run.unread.length < n) :
    expressionWithin limit n scope run = Eval.expression limit scope run := by
  exact (endsOnward_expressionWithin hin hn hin.length_lt_remaining (Nat.lt_succ_self _)).eq

/-- What the invariant says at the end, after a success or a fault. -/
theorem EndsOnward.outcome {out out' : Except Fault Value × Run} (h : EndsOnward run k out out') :
    run.Onward out.2 ∧ (∀ l, out.1 ≠ .error (.stackExhausted l)) ∧
      (out.2.entryCount : Int) ≤ run.entryCount + (out.2.cursor.pos - run.cursor.pos) + 1 := by
  cases h with
  | ok h hr =>
    obtain ⟨⟨rfl, honward, hcount⟩, -⟩ := hr
    have hpos := honward.le_pos
    refine ⟨honward, nofun, ?_⟩
    dsimp only
    omega
  | error h =>
    obtain ⟨rfl, hfault, honward, hcount⟩ := h
    exact ⟨honward, fun l hl => hfault l (Except.error.inj hl), hcount⟩
  | gone h => exact h.elim

/-- The evaluation of an expression keeps the invariant. -/
theorem endsOnward_expression (hin : run.Inside) (limit : Option Int) (scope : Scope) :
    EndsOnward run (run.unread.length + 1) (Eval.expression limit scope run)
      (Eval.expression limit scope run) := by
  rw [← expressionWithin_eq_expression hin (Nat.lt_succ_self _)]
  exact endsOnward_expressionWithin hin (Nat.lt_succ_self _) (Nat.lt_succ_self _)
    (Nat.lt_succ_self _)

/-! ### Loops -/

/-- A loop without a bound: rounds are made one after the other, each with the state that the one
before has left, until a round has no next state or fails. -/
inductive Loops {σ : Type} (round : σ → Eval (Option σ)) : σ → Run → Except Fault σ × Run → Prop
    where
  /-- a round leaves the loop -/
  | leave {state : σ} {run run' : Run} (h : round state run = (.ok none, run')) :
      Loops round state run (.ok state, run')
  /-- a round fails -/
  | fail {state : σ} {run run' : Run} {fault : Fault}
      (h : round state run = (.error fault, run')) : Loops round state run (.error fault, run')
  /-- a round is followed by another one -/
  | goOn {state next : σ} {run run' : Run} {out : Except Fault σ × Run}
      (h : round state run = (.ok (some next), run')) (more : Loops round next run' out) :
      Loops round state run out

/-- A loop with a bound on its number of rounds. -/
def iterate {σ : Type} (round : σ → Eval (Option σ)) : Nat → σ → Eval σ
  | 0, state => pure state
  | bound + 1, state => do
    match ← round state with
    | none => pure state
    | some next => iterate round bound next

/-- If every round that goes on moves forward, a bound greater than the number of characters ahead
is not used up. -/
theorem loops_iterate {σ : Type} {round : σ → Eval (Option σ)}
    (hround : ∀ {state next : σ} {run run' : Run}, run.Inside →
      round state run = (.ok (some next), run') →
      run.Onward run' ∧ run.cursor.pos < run'.cursor.pos)
    {bound : Nat} {state : σ} (hin : run.Inside) (hbound : run.unread.length < bound) :
    Loops round state run (iterate round bound state run) := by
  induction bound generalizing state run with
  | zero => exact absurd hbound (Nat.not_lt_zero _)
  | succ bound ih =>
    rw [iterate]
    rcases hout : round state run with ⟨fault | _ | next, run'⟩
    · rw [bind_of_error hout]
      exact .fail hout
    · rw [bind_of_ok hout]
      exact .leave hout
    · rw [bind_of_ok hout]
      obtain ⟨honward, hpos⟩ := hround hin hout
      have hless := (honward.length_lt_iff hin).mpr hpos
      exact .goOn hout (ih honward.inside (by omega))

namespace Form

/-- A round of the loop over operands: it leaves the loop at a closing parenthesis. -/
def operandRound (form : Form) (combine : Binary64 → Binary64 → Binary64) (operand : Eval Value)
    (total : Binary64) : Eval (Option Binary64) := do
  skipSpaces
  if (← peek) = some ')' then return none
  else return some (combine total (← form.number operand))

/-- A round of the loop over bindings: it leaves the loop where no binding lies ahead. -/
def bindingRound (operand : Scope → Eval Value) (scope : Scope) : Eval (Option Scope) := do
  skipSpaces
  if ← lookAhead bindingAhead then
    let name ← readIdentifier
    let value ← operand scope
    return some (scope.define name value)
  else return none

theorem reduce_eq_iterate (form : Form) (combine : Binary64 → Binary64 → Binary64)
    (operand : Eval Value) (bound : Nat) (total : Binary64) :
    form.reduce combine operand bound total =
      iterate (form.operandRound combine operand) bound total := by
  induction bound generalizing total with
  | zero => rfl
  | succ bound ih =>
    rw [reduce, iterate, operandRound, bind_assoc]
    refine bind_congr fun _ => ?_
    rw [bind_assoc]
    refine bind_congr fun next => ?_
    split
    · rfl
    · rw [bind_assoc]
      exact bind_congr fun x => ih _

theorem bindings_eq_iterate (operand : Scope → Eval Value) (bound : Nat) (scope : Scope) :
    bindings operand bound scope = iterate (bindingRound operand) bound scope := by
  induction bound generalizing scope with
  | zero => rfl
  | succ bound ih =>
    rw [bindings, iterate, bindingRound, bind_assoc]
    refine bind_congr fun _ => ?_
    rw [bind_assoc]
    refine bind_congr fun ahead => ?_
    split
    · rw [bind_assoc]
      refine bind_congr fun name => ?_
      rw [bind_assoc]
      exact bind_congr fun value => ih _
    · rfl

/-- A round that goes on has read an operand, and no operand is empty. -/
theorem onward_of_operandRound {form : Form} {combine : Binary64 → Binary64 → Binary64}
    {operand : Eval Value} {total next : Binary64} (hx : Accepts limit operand) (hin : run.Inside)
    (h : form.operandRound combine operand total run = (.ok (some next), run')) :
    run.Onward run' ∧ run.cursor.pos < run'.cursor.pos := by
  have hskip := (Run.past_skipped hin).onward hin
  rw [operandRound, bind_of_ok (skipSpaces_apply hin), bind_of_ok (peek_apply hin.skipped)] at h
  by_cases hc : run.skipped.unread.head? = some ')'
  · rw [if_pos hc] at h
    cases h
  · rw [if_neg hc] at h
    obtain ⟨x, run₁, hnumber, h⟩ := bind_eq_ok h
    obtain ⟨v, hv⟩ := number_eq_ok hnumber
    obtain ⟨-, rfl⟩ := Prod.mk.inj h
    obtain ⟨e, he⟩ := hx hin.skipped hv
    exact ⟨hskip.trans (he.onward hin.skipped),
      Int.lt_of_le_of_lt hskip.le_pos (he.pos_lt hin.skipped)⟩

/-- A round that goes on has read a name and an operand, neither of which is empty. -/
theorem onward_of_bindingRound {operand : Scope → Eval Value} {next : Scope}
    (hx : ∀ scope, Accepts limit (operand scope)) (hin : run.Inside)
    (h : bindingRound operand scope run = (.ok (some next), run')) :
    run.Onward run' ∧ run.cursor.pos < run'.cursor.pos := by
  have hskip := (Run.past_skipped hin).onward hin
  rw [bindingRound, bind_of_ok (skipSpaces_apply hin),
    bind_of_ok (bindingAhead_apply hin.skipped)] at h
  split at h
  · obtain ⟨name, run₁, hname, h⟩ := bind_eq_ok h
    obtain ⟨w, run₂, hw, h⟩ := bind_eq_ok h
    obtain ⟨-, rfl⟩ := Prod.mk.inj h
    -- first past the name, then past the operand
    obtain ⟨y, -, hy⟩ := readIdentifier_accepts hin.skipped hname
    obtain ⟨e, he⟩ := hx scope hy.inside hw
    have hread := hskip.trans (hy.onward hin.skipped)
    exact ⟨hread.trans (he.onward hy.inside), Int.lt_of_le_of_lt hread.le_pos (he.pos_lt hy.inside)⟩
  · cases h

end Form

/-! ### The theorem -/

/-- The evaluation of an expression ends by itself, started anywhere in a text, in any scope, with
or without a limit:

* levels never run out, and any number of them that is greater than the number of characters ahead
  gives the same;
* the text stays as it is, the cursor ends within it and not further back, and after a success
  further on;
* the loop over operands and the loop over bindings, each with its bound, are loops without a bound,
  and a round that neither leaves its loop nor fails moves the cursor forward;
* at most one expression more is entered than there are characters ahead. -/
theorem expression_ends_onward (hin : run.Inside) (limit : Option Int) (scope : Scope) :
    (∀ levels, run.unread.length < levels →
      expressionWithin limit levels scope run = Eval.expression limit scope run) ∧
    (∀ l, (Eval.expression limit scope run).1 ≠ .error (.stackExhausted l)) ∧
    (Eval.expression limit scope run).2.cursor.source = run.cursor.source ∧
    run.cursor.pos ≤ (Eval.expression limit scope run).2.cursor.pos ∧
    (Eval.expression limit scope run).2.cursor.pos ≤ run.cursor.source.length ∧
    (∀ v, (Eval.expression limit scope run).1 = .ok v →
      run.cursor.pos < (Eval.expression limit scope run).2.cursor.pos) ∧
    (∀ (form : Form) (combine : Binary64 → Binary64 → Binary64) (levels : Nat) (σ : Scope)
      (total : Binary64) (r : Run), r.Inside →
      Loops (form.operandRound combine (expressionWithin limit levels σ)) total r
        (form.reduce combine (expressionWithin limit levels σ) (r.cursor.remaining + 1) total r) ∧
      ∀ next r', form.operandRound combine (expressionWithin limit levels σ) total r =
        (.ok (some next), r') → r.cursor.pos < r'.cursor.pos) ∧
    (∀ (levels : Nat) (σ : Scope) (r : Run), r.Inside →
      Loops (Form.bindingRound (expressionWithin limit levels)) σ r
        (Form.bindings (expressionWithin limit levels) (r.cursor.remaining + 1) σ r) ∧
      ∀ next r', Form.bindingRound (expressionWithin limit levels) σ r =
        (.ok (some next), r') → r.cursor.pos < r'.cursor.pos) ∧
    ((Eval.expression limit scope run).2.entryCount : Int) ≤
      run.entryCount + (run.cursor.source.length - run.cursor.pos) + 1 := by
  have haccepts (levels : Nat) (σ : Scope) : Accepts limit (expressionWithin limit levels σ) :=
    expressionWithin_accepts levels σ
  obtain ⟨honward, hlevels, hcount⟩ := (endsOnward_expression hin limit scope).outcome
  have hsize : (Eval.expression limit scope run).2.cursor.pos ≤ run.cursor.source.length :=
    honward.source ▸ honward.inside.2
  refine ⟨fun levels h => expressionWithin_eq_expression hin h, hlevels, honward.source,
    honward.le_pos, hsize, ?_, ?_, ?_, by omega⟩
  · intro v hv
    obtain ⟨e, he⟩ := expressionWithin_accepts _ scope hin (Prod.ext hv rfl)
    exact he.pos_lt hin
  · intro form combine levels σ total r hr
    refine ⟨?_, fun next r' h => (Form.onward_of_operandRound (haccepts levels σ) hr h).2⟩
    rw [Form.reduce_eq_iterate]
    exact loops_iterate (Form.onward_of_operandRound (haccepts levels σ)) hr
      hr.length_lt_remaining
  · intro levels σ r hr
    refine ⟨?_, fun next r' h => (Form.onward_of_bindingRound (haccepts levels) hr h).2⟩
    rw [Form.bindings_eq_iterate]
    exact loops_iterate (Form.onward_of_bindingRound (haccepts levels)) hr
      hr.length_lt_remaining

/-- A cursor before forms of which none is closed. -/
def unclosedRun : Run := { cursor := { source := "1(add(mult 2 (eq".toList, pos := 1 } }

/-- Evaluation runs into the end of the text, whatever the number of levels, and has entered no more
expressions than there were characters ahead, and one. -/
theorem expression_ends_onward_unclosed :
    unclosedRun.Inside ∧ (Eval.expression none {} unclosedRun).1 = .error .comparisonArity ∧
      (∀ levels, 15 < levels → expressionWithin none levels {} unclosedRun =
        Eval.expression none {} unclosedRun) ∧
      (Eval.expression none {} unclosedRun).2.cursor.pos ≤ 16 ∧
      ((Eval.expression none {} unclosedRun).2.entryCount : Int) ≤ 16 := by
  have hin : unclosedRun.Inside := ⟨by decide, by decide⟩
  have hresult : (Eval.expression none {} unclosedRun).1 = .error .comparisonArity := by
    decide +kernel
  have hlength : unclosedRun.unread.length = 15 := by decide
  obtain ⟨hlevels, -, -, -, hsize, -, -, -, hcount⟩ := expression_ends_onward hin none {}
  exact ⟨hin, hresult, hlength ▸ hlevels, hsize, hcount⟩

end SExprCalc
