import SExprCalc.Proofs.Lockstep

/-!
# The depth limit only cuts a run off

An evaluation with a limit is the evaluation without one, as far as it goes. Side by side, the two
are in the *same* run, the same history included, for as long as no level beyond the limit is
entered. At the first such level the limited evaluation is gone (`Cut`): its history is what the
other had done up to and including that entry, and its fault shows the text that was unread there.
If it never happens, both end alike.

The number of levels of the evaluator is a second limit of the same sort, so both are treated at
once, and the level that counts is the lesser of them.
-/

namespace SExprCalc

open Eval

/-! ### Levels in a history -/

/-- The greatest depth at which an expression is entered; zero if none is. -/
def deepest : List Event → Int
  | [] => 0
  | .entered depth _ :: events => max depth (deepest events)
  | _ :: events => deepest events

/-- No expression is entered deeper than some level. -/
def Shallow (level : Int) (events : List Event) : Prop :=
  ∀ depth pos, .entered depth pos ∈ events → depth ≤ level

theorem le_deepest {depth pos : Int} {events : List Event} (h : .entered depth pos ∈ events) :
    depth ≤ deepest events := by
  induction events with
  | nil => cases h
  | cons event events ih =>
    rcases List.mem_cons.mp h with rfl | h
    · rw [deepest]
      omega
    · have := ih h
      cases event with
      | entered => rw [deepest]; omega
      | _ => exact this

theorem deepest_le {level : Int} (hlevel : 0 ≤ level) {events : List Event}
    (h : Shallow level events) : deepest events ≤ level := by
  induction events with
  | nil => exact hlevel
  | cons event events ih =>
    have hmore := ih fun depth pos hmem => h depth pos (List.mem_cons_of_mem _ hmem)
    cases event with
    | entered depth pos =>
      have := h depth pos (List.mem_cons_self ..)
      rw [deepest]
      omega
    | _ => exact hmore

theorem Shallow.cons {level : Int} {events : List Event} (h : Shallow level events) {event : Event}
    (hevent : ∀ depth pos, event = .entered depth pos → depth ≤ level) :
    Shallow level (event :: events) := by
  intro depth pos hmem
  rcases List.mem_cons.mp hmem with heq | hmem
  · exact hevent depth pos heq.symm
  · exact h depth pos hmem

/-! ### Faults other than depth -/

/-- Values are not refused for depth. -/
theorem family_ne_depth_of_refused {value : Value → Prop} {fault : Fault}
    (h : Value.Refused value fault) : fault.family ≠ .depth := by
  obtain ⟨form, kind, rfl⟩ | ⟨left, right, rfl⟩ | ⟨x, -, rfl⟩ := h.mistyped_or_foreign <;>
    simp [Fault.family]

/-- No fault for the number of operands is about depth. -/
theorem family_ne_depth_of_miscounts {next : Option Char} {fault : Fault}
    (h : Form.Miscounts next fault) : fault.family ≠ .depth := by
  cases h <;> simp [Fault.family]

/-- No fault that is raised for the text or for a value is about depth. -/
theorem family_ne_depth_of_raised {value : Value → Prop} {fault : Fault} {run : Run}
    (h : Raised value fault run) : fault.family ≠ .depth := by
  cases h with
  | refused h => exact family_ne_depth_of_refused h
  | _ => simp [Fault.family]

/-! ### The cut -/

/-- The level at which a run is cut off: what is within both the limit and the number of levels is
not. -/
def cutLevel (limit : Int) (levels : Nat) : Int := max (min limit levels) 0

/-- One evaluation has been cut off at the first entry beyond the level, and another has gone on
from there. -/
structure Cut (source : List Char) (limit : Int) (levels : Nat) (fault : Fault)
    (run run' : Run) : Prop where
  /-- the cut, and what was before -/
  entry : ∃ pos before, run.history = .entered (cutLevel limit levels + 1) pos :: before ∧
    Shallow (cutLevel limit levels) before ∧
    (limit ≤ levels → fault = .tooDeep limit (String.ofList (source.drop pos.toNat)))
  /-- the fault is about depth -/
  family : fault.family = .depth
  /-- the other has done the same and maybe more -/
  goesOn : run.history <:+ run'.history

/-- What goes on after a cut has entered a level beyond the limit. -/
theorem Cut.lt_deepest {source : List Char} {limit : Int} {levels : Nat} {fault : Fault}
    {run run' : Run} (h : Cut source limit levels fault run run') :
    min limit levels < deepest run'.events := by
  obtain ⟨pos, before, hhistory, -, -⟩ := h.entry
  have hmem : .entered (cutLevel limit levels + 1) pos ∈ run'.events := by
    refine List.mem_reverse.mpr (h.goesOn.subset ?_)
    rw [hhistory]
    exact List.mem_cons_self ..
  have hle := le_deepest hmem
  rw [cutLevel] at hle
  omega

/-- What the two evaluations have in common at a depth of nesting. -/
def cutting (source : List Char) (limit : Int) (levels : Nat) (depth : Int) : Invariant where
  run r := r.Inside ∧ r.cursor.source = source ∧ r.depth = depth ∧
    Shallow (cutLevel limit levels) r.history
  scope _ := True
  value _ := True
  fault f r := f.family ≠ .depth ∧ Shallow (cutLevel limit levels) r.history
  gone := Cut source limit levels
  inside h := h.1
  moved h hn := ⟨h.1.moved hn, h.2⟩
  noted h hevent := by
    obtain ⟨hin, hsource, hdepth, hshallow⟩ := h
    refine ⟨hin.noted _, hsource, hdepth, hshallow.cons ?_⟩
    intro depth pos heq
    exact absurd heq (hevent depth pos)
  child _ := trivial
  define _ _ := trivial
  found _ _ := trivial
  number _ := trivial
  boolean _ := trivial
  nil := trivial
  raised hr h := ⟨family_ne_depth_of_raised h, hr.2.2.2⟩
  gone_mono h hsuffix := ⟨h.entry, h.family, h.goesOn.trans hsuffix⟩

variable {source : List Char} {limit depth : Int} {levels n m k : Nat} {run : Run} {scope : Scope}

/-- How the limited evaluation and the other one end. -/
def EndsCut (source : List Char) (limit : Int) (levels : Nat) (depth : Int) (k : Nat)
    (out out' : Except Fault Value × Run) : Prop :=
  ((cutting source limit levels depth).lockstep.below k).Ends
    (cutting source limit levels depth).lockstep.Same out out'

/-- Coming back from a level goes back to the depth before. A run that has been cut off stays so. -/
theorem EndsCut.thenLeave {x y : Eval Value} {run' : Run}
    (h : EndsCut source limit levels (depth + 1) k (x run) (y run')) :
    EndsCut source limit levels depth k (x.thenLeave run) (y.thenLeave run') := by
  rw [Eval.thenLeave, Eval.thenLeave]
  rcases hout : x run with ⟨fault | v, r⟩ <;> rcases hout' : y run' with ⟨fault' | v', s⟩ <;>
    rw [hout, hout'] at h
  · cases h with
    | error h =>
      obtain ⟨rfl, hfault⟩ := h
      exact .error ⟨rfl, hfault⟩
    | gone h => exact .gone ⟨h.entry, h.family, h.goesOn⟩
  · cases h with
    | gone h => exact .gone ⟨h.entry, h.family, h.goesOn⟩
  · cases h
  · cases h with
    | ok h hr =>
      obtain ⟨⟨rfl, hin, hsource, hdepth, hshallow⟩, hk⟩ := hr
      refine .ok h ⟨⟨rfl, hin, hsource, ?_, hshallow⟩, hk⟩
      change r.depth - 1 = depth
      omega

/-- Where the next level is beyond the limit or the levels, the limited evaluation is cut off by its
entry, and the other one goes on. -/
theorem endsCut_of_beyond (hrun : (cutting source limit levels depth).run run)
    (hdepth : 0 ≤ depth) (hcut : depth ≤ cutLevel limit levels)
    (hbeyond : min limit levels < depth + 1) {fault : Fault} {run₁ : Run}
    (hhistory : run₁.history = run.deeper.history) (hfamily : fault.family = .depth)
    (hfault : limit ≤ levels → fault = .tooDeep limit run.cursor.restText) (y : Eval Value)
    [Grows y] :
    EndsCut source limit levels depth k (.error fault, run₁) (nested none y run) := by
  -- no level so far is beyond the cut, and the next one is: the present one is the last allowed
  have hlevel : depth = cutLevel limit levels := by
    rw [cutLevel] at hcut ⊢
    omega
  obtain ⟨hin, hsource, hat, hshallow⟩ := hrun
  refine .gone ⟨⟨run.cursor.pos, run.history, ?_, hshallow, ?_⟩, hfamily, ?_⟩
  · rw [hhistory, ← hlevel, ← hat]
    rfl
  · intro hle
    rw [hfault hle, Cursor.restText, Cursor.rest, Cursor.index_of_nonneg _ hin.1, hsource]
  · rw [hhistory, nested_of_le (fun _ h => by cases h)]
    exact Grows.grows run.deeper

/-- With and without the limit, evaluation goes side by side until a level is entered that is
beyond the limit or the levels. -/
theorem endsCut_expressionWithin (hlevels : n + depth = levels) (hdepth : 0 ≤ depth)
    (hcut : depth ≤ cutLevel limit levels) (hrun : (cutting source limit levels depth).run run)
    (hm : run.unread.length < m) (hk : run.unread.length < k) :
    EndsCut source limit levels depth k (expressionWithin (some limit) n scope run)
      (expressionWithin none m scope run) := by
  induction n generalizing depth run scope m k with
  | zero =>
    have hat : run.depth = depth := hrun.2.2.1
    have hbeyond : min limit levels < depth + 1 := by omega
    obtain _ | m := m
    · exact absurd hm (Nat.not_lt_zero _)
    rw [expressionWithin, expressionWithin]
    -- without levels the run is cut in any case; the limit only decides by which fault
    rcases within_or_beyond (some limit) run.depth with hle | ⟨d, ⟨⟩, hlt⟩
    · have hlimit := hle limit rfl
      have hout : (fail (.stackExhausted (some limit)) : Eval Value).thenLeave run.deeper =
          (.error (.stackExhausted (some limit)),
            { run.deeper with depth := run.deeper.depth - 1 }) := rfl
      rw [nested_of_le hle, hout]
      refine endsCut_of_beyond hrun hdepth hcut hbeyond ?_ ?_ ?_ _
      · rfl
      · rfl
      · intro hle'
        omega
    · rw [nested_of_lt hlt]
      exact endsCut_of_beyond hrun hdepth hcut hbeyond rfl rfl (fun _ => rfl) _
  | succ n ih =>
    have hat : run.depth = depth := hrun.2.2.1
    obtain _ | m := m
    · exact absurd hm (Nat.not_lt_zero _)
    rw [expressionWithin, expressionWithin]
    rcases within_or_beyond (some limit) run.depth with hle | ⟨d, ⟨⟩, hlt⟩
    · have hlimit := hle limit rfl
      have hnext : depth + 1 ≤ cutLevel limit levels := by
        rw [cutLevel]
        omega
      rw [nested_of_le hle, nested_of_le (fun _ h => by cases h)]
      obtain ⟨hin, hsource, -, hshallow⟩ := hrun
      have hdeeper : (cutting source limit levels (depth + 1)).run run.deeper := by
        refine ⟨hin, hsource, congrArg (· + 1) hat, hshallow.cons ?_⟩
        rintro _ _ ⟨⟩
        omega
      have hruns : ((cutting source limit levels (depth + 1)).lockstep.below k).runs run.deeper
          run.deeper := ⟨⟨rfl, hdeeper⟩, hk⟩
      refine .thenLeave (Lockstep.expressionAhead_ends hruns ?_ ⟨rfl, trivial⟩)
      -- an operand has less text ahead, so one level less is still enough without the limit
      rintro σ _ ⟨rfl, -⟩ r _ ⟨⟨rfl, hr⟩, hless⟩
      have hshorter : r.unread.length < run.unread.length := hless
      exact ih (by omega) (by omega) hnext hr (by omega) hless
    · rw [nested_of_lt hlt]
      exact endsCut_of_beyond hrun hdepth hcut (by omega) rfl rfl (fun _ => rfl) _

/-! ### The text printed in a history -/

namespace Run

/-- The text that some events print. -/
def text (events : List Event) : String := String.join ((lines events).map (· ++ "\n"))

theorem output_eq_text (run : Run) : run.output = text run.events := rfl

theorem text_append (events events' : List Event) :
    text (events ++ events') = text events ++ text events' := by
  rw [text, lines, List.filterMap_append, List.map_append, String.join_append]
  rfl

end Run

/-! ### Evaluation without a limit -/

/-- Evaluates the first expression of a text in a scope, with no limit on its depth. -/
def unlimited (source : String) (scope : Scope) : Evaluation :=
  let (result, run) := Eval.expression none scope { cursor := .ofString source }
  { result, run }

theorem expressionWithin_eq_unlimited (source : String) (scope : Scope) :
    expressionWithin none ((Cursor.ofString source).remaining + 1) scope
        { cursor := .ofString source } =
      ((unlimited source scope).result, (unlimited source scope).run) := rfl

/-- The outermost expression is entered in any case. -/
theorem one_le_deepest (source : String) (scope : Scope) :
    1 ≤ deepest (unlimited source scope).run.events := by
  have heq := expressionWithin_eq_unlimited source scope
  rw [expressionWithin, nested_of_le (fun _ h => by cases h)] at heq
  have hgrows := Grows.grows (x := (expressionAhead (expressionWithin none
      (Cursor.ofString source).remaining) scope).thenLeave)
    (Run.deeper { cursor := .ofString source })
  rw [heq] at hgrows
  have hmem : .entered 1 0 ∈ (unlimited source scope).run.events :=
    List.mem_reverse.mpr (hgrows.subset (List.mem_cons_self ..))
  exact le_deepest hmem

/-- An evaluation with a limit either is the one without, or is cut off. -/
theorem same_or_cut (source : String) (scope : Scope) (limit : Int) (levels : Nat) :
    (expressionWithin (some limit) levels scope { cursor := .ofString source } =
        ((unlimited source scope).result, (unlimited source scope).run) ∧
      deepest (unlimited source scope).run.events ≤ min limit levels ∧
      ∀ fault, (unlimited source scope).result = .error fault → fault.family ≠ .depth) ∨
    ∃ fault run, expressionWithin (some limit) levels scope { cursor := .ofString source } =
        (.error fault, run) ∧
      Cut source.toList limit levels fault run (unlimited source scope).run ∧
      min limit levels < deepest (unlimited source scope).run.events := by
  have hin := Run.inside_ofString source
  have hstart : (cutting source.toList limit levels 0).run { cursor := .ofString source } :=
    ⟨hin, rfl, rfl, fun _ _ h => by cases h⟩
  have hlen : (Run.unread { cursor := .ofString source }).length =
      (Cursor.ofString source).remaining :=
    (Cursor.Inside.remaining_eq hin).symm
  have hends : EndsCut source.toList limit levels 0 ((Cursor.ofString source).remaining + 1)
      (expressionWithin (some limit) levels scope { cursor := .ofString source })
      (expressionWithin none ((Cursor.ofString source).remaining + 1) scope
        { cursor := .ofString source }) :=
    endsCut_expressionWithin (by omega) (by omega) (by rw [cutLevel]; omega) hstart (by omega)
      (by omega)
  rw [expressionWithin_eq_unlimited] at hends
  -- the outermost expression is entered in any case, so a run that is not cut is within the limit
  have hwithin (h : Shallow (cutLevel limit levels) (unlimited source scope).run.history) :
      deepest (unlimited source scope).run.events ≤ min limit levels := by
    have hone := one_le_deepest source scope
    have hshallow : Shallow (cutLevel limit levels) (unlimited source scope).run.events :=
      fun depth pos hmem => h depth pos (List.mem_reverse.mp hmem)
    have hle := deepest_le (by rw [cutLevel]; omega) hshallow
    rw [cutLevel] at hle
    omega
  rcases hout : expressionWithin (some limit) levels scope { cursor := .ofString source } with
    ⟨result, run⟩
  rcases hresult : (unlimited source scope).result with fault | v <;>
    rw [hout, hresult] at hends
  · cases hends with
    | error h =>
      obtain ⟨rfl, hfamily, hshallow⟩ := h
      refine .inl ⟨rfl, hwithin hshallow, ?_⟩
      rintro _ ⟨⟩
      exact hfamily
    | gone h => exact .inr ⟨_, _, rfl, h, h.lt_deepest⟩
  · cases hends with
    | ok h hr =>
      obtain ⟨rfl, -⟩ := h
      obtain ⟨⟨rfl, -, -, -, hshallow⟩, -⟩ := hr
      exact .inl ⟨rfl, hwithin hshallow, fun _ h => by cases h⟩
    | gone h => exact .inr ⟨_, _, rfl, h, h.lt_deepest⟩

/-- Without a limit, no fault is about depth: the levels never run out before the text does. -/
theorem unlimited_family_ne_depth {source : String} {scope : Scope} {fault : Fault}
    (h : (unlimited source scope).result = .error fault) : fault.family ≠ .depth := by
  have hone := one_le_deepest source scope
  -- a limit that allows as much as is needed cuts nothing off
  obtain ⟨-, -, hfamily⟩ | ⟨_, _, -, -, hlt⟩ := same_or_cut source scope
    (deepest (unlimited source scope).run.events)
    (deepest (unlimited source scope).run.events).toNat
  · exact hfamily fault h
  · omega

/-! ### The theorem -/

/-- A cut splits the events of the run that goes on at the first entry beyond the level, and
everything that the other run has printed comes before. -/
theorem Cut.split {source : List Char} {limit : Int} {levels : Nat} {fault : Fault}
    {run run' : Run} (h : Cut source limit levels fault run run') :
    ∃ before pos after, run'.events = before ++ .entered (cutLevel limit levels + 1) pos :: after ∧
      Shallow (cutLevel limit levels) before ∧ run.output = Run.text before ∧
      (limit ≤ levels → fault = .tooDeep limit (String.ofList (source.drop pos.toNat))) := by
  obtain ⟨pos, before, hhistory, hshallow, hfault⟩ := h.entry
  obtain ⟨later, hlater⟩ := h.goesOn
  refine ⟨before.reverse, pos, later.reverse, ?_, ?_, ?_, hfault⟩
  · rw [Run.events, ← hlater, hhistory]
    simp
  · intro depth p hmem
    exact hshallow depth p (List.mem_reverse.mp hmem)
  · rw [Run.output_eq_text, Run.events, hhistory, List.reverse_cons, Run.text_append]
    exact String.append_empty

/-- Where nothing is entered beyond the limit, evaluation is what it is without a limit. -/
theorem evaluate_of_deepest_le {source : String} {scope : Scope} {d : Int}
    (h : deepest (unlimited source scope).run.events ≤ min d stackLevels) :
    (evaluate source scope d).result = (unlimited source scope).result ∧
      (evaluate source scope d).run.output = (unlimited source scope).run.output := by
  obtain ⟨heq, -, -⟩ | ⟨_, _, -, -, hlt⟩ := same_or_cut source scope d stackLevels
  · rw [result_evaluate, run_evaluate, heq]
    exact ⟨rfl, rfl⟩
  · omega

/-- The limit on depth changes nothing but where a run is cut off. With the least of the limit and
the levels of the evaluator in the place of the limit:

* if evaluation without a limit enters no expression beyond it, evaluation with the limit ends in
  the same result or fault and prints the same;
* otherwise it ends in a fault about depth, and has printed what the other had printed when it first
  entered the level beyond; unless the evaluator had too few levels, the message shows the limit
  and the text unread at that entry;
* so an outcome that is no fault about depth is the same for every greater limit. -/
theorem evaluate_eq_unlimited_or_cut (source : String) (scope : Scope) (d : Int) :
    (deepest (unlimited source scope).run.events ≤ min d stackLevels →
      (evaluate source scope d).result = (unlimited source scope).result ∧
      (evaluate source scope d).run.output = (unlimited source scope).run.output) ∧
    (min d stackLevels < deepest (unlimited source scope).run.events →
      ∃ before pos after fault,
        (unlimited source scope).run.events =
          before ++ .entered (max (min d stackLevels) 0 + 1) pos :: after ∧
        (∀ depth p, .entered depth p ∈ before → depth ≤ max (min d stackLevels) 0) ∧
        (evaluate source scope d).result = .error fault ∧ fault.family = .depth ∧
        (d ≤ stackLevels → fault.message = "expression nested deeper than " ++ toString d ++
          " levels: " ++ String.ofList (source.toList.drop pos.toNat)) ∧
        (evaluate source scope d).run.output = Run.text before ∧
        (unlimited source scope).run.output = Run.text before ++ Run.text after) ∧
    ∀ d', d ≤ d' →
      (∀ fault, (evaluate source scope d).result = .error fault → fault.family ≠ .depth) →
      (evaluate source scope d').result = (evaluate source scope d).result ∧
      (evaluate source scope d').run.output = (evaluate source scope d).run.output := by
  refine ⟨?_, ?_, ?_⟩
  · intro hle
    exact evaluate_of_deepest_le hle
  · intro hlt
    obtain ⟨-, hle, -⟩ | ⟨fault, run, heq, hcut, -⟩ := same_or_cut source scope d stackLevels
    · omega
    obtain ⟨before, pos, after, hevents, hshallow, houtput, hfault⟩ := hcut.split
    refine ⟨before, pos, after, fault, hevents, hshallow, ?_, hcut.family, ?_, ?_, ?_⟩
    · rw [result_evaluate, heq]
    · intro hd
      rw [hfault hd]
      rfl
    · rw [run_evaluate, heq]
      exact houtput
    · rw [Run.output_eq_text, hevents, Run.text_append]
      rfl
  · intro d' hd hfamily
    have hle : deepest (unlimited source scope).run.events ≤ min d stackLevels := by
      obtain ⟨-, hle, -⟩ | ⟨fault, run, heq, hcut, -⟩ := same_or_cut source scope d stackLevels
      · exact hle
      · refine absurd hcut.family (hfamily fault ?_)
        rw [result_evaluate, heq]
    obtain ⟨hresult, houtput⟩ := evaluate_of_deepest_le hle
    obtain ⟨hresult', houtput'⟩ := evaluate_of_deepest_le (d := d') (Int.le_trans hle (by omega))
    exact ⟨hresult'.trans hresult.symm, houtput'.trans houtput.symm⟩

-- the number 3 is at the fourth level, and what is printed before it stays printed
example : (evaluate "(eq(print 2)(add(print 3)))" {} 3).run.output = "2.000000\n" ∧
    (evaluate "(eq(print 2)(add(print 3)))" {} 4).run.output = "2.000000\n3.000000\n" := by
  decide +kernel

end SExprCalc
