import SExprCalc.Proofs.Layout

/-!
# Agreement with a meaning, one level at a time

`Agrees` compares the outcome of a computation with a meaning: the same result or fault, the same
lines printed, the depth and the text as before, and, after a result, a certain text left unread. It
is closed under sequencing (`Agrees.bind`), so every form is treated along its own definition: what
has to be shown is only that each reader stops where the layout says.

This is done for one level. How operands are evaluated is a parameter, and so is what they mean: if
evaluating an operand at some depth agrees with what the operand means (`Reads`), then evaluating
the expression ahead agrees with what the expression means by that (`Written.agrees_ahead`). Leading
spaces never matter, because the first thing that evaluation does is to skip them; so the statement
speaks of the unread text past its spaces.
-/

namespace SExprCalc

open Eval

/-! ### What a run has printed -/

namespace Run

/-- The lines printed so far. -/
def printed (run : Run) : List String := lines run.events

theorem printed_noted (run : Run) (event : Event) :
    (run.noted event).printed = run.printed ++ lines [event] := by
  simp [printed, lines, events, List.filterMap_append]

/-- A later run that has printed nothing more and is at the same depth of the same text. -/
structure Silent (run run' : Run) : Prop where
  /-- nothing more is printed -/
  printed : run'.printed = run.printed
  /-- the depth is the same -/
  depth : run'.depth = run.depth
  /-- the text is the same -/
  source : run'.cursor.source = run.cursor.source

theorem silent_moved (run : Run) (n : Nat) : run.Silent (run.moved n) := ⟨rfl, rfl, rfl⟩

theorem silent_skipped (run : Run) : run.Silent run.skipped := run.silent_moved _

/-- Events other than printing are silent. -/
theorem silent_noted (run : Run) {event : Event} (h : lines [event] = []) :
    run.Silent (run.noted event) :=
  ⟨by rw [printed_noted, h, List.append_nil], rfl, rfl⟩

theorem Silent.trans {run run' run'' : Run} (h : run.Silent run') (h' : run'.Silent run'') :
    run.Silent run'' :=
  ⟨h'.printed.trans h.printed, h'.depth.trans h.depth, h'.source.trans h.source⟩

theorem silent_opened (run : Run) (form : Form) : run.Silent (run.opened form) :=
  (run.silent_moved _).trans (silent_noted _ rfl)

theorem silent_closed (run : Run) (form : Form) : run.Silent (run.closed form) :=
  (run.silent_moved _).trans (silent_noted _ rfl)

end Run

/-! ### Agreement -/

/-- The outcome of a computation, started in a run, is what a meaning says; if there is a result,
the text left unread is as stated. -/
structure Agrees {α : Type} (run : Run) (out : Except Fault α × Run) (m : Meaning α)
    (stop : List Char → Prop) : Prop where
  /-- the same result or fault -/
  result : out.1 = m.result
  /-- the same lines -/
  printed : out.2.printed = run.printed ++ m.lines
  /-- the depth is restored -/
  depth : out.2.depth = run.depth
  /-- the text stays -/
  source : out.2.cursor.source = run.cursor.source
  /-- where reading stops -/
  stops : ∀ a, out.1 = .ok a → out.2.Inside ∧ stop out.2.unread

namespace Agrees

variable {α β : Type} {run run' : Run} {stop stop' : List Char → Prop}

/-- Silent steps before a computation do not matter. -/
theorem of_silent {out : Except Fault α × Run} {m : Meaning α} (h : run.Silent run')
    (ha : Agrees run' out m stop) : Agrees run out m stop where
  result := ha.result
  printed := by rw [ha.printed, h.printed]
  depth := by rw [ha.depth, h.depth]
  source := by rw [ha.source, h.source]
  stops := ha.stops

theorem ofExcept (x : Except Fault α) (hin : run.Inside) (hstop : stop run.unread) :
    Agrees run (Eval.ofExcept x run) (.ofExcept x) stop where
  result := by rw [ofExcept_apply]; rfl
  printed := by rw [ofExcept_apply]; exact (List.append_nil _).symm
  depth := by rw [ofExcept_apply]
  source := by rw [ofExcept_apply]
  stops := fun _ _ => by rw [ofExcept_apply]; exact ⟨hin, hstop⟩

theorem pure (a : α) (hin : run.Inside) (hstop : stop run.unread) :
    Agrees run ((Pure.pure a : Eval α) run) (Pure.pure a) stop :=
  ofExcept (.ok a) hin hstop

/-- Agreement is closed under sequencing. -/
theorem bind {x : Eval α} {f : α → Eval β} {m : Meaning α} {k : α → Meaning β}
    (hx : Agrees run (x run) m stop)
    (hf : ∀ a run₁, run₁.Inside → stop run₁.unread → run₁.depth = run.depth →
      Agrees run₁ (f a run₁) (k a) stop') :
    Agrees run ((x >>= f) run) (m >>= k) stop' := by
  rcases hout : x run with ⟨fault | a, run₁⟩ <;> rw [hout] at hx
  · -- a fault ends both sides, with what has been printed so far
    rw [bind_of_error hout, Meaning.bind_of_error hx.result.symm]
    exact ⟨rfl, hx.printed, hx.depth, hx.source, fun _ h => by cases h⟩
  · obtain ⟨hin, hstop⟩ := hx.stops a rfl
    have hk := hf a run₁ hin hstop hx.depth
    rw [bind_of_ok hout, Meaning.bind_of_ok hx.result.symm]
    refine ⟨hk.result, ?_, hk.depth.trans hx.depth, hk.source.trans hx.source, hk.stops⟩
    rw [hk.printed, hx.printed, List.append_assoc]

theorem mono {out : Except Fault α × Run} {m : Meaning α} (ha : Agrees run out m stop)
    (h : ∀ rest, stop rest → stop' rest) : Agrees run out m stop' :=
  ⟨ha.result, ha.printed, ha.depth, ha.source, fun a hout => (ha.stops a hout).imp_right (h _)⟩

/-- Printing a line is what a meaning calls saying it. -/
theorem say (line : String) (hin : run.Inside) (hstop : stop run.unread) :
    Agrees run (note (.printed line) run) (.say line) stop where
  result := rfl
  printed := run.printed_noted _
  depth := rfl
  source := rfl
  stops := fun _ _ => ⟨hin.noted _, hstop⟩

/-- An operand that agrees with its meaning also does where a number is needed: both refuse the same
values. -/
theorem number {x : Eval Value} {m : Meaning Value} (form : Form)
    (hx : Agrees run (x run) m stop) : Agrees run (form.number x run) (m.number form) stop :=
  hx.bind fun v _ hin hstop _ => ofExcept (v.expectNumber form.head) hin hstop

/-- A computation one level deeper: the level is left again, and entering it prints nothing, so it
agrees with the same meaning. -/
theorem thenLeave {x : Eval α} {m : Meaning α}
    (hx : Agrees run.deeper (x run.deeper) m stop) :
    Agrees run (x.thenLeave run.deeper) m stop where
  result := hx.result
  printed := by
    have hdeeper : run.deeper.printed = run.printed ++ [] := run.printed_noted _
    rw [List.append_nil] at hdeeper
    rw [← hdeeper]
    exact hx.printed
  depth := by
    have : (x run.deeper).2.depth = run.depth + 1 := hx.depth
    change (x run.deeper).2.depth - 1 = run.depth
    omega
  source := hx.source
  stops := hx.stops

end Agrees

/-! ### Texts past their spaces -/

theorem unread_skipped_of_ne {run : Run} (h : run.Inside) {k : Nat} {c : Char} {more : List Char}
    (hc : c ≠ ' ') (hu : run.unread = spaces k ++ c :: more) : run.skipped.unread = c :: more := by
  rw [Run.unread_skipped h, hu, spaceCount_append hc]
  exact List.drop_left' (length_spaces k)

theorem Written.unread_skipped {e : Expr} {t rest : List Char} (hw : Written e t) {run : Run}
    (h : run.Inside) {k : Nat} (hu : run.unread = spaces k ++ (t ++ rest)) :
    run.skipped.unread = t ++ rest := by
  obtain ⟨c, more, rfl, hc⟩ := hw.exists_first
  exact unread_skipped_of_ne h hc.ne_space hu

/-- An expression that lies ahead is seen as an operand. -/
theorem Written.operandAhead {e : Expr} {t rest : List Char} (hw : Written e t) {run : Run}
    (h : run.Inside) {k : Nat} (hu : run.unread = spaces k ++ (t ++ rest)) :
    Form.operandAhead run = (.ok true, run.skipped) := by
  rw [operandAhead_apply h, hw.unread_skipped h hu]
  obtain ⟨c, more, rfl, hc⟩ := hw.exists_first
  have hany : (c != ')') = true := by simpa using hc.ne_close
  simp [hany]

/-! ### Operands -/

variable {operand : Scope → Eval Value} {sem : Expr → Scope → Meaning Value} {depth : Int}
  {run : Run} {scope : Scope} {e a b : Expr} {t u mid rest after : List Char} {j : Nat}

/-- Evaluating an operand at some depth reads a text of an expression and gives what it means. -/
def Reads (operand : Scope → Eval Value) (sem : Expr → Scope → Meaning Value) (depth : Int)
    (e : Expr) (t : List Char) : Prop :=
  ∀ (scope : Scope) (run : Run) (after : List Char), run.Inside → run.depth = depth →
    run.skipped.unread = t ++ after → e.EndsBefore after →
    Agrees run (operand scope run) (sem e scope) (· = after)

/-- After any spaces, a text starts with an expression that evaluation reads as it should, and goes
on with another text. -/
def Next (operand : Scope → Eval Value) (sem : Expr → Scope → Meaning Value) (depth : Int)
    (e : Expr) (text rest : List Char) : Prop :=
  ∃ k t, text = spaces k ++ (t ++ rest) ∧ Written e t ∧ e.EndsBefore rest ∧
    Reads operand sem depth e t

/-- After the spaces, an expression that comes next shows its first character. -/
theorem Next.head?_skipped (h : Next operand sem depth e run.unread rest) (hin : run.Inside) :
    ∃ c, run.skipped.unread.head? = some c ∧ e.Starts c := by
  obtain ⟨k, t, hu, hw, -, -⟩ := h
  obtain ⟨c, more, rfl, hc⟩ := hw.exists_first
  exact ⟨c, by rw [unread_skipped_of_ne hin hc.ne_space hu]; rfl, hc⟩

/-- The next expression is evaluated to what it means. -/
theorem Next.agrees (h : Next operand sem depth e run.unread rest) (scope : Scope)
    (hin : run.Inside) (hdepth : run.depth = depth) :
    Agrees run (operand scope run) (sem e scope) (· = rest) := by
  obtain ⟨k, t, hu, hw, hends, hr⟩ := h
  exact hr scope run rest hin hdepth (hw.unread_skipped hin hu) hends

/-- It does not matter whether the spaces before the next expression have been skipped. -/
theorem Next.agrees_skipped (h : Next operand sem depth e run.unread rest) (scope : Scope)
    (hin : run.Inside) (hdepth : run.depth = depth) :
    Agrees run.skipped (operand scope run.skipped) (sem e scope) (· = rest) := by
  obtain ⟨k, t, hu, hw, hends, hr⟩ := h
  refine hr scope run.skipped rest hin.skipped hdepth ?_ hends
  rw [Run.skipped_skipped hin]
  exact hw.unread_skipped hin hu

/-- An operand that is there is not missed. -/
theorem Next.required (h : Next operand sem depth e run.unread rest) (missing : Fault)
    (hin : run.Inside) (hdepth : run.depth = depth) :
    Agrees run (Form.required missing (operand scope) run) (sem e scope) (· = rest) := by
  have hoperand := h.agrees_skipped scope hin hdepth
  obtain ⟨k, t, hu, hw, -, -⟩ := h
  rw [Form.required, bind_of_ok (hw.operandAhead hin hu)]
  exact .of_silent run.silent_skipped hoperand

/-- Less text is left behind an expression than before it, since no expression is empty. -/
theorem Next.length_lt {text : List Char} (h : Next operand sem depth e text rest) :
    rest.length < text.length := by
  obtain ⟨k, t, rfl, hw, -, -⟩ := h
  obtain ⟨c, more, rfl, -⟩ := hw.exists_first
  simp only [List.length_append, List.length_cons]
  omega

/-- A text starts with expressions one after the other. -/
def NextAll (operand : Scope → Eval Value) (sem : Expr → Scope → Meaning Value) (depth : Int) :
    List Expr → List Char → List Char → Prop
  | [], text, rest => text = rest
  | e :: es, text, rest => ∃ mid, Next operand sem depth e text mid ∧
      NextAll operand sem depth es mid rest

/-- A text starts with bindings and a body. -/
def NextBlock (operand : Scope → Eval Value) (sem : Expr → Scope → Meaning Value) (depth : Int) :
    List (Identifier × Expr) → Expr → List Char → List Char → Prop
  | [], body, text, rest => Next operand sem depth body text rest
  | (x, e) :: bs, body, text, rest => ∃ k u mid, text = spaces k ++ (x.text ++ u) ∧
      StopsAt Char.isAlphanum u ∧ Next operand sem depth e u mid ∧
      NextBlock operand sem depth bs body mid rest

/-! ### Forms -/

/-- Exactly two numbers are divided. -/
theorem agrees_quotient (ha : Next operand sem depth a run.unread mid)
    (hb : Next operand sem depth b mid (spaces j ++ ')' :: after)) (hin : run.Inside)
    (hdepth : run.depth = depth) :
    Agrees run (Form.quotient (operand scope) run) ((Expr.div a b).meaningBy sem scope)
      (· = ')' :: after) := by
  rw [Expr.meaningBy, Form.quotient]
  refine .bind ((ha.required _ hin hdepth).number .div) ?_
  rintro x run₁ hin₁ rfl hd₁
  refine .bind ((hb.required _ hin₁ (hd₁.trans hdepth)).number .div) ?_
  rintro y run₂ hin₂ hu₂ -
  have hclose := unread_skipped_of_ne hin₂ (by decide) hu₂
  rw [bind_of_ok (operandAhead_apply hin₂), hclose]
  refine .of_silent run₂.silent_skipped (.pure _ hin₂.skipped hclose)

/-- Two expressions are compared in a scope of their own. -/
theorem agrees_comparison (ha : Next operand sem depth a run.unread mid)
    (hb : Next operand sem depth b mid rest) (hin : run.Inside) (hdepth : run.depth = depth) :
    Agrees run (Form.comparison (operand scope.child) run) ((Expr.eq a b).meaningBy sem scope)
      (· = rest) := by
  rw [Expr.meaningBy, Form.comparison]
  refine .bind (ha.required _ hin hdepth) ?_
  rintro v run₁ hin₁ rfl hd₁
  refine .bind (hb.required _ hin₁ (hd₁.trans hdepth)) ?_
  rintro w run₂ hin₂ hu₂ -
  have hcompare : Agrees run₂ (ofExcept (v.compare w) run₂) (.ofExcept (v.compare w)) (· = rest) :=
    .ofExcept _ hin₂ hu₂
  exact hcompare.bind fun r run₃ hin₃ hu₃ _ => .pure _ hin₃ hu₃

/-- An expression is printed on a line of its own. -/
theorem agrees_display (ha : Next operand sem depth a run.unread rest) (hin : run.Inside)
    (hdepth : run.depth = depth) :
    Agrees run (Form.display (operand scope) run) ((Expr.print a).meaningBy sem scope)
      (· = rest) := by
  rw [Expr.meaningBy, Form.display]
  refine .bind (ha.agrees scope hin hdepth) ?_
  rintro v run₁ hin₁ hu₁ -
  have hformat : Agrees run₁ (ofExcept v.format run₁) (.ofExcept v.format) (· = rest) :=
    .ofExcept _ hin₁ hu₁
  refine hformat.bind ?_
  rintro line run₂ hin₂ hu₂ -
  have hsay : Agrees run₂ (note (.printed line) run₂) (.say line) (· = rest) := .say _ hin₂ hu₂
  exact hsay.bind fun _ run₃ hin₃ hu₃ _ => .pure _ hin₃ hu₃

/-- The loop over operands reads all of them and stops at the closing parenthesis. -/
theorem agrees_reduce {form : Form} {combine : Binary64 → Binary64 → Binary64} {es : List Expr}
    {bound : Nat} {total : Binary64}
    (h : NextAll operand sem depth es run.unread (spaces j ++ ')' :: after)) (hin : run.Inside)
    (hdepth : run.depth = depth) (hbound : run.unread.length < bound) :
    Agrees run (form.reduce combine (operand scope) bound total run)
      (Expr.meaningAllBy sem form combine scope es total) (· = ')' :: after) := by
  induction es generalizing run bound total with
  | nil =>
    obtain _ | bound := bound
    · exact absurd hbound (Nat.not_lt_zero _)
    have hclose := unread_skipped_of_ne hin (by decide) h
    rw [Expr.meaningAllBy, Form.reduce, bind_of_ok (skipSpaces_apply hin),
      bind_of_ok (peek_apply hin.skipped), hclose]
    exact .of_silent run.silent_skipped (.pure _ hin.skipped hclose)
  | cons e es ih =>
    obtain _ | bound := bound
    · exact absurd hbound (Nat.not_lt_zero _)
    obtain ⟨mid, he, hes⟩ := h
    obtain ⟨c, hc, hstarts⟩ := he.head?_skipped hin
    -- every operand shortens the unread text, so the bound stays greater than its length
    have hshorter := he.length_lt
    rw [Expr.meaningAllBy, Form.reduce, bind_of_ok (skipSpaces_apply hin),
      bind_of_ok (peek_apply hin.skipped), hc, if_neg (by simpa using hstarts.ne_close)]
    have hoperand := (he.agrees_skipped scope hin hdepth).number form
    refine .of_silent run.silent_skipped (hoperand.bind ?_)
    rintro x run₁ hin₁ rfl hd₁
    exact ih hes hin₁ (hd₁.trans hdepth) (by omega)

/-- A sum or product is the total of its operands. -/
theorem agrees_total {form : Form} {combine : Binary64 → Binary64 → Binary64} {es : List Expr}
    {first : Binary64} (h : NextAll operand sem depth es run.unread (spaces j ++ ')' :: after))
    (hin : run.Inside) (hdepth : run.depth = depth) :
    Agrees run ((do return .number (← form.reduce combine (operand scope) (← Form.rounds) first) :
        Eval Value) run)
      (do return .number (← Expr.meaningAllBy sem form combine scope es first))
      (fun rest => ∃ i, rest = spaces i ++ ')' :: after) := by
  rw [bind_of_ok (rounds_apply hin)]
  refine (agrees_reduce h hin hdepth (Nat.lt_succ_self _)).bind ?_
  rintro x run₁ hin₁ hu₁ -
  exact .pure _ hin₁ ⟨0, hu₁⟩

/-- No identifier starts where a number or a form starts. -/
theorem identifierLength_eq_zero {c : Char} (hc : c.isAlpha = false) (more : List Char) :
    Cursor.identifierLength (c :: more) = 0 := by
  rw [Cursor.identifierLength, hc]
  rfl

/-- A body is not taken for a binding. Only a name could be, and it is asked of a name that a
closing parenthesis follows. -/
theorem not_binding_of_body (hw : Written e t) (hends : e.EndsBefore rest)
    (hname : ∀ x, e = .name x → rest.head? = some ')') :
    (Cursor.identifierLength (t ++ rest) != 0 &&
      ((t ++ rest).drop (Cursor.identifierLength (t ++ rest))).head? != some ')') = false := by
  cases hw with
  | number m =>
    obtain ⟨c, more, htext, hc⟩ := m.text_eq_cons
    rw [htext, List.cons_append, identifierLength_eq_zero (isAlpha_of_numeral hc)]
    rfl
  | name x =>
    rw [identifierLength_text_append x hends, List.drop_left, hname x rfl]
    exact Bool.and_false _
  | form j inner close =>
    rw [List.cons_append, identifierLength_eq_zero (by decide)]
    rfl

/-- A name that an expression follows is taken for that of a binding, and read. -/
theorem reads_binding_name {x : Identifier} {k : Nat} {text : List Char} (hin : run.Inside)
    (hu : run.unread = spaces k ++ (x.text ++ text)) (hx : StopsAt Char.isAlphanum text)
    (h : Next operand sem depth e text mid) :
    lookAhead Form.bindingAhead run.skipped = (.ok true, run.skipped) ∧
      readIdentifier run.skipped = (.ok x.name, run.skipped.moved x.text.length) ∧
      (run.skipped.moved x.text.length).Inside ∧
      (run.skipped.moved x.text.length).unread = text := by
  have hskip : run.skipped.unread = x.text ++ text := by
    refine unread_skipped_of_ne hin ?_ hu
    have : (Expr.name x).Starts x.first := x.isAlpha
    exact this.ne_space
  refine ⟨?_, ?_, ?_, ?_⟩
  · -- what follows the name is not a closing parenthesis, since an expression starts there
    have hnext : text.head? ≠ some ')' := by
      obtain ⟨i, t, rfl, hw, -, -⟩ := h
      obtain ⟨c, more, rfl, hc⟩ := hw.exists_first
      cases i with
      | zero => simpa using hc.ne_close
      | succ i => simp [spaces, List.replicate_succ]
    rw [bindingAhead_apply hin.skipped, hskip, identifierLength_text_append x hx, List.drop_left]
    simp [Identifier.text, hnext]
  · exact readIdentifier_text hin.skipped hskip hx
  · exact hin.skipped.moved_of_append hskip
  · exact Run.unread_moved_of_append hin.skipped hskip

/-- The loop over bindings reads all of them and stops before the body, which is read next. -/
theorem agrees_block {bs : List (Identifier × Expr)} {body : Expr} {bound : Nat}
    (h : NextBlock operand sem depth bs body run.unread rest) (hin : run.Inside)
    (hdepth : run.depth = depth) (hname : ∀ x, body = .name x → rest.head? = some ')')
    (hbound : run.unread.length < bound) :
    Agrees run ((Form.bindings operand bound scope >>= operand) run)
      (Expr.meaningBindingsBy sem scope bs >>= sem body) (· = rest) := by
  induction bs generalizing run scope bound with
  | nil =>
    obtain _ | bound := bound
    · exact absurd hbound (Nat.not_lt_zero _)
    have hbinding : lookAhead Form.bindingAhead run.skipped = (.ok false, run.skipped) := by
      obtain ⟨k, t, hu, hw, hends, -⟩ := h
      rw [bindingAhead_apply hin.skipped, hw.unread_skipped hin hu,
        not_binding_of_body hw hends hname]
    rw [Form.bindings, bind_assoc, bind_of_ok (skipSpaces_apply hin), bind_assoc,
      bind_of_ok hbinding]
    have hread := Next.agrees_skipped h scope hin hdepth
    exact .of_silent run.silent_skipped hread
  | cons b bs ih =>
    obtain _ | bound := bound
    · exact absurd hbound (Nat.not_lt_zero _)
    obtain ⟨x, e⟩ := b
    obtain ⟨k, u, mid, hu, hx, he, hbs⟩ := h
    have hshorter := he.length_lt
    obtain ⟨hbinding, hread, hin₁, hu₁⟩ := reads_binding_name hin hu hx he
    rw [Form.bindings, Expr.meaningBindingsBy, bind_assoc, bind_of_ok (skipSpaces_apply hin),
      bind_assoc, bind_of_ok hbinding, if_pos rfl, bind_assoc, bind_of_ok hread, bind_assoc,
      Meaning.bind_assoc]
    rw [← hu₁] at he
    have hvalue := he.agrees scope hin₁ hdepth
    refine .of_silent (run.silent_skipped.trans (run.skipped.silent_moved _)) (hvalue.bind ?_)
    rintro v run₁ hin₂ rfl hd₁
    refine ih hbs hin₂ (hd₁.trans hdepth) ?_
    rw [hu] at hbound
    simp only [List.length_append] at hbound
    omega

/-- Bindings and a body are evaluated in the scope that the bindings make. -/
theorem agrees_body {bs : List (Identifier × Expr)} {body : Expr}
    (h : NextBlock operand sem depth bs body run.unread rest) (hin : run.Inside)
    (hdepth : run.depth = depth) (hname : ∀ x, body = .name x → rest.head? = some ')') :
    Agrees run (Form.body operand scope run)
      (Expr.meaningBindingsBy sem scope bs >>= sem body) (· = rest) := by
  have hsilent : run.Silent (run.noted (.scopeOpened scope.depth)) := run.silent_noted rfl
  rw [Form.body, bind_of_ok (note_eq_noted _ _)]
  refine .of_silent hsilent ?_
  rw [bind_of_ok (rounds_apply (hin.noted _))]
  exact agrees_block h (hin.noted _) hdepth hname (Nat.lt_succ_self _)

/-! ### Layouts -/

/-- The operands of a layout are read one after the other, up to the spaces before the closing
parenthesis. -/
theorem OperandsLayout.nextAll {es : List Expr} (h : OperandsLayout es t)
    (hop : ∀ p ∈ es, ∀ t, Written p t → Reads operand sem depth p t) (j : Nat)
    (after : List Char) :
    NextAll operand sem depth es (t ++ (spaces j ++ ')' :: after)) (spaces j ++ ')' :: after) := by
  induction es generalizing t with
  | nil =>
    cases h
    rfl
  | cons e es ih =>
    cases h with
    | cons k first ends others =>
      refine ⟨_, ⟨k, _, by simp only [List.append_assoc], first, ends.append_close j after,
        hop e (List.mem_cons_self ..) _ first⟩, ih others ?_⟩
      intro p hp
      exact hop p (List.mem_cons_of_mem _ hp)

/-- The bindings and the body of a layout are read one after the other. -/
theorem BlockLayout.nextBlock {bs : List (Identifier × Expr)} {body : Expr}
    (h : BlockLayout bs body t)
    (hop : ∀ p ∈ body :: bs.map Prod.snd, ∀ t, Written p t → Reads operand sem depth p t)
    (j : Nat) (after : List Char) :
    NextBlock operand sem depth bs body (t ++ (spaces j ++ ')' :: after))
      (spaces j ++ ')' :: after) := by
  induction bs generalizing t with
  | nil =>
    cases h with
    | body k written =>
      exact ⟨k, _, by simp only [List.append_assoc], written, Expr.endsBefore_close _ _ _,
        hop body (List.mem_cons_self ..) _ written⟩
  | cons b bs ih =>
    cases h with
    | @bind k i x e _ _ t u nameEnds value ends others =>
      have hothers : ∀ p ∈ body :: bs.map Prod.snd, ∀ t, Written p t →
          Reads operand sem depth p t := by
        intro p hp
        refine hop p ?_
        rcases List.mem_cons.mp hp with rfl | hp
        · exact List.mem_cons_self ..
        · exact List.mem_cons_of_mem _ (List.mem_cons_of_mem _ hp)
      obtain ⟨c, more, htext, -⟩ := value.exists_first
      refine ⟨k, spaces i ++ (t ++ (u ++ (spaces j ++ ')' :: after))), _, ?_, ?_,
        ⟨i, t, rfl, value, ends.append_close j after,
          hop e (List.mem_cons_of_mem _ (List.mem_cons_self ..)) _ value⟩, ih others hothers⟩
      · simp only [List.append_assoc]
      · have : StopsAt Char.isAlphanum ((spaces i ++ t) ++ (u ++ (spaces j ++ ')' :: after))) :=
          nameEnds.append (by simp [htext]) _
        rwa [List.append_assoc] at this

/-- What is inside a form is read up to the spaces before its end. -/
theorem InnerLayout.agrees {f : Form} (h : InnerLayout f e t)
    (hop : ∀ p ∈ e.parts, ∀ t, Written p t → Reads operand sem depth p t)
    (hclose : e.bodyIsName = true → j = 0) (hin : run.Inside) (hdepth : run.depth = depth)
    (hu : run.unread = t ++ (spaces j ++ ')' :: after)) :
    Agrees run (f.eval operand scope run) (e.meaningBy sem scope)
      (fun rest => ∃ i, rest = spaces i ++ ')' :: after) := by
  cases h with
  | add h => exact agrees_total (hu ▸ h.nextAll hop j after) hin hdepth
  | mult h => exact agrees_total (hu ▸ h.nextAll hop j after) hin hdepth
  | div h =>
    obtain ⟨mid, ha, _, hb, rfl⟩ := hu ▸ h.nextAll hop j after
    exact (agrees_quotient ha hb hin hdepth).mono fun _ hrest => ⟨0, hrest⟩
  | eq h =>
    obtain ⟨mid, ha, _, hb, rfl⟩ := hu ▸ h.nextAll hop j after
    exact (agrees_comparison ha hb hin hdepth).mono fun _ hrest => ⟨j, hrest⟩
  | @letIn bs body _ h =>
    have hname : ∀ x, body = .name x → (spaces j ++ ')' :: after).head? = some ')' := by
      rintro x rfl
      rw [hclose rfl]
      rfl
    exact (agrees_body (hu ▸ h.nextBlock hop j after) hin hdepth hname).mono
      fun _ hrest => ⟨j, hrest⟩
  | print h =>
    obtain ⟨_, ha, rfl⟩ := hu ▸ h.nextAll hop j after
    exact (agrees_display ha hin hdepth).mono fun _ hrest => ⟨j, hrest⟩

/-! ### Expressions -/

/-- A numeral is evaluated to its value, or to the fault that it is out of range. -/
theorem agrees_number (m : Numeral) (scope : Scope) (hin : run.Inside)
    (hu : run.skipped.unread = m.text ++ after) (hends : StopsAt Char.isDigit after) :
    Agrees run (expressionAhead operand scope run) (.ofExcept m.value) (· = after) := by
  obtain ⟨c, more, htext, hc⟩ := m.text_eq_cons
  have hopen : c ≠ '(' := by
    rintro rfl
    exact Expr.not_starts_open_number m hc
  have hclass : (c = '-' || c.isDigit) = true := by simpa using hc
  have hhead : run.skipped.unread.head? = some c := by
    rw [hu, htext]
    rfl
  rw [expressionAhead_apply hin, hhead]
  simp only [if_neg hopen, if_pos hclass]
  refine .of_silent run.silent_skipped ?_
  have hread := readNumber_text hin.skipped hu hends
  rw [Numeral.value]
  rcases hv : Literal.value? m.text with _ | x
  · rw [hv] at hread
    rw [bind_of_error hread]
    exact ⟨rfl, (List.append_nil _).symm, rfl, rfl, fun _ h => by cases h⟩
  · rw [hv] at hread
    rw [bind_of_ok hread]
    refine ⟨rfl, (List.append_nil _).symm, rfl, rfl, fun _ _ => ⟨?_, ?_⟩⟩
    · exact hin.skipped.moved_of_append hu
    · exact Run.unread_moved_of_append hin.skipped hu

/-- A name is evaluated to what the scope has for it, or to the fault that it is not bound. -/
theorem agrees_name (x : Identifier) (scope : Scope) (hin : run.Inside)
    (hu : run.skipped.unread = x.text ++ after) (hends : StopsAt Char.isAlphanum after) :
    Agrees run (expressionAhead operand scope run) (.ofExcept (scope.resolve (.text x.name)))
      (· = after) := by
  have hopen : x.first ≠ '(' := by
    intro h
    exact Expr.not_starts_open_name x (h ▸ x.isAlpha)
  have hclass : ¬ (x.first = '-' || x.first.isDigit) = true := by
    intro h
    have hletter := isAlpha_of_numeral (by simpa using h)
    rw [x.isAlpha] at hletter
    cases hletter
  have hhead : run.skipped.unread.head? = some x.first := by
    rw [hu]
    rfl
  rw [expressionAhead_apply hin, hhead]
  simp only [if_neg hopen, if_neg hclass, if_pos x.isAlpha]
  rw [bind_of_ok (readIdentifier_text hin.skipped hu hends)]
  refine .of_silent (run.silent_skipped.trans (run.skipped.silent_moved _)) (.ofExcept _ ?_ ?_)
  · exact hin.skipped.moved_of_append hu
  · exact Run.unread_moved_of_append hin.skipped hu

/-- A form is read from its opening parenthesis on: what is inside comes first, and then whatever
is left to do at the end of a form. -/
theorem agrees_opened {f : Form} {m : Meaning Value} {k : Value → Meaning Value}
    {stop stop' : List Char → Prop} (hin : run.Inside)
    (hu : run.skipped.unread = '(' :: (f.head.toList ++ t))
    (h : ∀ run₁ : Run, run₁.Inside → run₁.depth = run.depth → run₁.unread = t →
      Agrees run₁ (f.eval operand scope run₁) m stop)
    (hclose : ∀ v run₁, run₁.Inside → stop run₁.unread →
      Agrees run₁ (f.close v run₁) (k v) stop') :
    Agrees run (expressionAhead operand scope run) (m >>= k) stop' := by
  have hhead : run.skipped.unread.head? = some '(' := by
    rw [hu]
    rfl
  have hin₁ : (run.skipped.moved 1).Inside := hin.skipped.moved (by rw [hu]; simp)
  have hu₁ : (run.skipped.moved 1).unread = f.head.toList ++ t := by
    rw [Run.unread_moved hin.skipped, hu]
    rfl
  have hp : f.head.toList <+: (run.skipped.moved 1).unread := ⟨_, hu₁.symm⟩
  rw [expressionAhead_apply hin, hhead]
  simp only [if_true]
  rw [formAhead_apply hin₁, Form.ahead?_eq_some_iff.mpr hp]
  have hsilent : run.Silent ((run.skipped.moved 1).opened f) :=
    (run.silent_skipped.trans (run.skipped.silent_moved 1)).trans (Run.silent_opened _ f)
  have hinner := h _ (hin₁.opened hp) hsilent.depth (Run.unread_opened hin₁ hu₁)
  exact .of_silent hsilent (hinner.bind fun v run₁ hin₂ hstop _ => hclose v run₁ hin₂ hstop)

/-- The end of a form is read over, and means nothing more. -/
theorem agrees_close (f : Form) (v : Value) (hin : run.Inside)
    (hu : run.unread = spaces j ++ ')' :: after) :
    Agrees run (f.close v run) (pure v) (· = after) := by
  have hclose := unread_skipped_of_ne hin (by decide) hu
  rw [Form.close_apply hin, hclose, if_pos List.head?_cons]
  refine .of_silent (run.silent_skipped.trans (Run.silent_closed _ f)) (.pure v ?_ ?_)
  · exact hin.skipped.closed f (by rw [hclose]; rfl)
  · change (run.skipped.moved 1).unread = after
    rw [Run.unread_moved hin.skipped, hclose]
    rfl

/-- A form is read from its opening to its closing parenthesis if what is inside is read up to the
spaces before the latter. -/
theorem agrees_form {f : Form} {m : Meaning Value} (hin : run.Inside)
    (hu : run.skipped.unread =
      '(' :: (f.head.toList ++ (t ++ (spaces j ++ [')']))) ++ after)
    (h : ∀ run₁ : Run, run₁.Inside → run₁.depth = run.depth →
      run₁.unread = t ++ (spaces j ++ ')' :: after) →
      Agrees run₁ (f.eval operand scope run₁) m
        (fun rest => ∃ i, rest = spaces i ++ ')' :: after)) :
    Agrees run (expressionAhead operand scope run) m (· = after) := by
  have hu₁ : run.skipped.unread = '(' :: (f.head.toList ++ (t ++ (spaces j ++ ')' :: after))) := by
    simpa using hu
  rw [← Meaning.bind_pure m]
  refine agrees_opened hin hu₁ h ?_
  rintro v run₁ hin₁ ⟨i, hi⟩
  exact agrees_close f v hin₁ hi

/-- An expression is evaluated to what it means, if its parts are. -/
theorem Written.agrees_ahead (hw : Written e t)
    (hop : ∀ p ∈ e.parts, ∀ t, Written p t → Reads operand sem depth p t) (scope : Scope)
    (hin : run.Inside) (hdepth : run.depth = depth) (hu : run.skipped.unread = t ++ after)
    (hends : e.EndsBefore after) :
    Agrees run (expressionAhead operand scope run) (e.meaningBy sem scope) (· = after) := by
  cases hw with
  | number m => exact agrees_number m scope hin hu hends
  | name x => exact agrees_name x scope hin hu hends
  | form j inner close =>
    refine agrees_form hin hu ?_
    intro run₁ hin₁ hd₁ hu₁
    exact inner.agrees hop close hin₁ (hd₁.trans hdepth) hu₁

end SExprCalc
