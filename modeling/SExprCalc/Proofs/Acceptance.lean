import SExprCalc.Proofs.Refinement
import SExprCalc.Proofs.Unambiguous

/-!
# Evaluation accepts layouts only

The converse of the refinement: wherever evaluation succeeds, what it has read is a layout of an
expression, and there was room for the height of that expression. No form checks its whole shape
itself. Sums and products stop at the closing parenthesis, a quotient looks whether it is there, the
others leave it to the end of the form, and `let` tells a body from a binding by looking one
character past a name. So the statement about a form (`InnerTaken`) only says what it has read so
far, and what a body that is a name has to be followed by; the closing parenthesis comes last.

A run that has read a text (`Run.Past`) is described by the text alone. Everything here is about
successful computations, and taken apart by `Eval.bind_eq_ok`.
-/

namespace SExprCalc

open Eval

/-! ### Runs that have read a text -/

/-- A later run at the same depth of the same text, which has read a part of it. -/
structure Run.Past (run run' : Run) (t : List Char) : Prop where
  /-- the cursor is within the text -/
  inside : run'.Inside
  /-- the text is the same -/
  source : run'.cursor.source = run.cursor.source
  /-- the depth is the same -/
  depth : run'.depth = run.depth
  /-- what was unread is the part that has been read and what is unread now -/
  unread : run.unread = t ++ run'.unread

namespace Run

variable {run run' run'' : Run} {t u : List Char}

theorem Past.refl (h : run.Inside) : run.Past run [] := ⟨h, rfl, rfl, rfl⟩

theorem Past.trans (h : run.Past run' t) (h' : run'.Past run'' u) : run.Past run'' (t ++ u) :=
  ⟨h'.inside, h'.source.trans h.source, h'.depth.trans h.depth,
    by rw [h.unread, h'.unread, List.append_assoc]⟩

theorem Past.noted (h : run.Past run' t) (event : Event) : run.Past (run'.noted event) t :=
  ⟨h.inside.noted event, h.source, h.depth, h.unread⟩

theorem past_moved (h : run.Inside) (hu : run.unread = t ++ u) : run.Past (run.moved t.length) t :=
  ⟨h.moved_of_append hu, rfl, rfl, by rw [unread_moved_of_append h hu, hu]⟩

theorem past_skipped (h : run.Inside) :
    run.Past run.skipped (spaces (Cursor.spaceCount run.unread)) := by
  refine ⟨h.skipped, rfl, rfl, ?_⟩
  rw [unread_skipped h, spaces, ← Cursor.take_spaceCount, List.take_append_drop]

theorem Past.length_eq (h : run.Past run' t) :
    run.unread.length = t.length + run'.unread.length := by
  rw [h.unread, List.length_append]

theorem Past.pos_eq (h : run.Past run' t) (hin : run.Inside) :
    run'.cursor.pos = run.cursor.pos + t.length := by
  have hlen := Cursor.Inside.length_rest hin
  have hlen' := Cursor.Inside.length_rest h.inside
  have hread : run.cursor.rest.length = t.length + run'.cursor.rest.length := h.length_eq
  have hsize : run'.cursor.size = run.cursor.size := congrArg List.length h.source
  omega

/-- What has been read lies between the two positions. -/
theorem Past.slice_eq (h : run.Past run' t) (hin : run.Inside) :
    run.cursor.slice run.cursor.pos run'.cursor.pos = t := by
  have hread : run.cursor.rest = t ++ run'.unread := h.unread
  rw [h.pos_eq hin, Cursor.slice_pos hin, hread, List.take_left]

end Run

/-! ### What has been read -/

variable {limit : Option Int} {run run₁ run' : Run} {x : Eval Value} {v : Value} {e : Expr}

/-- Between two runs, a layout of an expression has been read for which there was room. -/
def Taken (limit : Option Int) (run run' : Run) (e : Expr) : Prop :=
  ∃ k t, Written e t ∧ e.EndsBefore run'.unread ∧ Room limit run e ∧ run.Past run' (spaces k ++ t)

/-- Between two runs, expressions have been read one after the other. -/
def TakenAll (limit : Option Int) (run run' : Run) (es : List Expr) : Prop :=
  ∃ t, OperandsLayout es t ∧ (∀ e ∈ es, Room limit run e) ∧ run.Past run' t

/-- Between two runs, bindings and a body have been read; a body that is a name comes right before
a closing parenthesis. -/
def TakenBlock (limit : Option Int) (run run' : Run) (bs : List (Identifier × Expr))
    (body : Expr) : Prop :=
  ∃ t, BlockLayout bs body t ∧ (∀ b ∈ bs, Room limit run b.2) ∧ Room limit run body ∧
    run.Past run' t ∧ ∀ y, body = .name y → run'.unread.head? = some ')'

/-- Between two runs, what is inside a form has been read, and maybe spaces after it. -/
def InnerTaken (limit : Option Int) (run run' : Run) (form : Form) (e : Expr) : Prop :=
  ∃ t j, InnerLayout form e t ∧ (∀ d ∈ limit, run.depth + e.height ≤ d + 1) ∧
    run.Past run' (t ++ spaces j) ∧
    (e.bodyIsName = true → j = 0 ∧ run'.unread.head? = some ')')

/-- A computation succeeds only on layouts. -/
def Accepts (limit : Option Int) (x : Eval Value) : Prop :=
  ∀ {run run' : Run} {v : Value}, run.Inside → x run = (.ok v, run') → ∃ e, Taken limit run run' e

/-- There is as much room as at another run of the same depth. -/
theorem Room.of_depth_eq (h : Room limit run₁ e) (hd : run₁.depth = run.depth) :
    Room limit run e := by
  intro d hlimit
  rw [← hd]
  exact h d hlimit

/-- Spaces that are read before an expression belong to its layout. -/
theorem Taken.of_spaces {k : Nat} (hs : run.Past run₁ (spaces k)) (h : Taken limit run₁ run' e) :
    Taken limit run run' e := by
  obtain ⟨l, t, hw, hends, hroom, hpast⟩ := h
  refine ⟨k + l, t, hw, hends, hroom.of_depth_eq hs.depth, ?_⟩
  rw [← spaces_append, List.append_assoc]
  exact hs.trans hpast

theorem Taken.inside (h : Taken limit run run' e) : run'.Inside := by
  obtain ⟨k, t, -, -, -, hpast⟩ := h
  exact hpast.inside

theorem Taken.length_le (h : Taken limit run run' e) :
    run'.unread.length ≤ run.unread.length := by
  obtain ⟨k, t, -, -, -, hpast⟩ := h
  have := hpast.length_eq
  omega

theorem TakenAll.nil (h : run.Inside) : TakenAll limit run run [] :=
  ⟨[], .nil, by simp, .refl h⟩

theorem TakenAll.inside {es : List Expr} (h : TakenAll limit run run' es) : run'.Inside := by
  obtain ⟨t, -, -, hpast⟩ := h
  exact hpast.inside

theorem Taken.cons {es : List Expr} (h : Taken limit run run₁ e)
    (h' : TakenAll limit run₁ run' es) : TakenAll limit run run' (e :: es) := by
  obtain ⟨k, t, hw, hends, hroom, hpast⟩ := h
  obtain ⟨u, hes, hrooms, hpast'⟩ := h'
  rw [hpast'.unread] at hends
  refine ⟨spaces k ++ (t ++ u), .cons k hw hends.of_append hes, ?_, ?_⟩
  · intro e' he'
    rcases List.mem_cons.mp he' with rfl | he'
    · exact hroom
    · exact (hrooms e' he').of_depth_eq hpast.depth
  · rw [← List.append_assoc]
    exact hpast.trans hpast'

/-- A name that ends where it should and an expression after it are one more binding. -/
theorem TakenBlock.bind {run₂ : Run} {y : Identifier} {bs : List (Identifier × Expr)} {body : Expr}
    {k : Nat} (hy : run.Past run₁ (spaces k ++ y.text))
    (hstop : StopsAt Char.isAlphanum run₁.unread) (he : Taken limit run₁ run₂ e)
    (h : TakenBlock limit run₂ run' bs body) :
    TakenBlock limit run run' ((y, e) :: bs) body := by
  obtain ⟨i, t, hw, hends, hroom, hpast⟩ := he
  obtain ⟨u, hbs, hrooms, hbody, hpast', hname⟩ := h
  rw [hpast'.unread] at hends
  rw [hpast.unread] at hstop
  have hdepth := hpast.depth.trans hy.depth
  refine ⟨_, .bind k i hstop.of_append hw hends.of_append hbs, ?_, hbody.of_depth_eq hdepth, ?_,
    hname⟩
  · intro b hb
    rcases List.mem_cons.mp hb with rfl | hb
    · exact hroom.of_depth_eq hy.depth
    · exact (hrooms b hb).of_depth_eq hdepth
  · have := (hy.trans hpast).trans hpast'
    simp only [List.append_assoc] at this
    exact this

/-! ### Tokens -/

/-- A number is read up to where its digits end. -/
theorem readNumber_accepts {y : Binary64} (hin : run.Inside)
    (h : readNumber run = (.ok y, run')) :
    ∃ n : Numeral, StopsAt Char.isDigit run'.unread ∧ run.Past run' n.text := by
  by_cases hn : Cursor.numeralLength run.unread = 0
  · rw [readNumber_apply hin, if_pos hn] at h
    cases h
  · obtain ⟨n, after, hu, hstop⟩ := exists_numeral hn
    rw [readNumber_text hin hu hstop] at h
    split at h
    · obtain ⟨-, rfl⟩ := Prod.mk.inj h
      exact ⟨n, Run.unread_moved_of_append hin hu ▸ hstop, Run.past_moved hin hu⟩
    · cases h

/-- An identifier is read up to where its letters and digits end. -/
theorem readIdentifier_accepts {name : String} (hin : run.Inside)
    (h : readIdentifier run = (.ok name, run')) :
    ∃ y : Identifier, StopsAt Char.isAlphanum run'.unread ∧ run.Past run' y.text := by
  by_cases hn : Cursor.identifierLength run.unread = 0
  · have hfail : run.cursor.readIdentifier = .error (.expectedIdentifier run.cursor.restText) := by
      rw [Cursor.readIdentifier_eq hin]
      exact if_pos hn
    rw [readIdentifier, read_of_error hfail] at h
    cases h
  · obtain ⟨y, after, hu, hstop⟩ := exists_identifier hn
    rw [readIdentifier_text hin hu hstop] at h
    obtain ⟨-, rfl⟩ := Prod.mk.inj h
    exact ⟨y, Run.unread_moved_of_append hin hu ▸ hstop, Run.past_moved hin hu⟩

/-! ### Forms -/

/-- An operand that is required is accepted like any other; the check before it only skips spaces.
-/
theorem Accepts.required (hx : Accepts limit x) (missing : Fault) :
    Accepts limit (Form.required missing x) := by
  intro run run' v hin h
  rw [Form.required, bind_of_ok (operandAhead_apply hin)] at h
  by_cases hc : run.skipped.unread.head?.any (· != ')') = true
  · rw [if_pos hc] at h
    obtain ⟨e, he⟩ := hx hin.skipped h
    exact ⟨e, he.of_spaces (Run.past_skipped hin)⟩
  · rw [if_neg hc] at h
    cases h

/-- Asking for a number reads nothing more. -/
theorem number_eq_ok {form : Form} {y : Binary64} (h : form.number x run = (.ok y, run')) :
    ∃ v, x run = (.ok v, run') := by
  obtain ⟨v, run₁, hv, hy⟩ := bind_eq_ok h
  rw [ofExcept_apply] at hy
  obtain ⟨-, rfl⟩ := Prod.mk.inj hy
  exact ⟨v, hv⟩

/-- The loop over operands reads operands, and maybe spaces after them. -/
theorem reduce_accepts (hx : Accepts limit x) {form : Form}
    {combine : Binary64 → Binary64 → Binary64} {bound : Nat} {total y : Binary64}
    (hin : run.Inside) (h : form.reduce combine x bound total run = (.ok y, run')) :
    ∃ es run₁ j, TakenAll limit run run₁ es ∧ run₁.Past run' (spaces j) := by
  induction bound generalizing run total with
  | zero =>
    -- no rounds left: whatever follows, the closing parenthesis is asked for after the loop
    obtain ⟨-, rfl⟩ := Prod.mk.inj h
    exact ⟨[], run, 0, .nil hin, .refl hin⟩
  | succ bound ih =>
    rw [Form.reduce, bind_of_ok (skipSpaces_apply hin), bind_of_ok (peek_apply hin.skipped)] at h
    by_cases hc : run.skipped.unread.head? = some ')'
    · rw [if_pos hc] at h
      obtain ⟨-, rfl⟩ := Prod.mk.inj h
      exact ⟨[], run, _, .nil hin, Run.past_skipped hin⟩
    · rw [if_neg hc] at h
      -- anything else has to be an operand, and the rounds after it read the others
      obtain ⟨z, run₁, hz, h⟩ := bind_eq_ok h
      obtain ⟨v, hv⟩ := number_eq_ok hz
      obtain ⟨e, he⟩ := hx hin.skipped hv
      obtain ⟨es, run₂, j, hes, hj⟩ := ih he.inside h
      exact ⟨e :: es, run₂, j, (he.of_spaces (Run.past_skipped hin)).cons hes, hj⟩

/-- A sum or product has any number of operands. -/
theorem total_accepts (hx : Accepts limit x) {form : Form}
    {combine : Binary64 → Binary64 → Binary64} {first : Binary64} (hin : run.Inside)
    (h : (do return .number (← form.reduce combine x (← Form.rounds) first) : Eval Value) run =
      (.ok v, run')) :
    ∃ es run₁ j, TakenAll limit run run₁ es ∧ run₁.Past run' (spaces j) := by
  rw [bind_of_ok (rounds_apply hin)] at h
  obtain ⟨y, run₁, hy, h⟩ := bind_eq_ok h
  obtain ⟨-, rfl⟩ := Prod.mk.inj h
  exact reduce_accepts hx hin hy

/-- A quotient has exactly two operands: each of them is required, and a third one that lies ahead
is a fault. -/
theorem quotient_accepts (hx : Accepts limit x) (hin : run.Inside)
    (h : Form.quotient x run = (.ok v, run')) :
    ∃ a b run₁ j, TakenAll limit run run₁ [a, b] ∧ run₁.Past run' (spaces j) := by
  obtain ⟨n, run₁, hn, h⟩ := bind_eq_ok h
  obtain ⟨m, run₂, hm, h⟩ := bind_eq_ok h
  obtain ⟨v₁, hv₁⟩ := number_eq_ok hn
  obtain ⟨v₂, hv₂⟩ := number_eq_ok hm
  obtain ⟨a, ha⟩ := hx.required _ hin hv₁
  obtain ⟨b, hb⟩ := hx.required _ ha.inside hv₂
  rw [bind_of_ok (operandAhead_apply hb.inside)] at h
  by_cases hc : run₂.skipped.unread.head?.any (· != ')') = true
  · rw [if_pos hc] at h
    cases h
  · rw [if_neg hc] at h
    obtain ⟨-, rfl⟩ := Prod.mk.inj h
    exact ⟨a, b, run₂, _, ha.cons (hb.cons (.nil hb.inside)), Run.past_skipped hb.inside⟩

/-- A comparison has two operands. -/
theorem comparison_accepts (hx : Accepts limit x) (hin : run.Inside)
    (h : Form.comparison x run = (.ok v, run')) : ∃ a b, TakenAll limit run run' [a, b] := by
  obtain ⟨v₁, run₁, hv₁, h⟩ := bind_eq_ok h
  obtain ⟨v₂, run₂, hv₂, h⟩ := bind_eq_ok h
  obtain ⟨r, run₃, hr, h⟩ := bind_eq_ok h
  obtain ⟨a, ha⟩ := hx.required _ hin hv₁
  obtain ⟨b, hb⟩ := hx.required _ ha.inside hv₂
  rw [ofExcept_apply] at hr
  obtain ⟨-, rfl⟩ := Prod.mk.inj hr
  obtain ⟨-, rfl⟩ := Prod.mk.inj h
  exact ⟨a, b, ha.cons (hb.cons (.nil hb.inside))⟩

/-- One operand is printed. -/
theorem display_accepts (hx : Accepts limit x) (hin : run.Inside)
    (h : Form.display x run = (.ok v, run')) : ∃ a, TakenAll limit run run' [a] := by
  obtain ⟨v₁, run₁, hv₁, h⟩ := bind_eq_ok h
  obtain ⟨line, run₂, hline, h⟩ := bind_eq_ok h
  obtain ⟨a, ha⟩ := hx hin hv₁
  rw [ofExcept_apply] at hline
  obtain ⟨-, rfl⟩ := Prod.mk.inj hline
  rw [bind_of_ok (note_eq_noted _ _)] at h
  obtain ⟨-, rfl⟩ := Prod.mk.inj h
  obtain ⟨t, ht, hroom, hpast⟩ := ha.cons (.nil ha.inside)
  exact ⟨a, t, ht, hroom, hpast.noted _⟩

/-- Where no binding lies ahead, a name is followed by a closing parenthesis. -/
theorem Taken.head?_of_not_binding {y : Identifier} (hin : run.Inside)
    (h : Taken limit run.skipped run' (.name y))
    (hb : lookAhead Form.bindingAhead run.skipped = (.ok false, run.skipped)) :
    run'.unread.head? = some ')' := by
  obtain ⟨k, t, hw, hends, -, hpast⟩ := h
  obtain rfl := hw.eq_text
  -- past its spaces the run has no more of them, so the name starts right here
  have hk : Cursor.spaceCount (spaces k ++ (y.text ++ run'.unread)) = k := by
    have hy : (Expr.name y).Starts y.first := y.isAlpha
    exact spaceCount_append hy.ne_space _
  have hu := hpast.unread
  rw [List.append_assoc] at hu
  rw [← hu, Run.spaceCount_skipped hin] at hk
  subst hk
  have hu : run.skipped.unread = y.text ++ run'.unread := hu
  have hlen := identifierLength_text_append y hends
  rw [bindingAhead_apply hin.skipped, hu, hlen, List.drop_left] at hb
  simpa [Identifier.text] using hb

/-- Bindings and a body are read as a block. A name is taken for a binding wherever more than a
closing parenthesis follows, so a body that is a name stands right before one. -/
theorem block_accepts {operand : Scope → Eval Value} (hx : ∀ scope, Accepts limit (operand scope))
    {bound : Nat} {scope : Scope} (hin : run.Inside) (hbound : run.unread.length < bound)
    (h : (Form.bindings operand bound scope >>= operand) run = (.ok v, run')) :
    ∃ bs body, TakenBlock limit run run' bs body := by
  -- unlike for operands, the bound matters: only the look ahead tells a body from a binding
  induction bound generalizing run scope with
  | zero => exact absurd hbound (Nat.not_lt_zero _)
  | succ bound ih =>
    rw [Form.bindings, bind_assoc, bind_of_ok (skipSpaces_apply hin), bind_assoc] at h
    obtain ⟨b, run₁, hb, h⟩ := bind_eq_ok h
    have hrun₁ := bindingAhead_apply hin.skipped
    rw [hb] at hrun₁
    obtain ⟨-, rfl⟩ := Prod.mk.inj hrun₁
    cases b with
    | false =>
      obtain ⟨e, he⟩ := hx scope hin.skipped h
      have hname : ∀ y, e = .name y → run'.unread.head? = some ')' := by
        rintro y rfl
        exact he.head?_of_not_binding hin hb
      obtain ⟨k, t, hw, -, hroom, hpast⟩ := he.of_spaces (Run.past_skipped hin)
      exact ⟨[], e, _, .body k hw, by simp, hroom, hpast, hname⟩
    | true =>
      -- a name that is bound: its operand is read from behind it, in the scope so far
      rw [if_pos rfl, bind_assoc] at h
      obtain ⟨name, run₁, hname, h⟩ := bind_eq_ok h
      rw [bind_assoc] at h
      obtain ⟨w, run₂, hw, h⟩ := bind_eq_ok h
      obtain ⟨y, hstop, hy⟩ := readIdentifier_accepts hin.skipped hname
      obtain ⟨e, he⟩ := hx _ hy.inside hw
      have hpast := (Run.past_skipped hin).trans hy
      -- the name alone makes what is left shorter
      have hshorter : run₂.unread.length < bound := by
        have hletter : 0 < y.text.length := Nat.succ_pos _
        have hread := hpast.length_eq
        have hvalue := he.length_le
        rw [List.length_append] at hread
        omega
      obtain ⟨bs, body, hbs⟩ := ih he.inside hshorter h
      exact ⟨(y, e) :: bs, body, .bind hpast hstop he hbs⟩

theorem body_accepts {operand : Scope → Eval Value} (hx : ∀ scope, Accepts limit (operand scope))
    {scope : Scope} (hin : run.Inside) (h : Form.body operand scope run = (.ok v, run')) :
    ∃ bs body, TakenBlock limit run run' bs body := by
  rw [Form.body, bind_of_ok (note_eq_noted _ _), bind_of_ok (rounds_apply (hin.noted _))] at h
  obtain ⟨bs, body, t, ht, hrooms, hbody, hpast, hname⟩ :=
    block_accepts hx (hin.noted _) (Nat.lt_succ_self _) h
  exact ⟨bs, body, t, ht, hrooms, hbody,
    ⟨hpast.inside, hpast.source, hpast.depth, hpast.unread⟩, hname⟩

/-- There is room for a form a level above its operands. -/
theorem room_of_operands {es : List Expr} (h : ∀ e ∈ es, Room limit run e)
    (hone : ∀ d ∈ limit, run.depth ≤ d) :
    ∀ d ∈ limit, run.depth + (1 + Expr.heightAll es : Nat) ≤ d + 1 := by
  intro d hd
  induction es with
  | nil =>
    have := hone d hd
    simp only [Expr.heightAll]
    omega
  | cons e es ih =>
    have hrest := ih fun e' he' => h e' (List.mem_cons_of_mem _ he')
    have hfirst := h e (List.mem_cons_self ..) d hd
    rw [Expr.heightAll]
    omega

/-- There is room for a `let` a level above its bindings and its body. -/
theorem room_of_block {bs : List (Identifier × Expr)} {body : Expr}
    (h : ∀ b ∈ bs, Room limit run b.2) (hbody : Room limit run body) :
    ∀ d ∈ limit, run.depth + ((Expr.letIn bs body).height : Nat) ≤ d + 1 := by
  intro d hd
  have hb := hbody d hd
  induction bs with
  | nil =>
    simp only [Expr.height, Expr.heightBindings]
    omega
  | cons b bs ih =>
    have hrest := ih fun b' hb' => h b' (List.mem_cons_of_mem _ hb')
    have hfirst := h b (List.mem_cons_self ..) d hd
    simp only [Expr.height, Expr.heightBindings] at hrest ⊢
    omega

/-- Operands, and maybe spaces after them, are what is inside a form other than `let`. -/
theorem TakenAll.inner {form : Form} {es : List Expr} {j : Nat} (h : TakenAll limit run run₁ es)
    (hj : run₁.Past run' (spaces j)) (hone : ∀ d ∈ limit, run.depth ≤ d)
    (hlayout : ∀ {t}, OperandsLayout es t → InnerLayout form e t)
    (hheight : e.height = 1 + Expr.heightAll es) (hname : e.bodyIsName = false) :
    InnerTaken limit run run' form e := by
  obtain ⟨t, ht, hroom, hpast⟩ := h
  refine ⟨t, j, hlayout ht, ?_, hpast.trans hj, fun h => by rw [hname] at h; cases h⟩
  rw [hheight]
  exact room_of_operands hroom hone

/-- A form is evaluated with success only on what may be inside it: as many operands as it takes, or
bindings and a body, with room for all of them below the limit. -/
theorem eval_accepts {operand : Scope → Eval Value} (hx : ∀ scope, Accepts limit (operand scope))
    {scope : Scope} {form : Form} (hin : run.Inside) (hone : ∀ d ∈ limit, run.depth ≤ d)
    (h : form.eval operand scope run = (.ok v, run')) : ∃ e, InnerTaken limit run run' form e := by
  cases form with
  | add =>
    obtain ⟨es, run₁, j, hes, hj⟩ := total_accepts (hx scope) hin h
    exact ⟨.add es, hes.inner hj hone .add (by rw [Expr.height]) rfl⟩
  | mult =>
    obtain ⟨es, run₁, j, hes, hj⟩ := total_accepts (hx scope) hin h
    exact ⟨.mult es, hes.inner hj hone .mult (by rw [Expr.height]) rfl⟩
  | div =>
    obtain ⟨a, b, run₁, j, hab, hj⟩ := quotient_accepts (hx scope) hin h
    exact ⟨.div a b, hab.inner hj hone .div (by simp [Expr.height, Expr.heightAll]) rfl⟩
  | eq =>
    obtain ⟨a, b, hab⟩ := comparison_accepts (hx _) hin h
    exact ⟨.eq a b, hab.inner (j := 0) (.refl hab.inside) hone .eq
      (by simp [Expr.height, Expr.heightAll]) rfl⟩
  | letIn =>
    obtain ⟨bs, body, t, hbs, hrooms, hbody, hpast, hname⟩ := body_accepts hx hin h
    refine ⟨.letIn bs body, t, 0, .letIn hbs, room_of_block hrooms hbody, ?_, ?_⟩
    · rw [spaces_zero, List.append_nil]
      exact hpast
    · intro hbare
      cases body with
      | name y => exact ⟨rfl, hname y rfl⟩
      | _ => cases hbare
  | print =>
    obtain ⟨a, ha⟩ := display_accepts (hx scope) hin h
    exact ⟨.print a, ha.inner (j := 0) (.refl ha.inside) hone .print
      (by simp [Expr.height, Expr.heightAll]) rfl⟩

/-! ### Expressions -/

/-- What is left to do after the operands of a form is to read its closing parenthesis. -/
theorem InnerTaken.close {form : Form} {w : Value} (h : InnerTaken limit run run₁ form e)
    (hw : form.close w run₁ = (.ok v, run')) :
    ∃ t j, InnerLayout form e t ∧ (e.bodyIsName = true → j = 0) ∧
      (∀ d ∈ limit, run.depth + e.height ≤ d + 1) ∧ run.Past run' (t ++ (spaces j ++ [')'])) := by
  obtain ⟨t, j, hlayout, hroom, hpast, hname⟩ := h
  rw [Form.close_apply hpast.inside] at hw
  by_cases hc : run₁.skipped.unread.head? = some ')'
  · rw [if_pos hc] at hw
    obtain ⟨-, rfl⟩ := Prod.mk.inj hw
    obtain ⟨more, hmore⟩ : ∃ more, run₁.skipped.unread = [')'] ++ more :=
      List.head?_eq_some_iff.mp hc
    have hclose := Run.past_moved hpast.inside.skipped hmore
    have hall := (hpast.trans (Run.past_skipped hpast.inside)).trans hclose
    rw [List.append_assoc, List.append_assoc, ← List.append_assoc (spaces j), spaces_append] at hall
    refine ⟨t, _, hlayout, ?_, hroom, hall.noted _⟩
    -- a body that is a name has the parenthesis right behind it, so no spaces were skipped
    intro hbare
    obtain ⟨rfl, hhead⟩ := hname hbare
    rw [Cursor.spaceCount_eq_zero hhead (by decide)]
  · rw [if_neg hc] at hw
    cases hw

/-- Past an opening parenthesis, evaluation succeeds only on a head and what belongs to its form. -/
theorem formAhead_accepts {operand : Scope → Eval Value}
    (hx : ∀ scope, Accepts limit (operand scope)) {scope : Scope} (hin : run.Inside)
    (hone : ∀ d ∈ limit, run.depth ≤ d) (h : formAhead operand scope run = (.ok v, run')) :
    ∃ (e : Expr) (t : List Char), Written e ('(' :: t) ∧
      (∀ d ∈ limit, run.depth + e.height ≤ d + 1) ∧ e.Starts '(' ∧ run.Past run' t := by
  rw [formAhead_apply hin] at h
  rcases hf : Form.ahead? run.unread with _ | form
  · rw [hf] at h
    cases h
  · rw [hf] at h
    obtain ⟨w, run₁, hw, h⟩ := bind_eq_ok h
    obtain ⟨more, hmore⟩ := Form.ahead?_eq_some_iff.mp hf
    have hin' := hin.opened (Form.ahead?_eq_some_iff.mp hf)
    obtain ⟨e, he⟩ := eval_accepts hx hin' hone hw
    obtain ⟨t, j, hlayout, hname, hroom, hpast⟩ := he.close h
    have hhead : run.Past (run.opened form) form.head.toList :=
      (Run.past_moved hin hmore.symm).noted _
    exact ⟨e, _, .form j hlayout hname, hroom, hlayout.starts, hhead.trans hpast⟩

/-- The expression ahead is accepted if it is a number, a name or a form. -/
theorem expressionAhead_accepts {operand : Scope → Eval Value}
    (hx : ∀ scope, Accepts limit (operand scope)) {scope : Scope} (hin : run.Inside)
    (hone : ∀ d ∈ limit, run.depth ≤ d) (h : expressionAhead operand scope run = (.ok v, run')) :
    ∃ e k t, Written e t ∧ e.EndsBefore run'.unread ∧
      (∀ d ∈ limit, run.depth + e.height ≤ d + 1) ∧ run.Past run' (spaces k ++ t) := by
  -- one level is room enough for a token
  have htoken : ∀ d ∈ limit, run.depth + ((1 : Nat) : Int) ≤ d + 1 := by
    intro d hd
    have := hone d hd
    omega
  have hskip := Run.past_skipped hin
  rw [expressionAhead_apply hin] at h
  rcases hc : run.skipped.unread.head? with _ | c
  · rw [hc] at h
    cases h
  · rw [hc] at h
    simp only at h
    split at h
    · rename_i hopen
      subst hopen
      obtain ⟨more, hmore⟩ : ∃ more, run.skipped.unread = ['('] ++ more :=
        List.head?_eq_some_iff.mp hc
      have hmoved := Run.past_moved hin.skipped hmore
      obtain ⟨e, t, hw, hroom, hstarts, hpast⟩ := formAhead_accepts hx hmoved.inside hone h
      exact ⟨e, _, _, hw, hstarts.endsBefore _, hroom, hskip.trans (hmoved.trans hpast)⟩
    · split at h
      · obtain ⟨y, run₁, hy, h⟩ := bind_eq_ok h
        obtain ⟨-, rfl⟩ := Prod.mk.inj h
        obtain ⟨n, hstop, hpast⟩ := readNumber_accepts hin.skipped hy
        exact ⟨.number n, _, _, .number n, hstop, htoken, hskip.trans hpast⟩
      · split at h
        · obtain ⟨name, run₁, hname, h⟩ := bind_eq_ok h
          rw [ofExcept_apply] at h
          obtain ⟨-, rfl⟩ := Prod.mk.inj h
          obtain ⟨y, hstop, hpast⟩ := readIdentifier_accepts hin.skipped hname
          exact ⟨.name y, _, _, .name y, hstop, htoken, hskip.trans hpast⟩
        · cases h

/-- Entering a level and leaving it again reads nothing, so a level accepts what lies ahead. -/
theorem Accepts.nested {ahead : Eval Value}
    (h : ∀ {run run' : Run} {v : Value}, run.Inside → (∀ d ∈ limit, run.depth ≤ d) →
      ahead run = (.ok v, run') →
      ∃ e k t, Written e t ∧ e.EndsBefore run'.unread ∧
        (∀ d ∈ limit, run.depth + e.height ≤ d + 1) ∧ run.Past run' (spaces k ++ t)) :
    Accepts limit (nested limit ahead) := by
  intro run run' v hin hrun
  obtain ⟨hle, run₁, hout, rfl⟩ := nested_eq_ok hrun
  obtain ⟨e, k, t, hw, hends, hroom, hpast⟩ := @h run.deeper _ _ hin hle hout
  have hdepth : run.deeper.depth = run.depth + 1 := rfl
  refine ⟨e, k, t, hw, hends, ?_, ⟨hpast.inside, hpast.source, ?_, hpast.unread⟩⟩
  · intro d hd
    have := hroom d hd
    omega
  · have := hpast.depth
    change run₁.depth - 1 = run.depth
    omega

/-- With any number of levels, evaluation accepts layouts only. -/
theorem expressionWithin_accepts (n : Nat) (scope : Scope) :
    Accepts limit (expressionWithin limit n scope) := by
  induction n generalizing scope with
  | zero => exact Accepts.nested fun _ _ h => by cases h
  | succ n ih => exact Accepts.nested fun hin hone h => expressionAhead_accepts ih hin hone h

/-! ### The theorems -/

/-- Evaluation succeeds exactly on the layouts of those expressions that mean a value and for which
there is room, and the value is the one that they mean. -/
theorem expression_eq_ok_iff {scope : Scope} {rest : List Char} (hin : run.Inside) :
    (∃ run', Eval.expression limit scope run = (.ok v, run') ∧ run'.unread = rest) ↔
      ∃ e t, Layout e t ∧ run.unread = t ++ rest ∧ e.EndsBefore rest ∧ Room limit run e ∧
        (e.meaning scope).result = .ok v := by
  constructor
  · rintro ⟨run', h, rfl⟩
    obtain ⟨e, k, t, hw, hends, hroom, hpast⟩ := expressionWithin_accepts _ scope hin h
    have hlayout : Layout e (spaces k ++ t) := ⟨k, t, hw, rfl⟩
    have hagrees := hlayout.agrees scope hin hpast.unread hends hroom
    rw [h] at hagrees
    exact ⟨e, _, hlayout, hpast.unread, hends, hroom, hagrees.result.symm⟩
  · rintro ⟨e, t, hlayout, hu, hends, hroom, hv⟩
    have hagrees := hlayout.agrees scope hin hu hends hroom
    have hresult := hagrees.result.trans hv
    exact ⟨_, Prod.ext hresult rfl, (hagrees.stops v hresult).2⟩

/-- Where the evaluation of an expression succeeds, started anywhere in a text, in any scope and
with any limit, it has read a layout of an expression, of which no token goes on into the unread
text; and there is only one such expression. -/
theorem layout_of_expression_eq_ok {scope : Scope} (hin : run.Inside)
    (h : Eval.expression limit scope run = (.ok v, run')) :
    run'.cursor.source = run.cursor.source ∧ run.cursor.pos ≤ run'.cursor.pos ∧
      run'.cursor.pos ≤ run'.cursor.size ∧
      ∃ e, Layout e (run.cursor.slice run.cursor.pos run'.cursor.pos) ∧
        e.EndsBefore (run.cursor.source.drop run'.cursor.pos.toNat) ∧
        ∀ e', Layout e' (run.cursor.slice run.cursor.pos run'.cursor.pos) → e' = e := by
  obtain ⟨e, k, t, hw, hends, -, hpast⟩ := expressionWithin_accepts _ scope hin h
  have hpos := hpast.pos_eq hin
  have hslice : run.cursor.slice run.cursor.pos run'.cursor.pos = spaces k ++ t :=
    hpast.slice_eq hin
  have hrest : run.cursor.source.drop run'.cursor.pos.toNat = run'.unread := by
    rw [← hpast.source, Run.unread, Cursor.rest, Cursor.index_of_nonneg _ hpast.inside.1]
  rw [hslice, hrest]
  have hlayout : Layout e (spaces k ++ t) := ⟨k, t, hw, rfl⟩
  exact ⟨hpast.source, by omega, hpast.inside.2, e, hlayout, hends,
    fun e' he' => he'.unique hlayout⟩

/-- A cursor before a sum that stands inside another form. -/
def sumRun : Run := { cursor := { source := "(mult  (add 1-2x )3)".toList, pos := 5 } }

/-- The scope of the sum. -/
def sumScope : Scope := { own := ⟨[("x", .number (.ofInt 7))]⟩ }

/-- Only the sum is read, up to its own closing parenthesis. -/
theorem layout_of_expression_eq_ok_sum :
    Eval.expression (some 2) sumScope sumRun =
        (.ok (.number (.ofInt 6)), (Eval.expression (some 2) sumScope sumRun).2) ∧
      ∃ e, Layout e "  (add 1-2x )".toList ∧ e.EndsBefore "3)".toList ∧
        ∀ e', Layout e' "  (add 1-2x )".toList → e' = e := by
  have hin : sumRun.Inside := ⟨by decide, by decide⟩
  have h : Eval.expression (some 2) sumScope sumRun =
      (.ok (.number (.ofInt 6)), (Eval.expression (some 2) sumScope sumRun).2) := by
    decide +kernel
  have hslice : sumRun.cursor.slice sumRun.cursor.pos
      (Eval.expression (some 2) sumScope sumRun).2.cursor.pos = "  (add 1-2x )".toList := by
    decide +kernel
  have hdrop : sumRun.cursor.source.drop
      (Eval.expression (some 2) sumScope sumRun).2.cursor.pos.toNat = "3)".toList := by
    decide +kernel
  have hlayout := (layout_of_expression_eq_ok hin h).2.2.2
  rw [hslice, hdrop] at hlayout
  exact ⟨h, hlayout⟩

end SExprCalc
