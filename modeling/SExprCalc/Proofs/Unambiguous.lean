import SExprCalc.Proofs.Layout

/-!
# A text is a layout of at most one expression

Nothing separates the expressions of a text but the rule that a token does not go on into what
follows it. That rule is enough: if two expressions are written at the start of one text, and each
ends before what follows it, they are the same expression and the same text follows
(`Written.unique`). The first character tells whether it is a number, a name or a form; the longest
run of characters ends a token; and at most one head starts a text, so a form needs no separator
after its head.
-/

namespace SExprCalc

/-! ### Tokens -/

/-- Two numbers at the start of one text are the same. -/
theorem Numeral.text_append_inj {m n : Numeral} {u v : List Char} (h : m.text ++ u = n.text ++ v)
    (hu : StopsAt Char.isDigit u) (hv : StopsAt Char.isDigit v) : m = n ∧ u = v := by
  have hsplit := congrArg Literal.split h
  rw [split_text_append, split_text_append] at hsplit
  obtain ⟨hsign, hrest⟩ := Prod.mk.inj hsplit
  have hdigits : m.digits = n.digits := by
    rw [← takeWhile_append_eq m.isDigit hu, hrest, takeWhile_append_eq n.isDigit hv]
  refine ⟨?_, ?_⟩
  · cases m; cases n
    cases hsign; cases hdigits
    rfl
  · rw [hdigits] at hrest
    exact List.append_cancel_left hrest

/-- The characters of an identifier are letters and digits. -/
theorem Identifier.isAlphanum_text (x : Identifier) : ∀ c ∈ x.text, c.isAlphanum = true := by
  intro c hc
  rcases List.mem_cons.mp hc with rfl | hc
  · exact isAlphanum_of_isAlpha x.isAlpha
  · exact x.isAlphanum c hc

/-- Two identifiers at the start of one text are the same. -/
theorem Identifier.text_append_inj {x y : Identifier} {u v : List Char}
    (h : x.text ++ u = y.text ++ v) (hu : StopsAt Char.isAlphanum u)
    (hv : StopsAt Char.isAlphanum v) : x = y ∧ u = v := by
  have htext : x.text = y.text := by
    rw [← takeWhile_append_eq x.isAlphanum_text hu, h, takeWhile_append_eq y.isAlphanum_text hv]
  rw [htext] at h
  exact ⟨Identifier.eq_of_text_eq htext, List.append_cancel_left h⟩

/-- What comes after the spaces of a text is determined by the text. -/
theorem spaces_append_inj {k l : Nat} {c d : Char} {u v : List Char} (hc : c ≠ ' ') (hd : d ≠ ' ')
    (h : spaces k ++ c :: u = spaces l ++ d :: v) : c = d ∧ u = v := by
  have hcount := congrArg Cursor.spaceCount h
  rw [spaceCount_append hc, spaceCount_append hd] at hcount
  rw [hcount] at h
  exact List.cons.inj (List.append_cancel_left h)

/-! ### Expressions at the start of a text -/

variable {e e' : Expr} {t t' u u' : List Char}

/-- Two expressions at the start of one text start with the same character. -/
theorem Written.starts_both (h : Written e t) (h' : Written e' t') (heq : t ++ u = t' ++ u') :
    ∃ c, e.Starts c ∧ e'.Starts c := by
  obtain ⟨c, more, rfl, hc⟩ := h.exists_first
  obtain ⟨c', more', rfl, hc'⟩ := h'.exists_first
  obtain ⟨rfl, -⟩ := List.cons.inj heq
  exact ⟨c, hc, hc'⟩

/-- What is written where a number is written is that number. -/
theorem Written.eq_number (h : Written e t) {n : Numeral} (heq : t ++ u = n.text ++ u')
    (hu : e.EndsBefore u) (hu' : StopsAt Char.isDigit u') : e = .number n ∧ u = u' := by
  obtain ⟨c, hc, hn⟩ := h.starts_both (.number n) heq
  cases h with
  | number m =>
    obtain ⟨rfl, rfl⟩ := Numeral.text_append_inj heq hu hu'
    exact ⟨rfl, rfl⟩
  | name x => exact absurd hc (by simp [Expr.Starts, isAlpha_of_numeral hn])
  | form j inner _ =>
    obtain rfl := inner.starts.eq_open hc
    exact absurd hn (Expr.not_starts_open_number n)

/-- What is written where an identifier is written is that name. -/
theorem Written.eq_name (h : Written e t) {x : Identifier} (heq : t ++ u = x.text ++ u')
    (hu : e.EndsBefore u) (hu' : StopsAt Char.isAlphanum u') : e = .name x ∧ u = u' := by
  obtain ⟨c, hc, hx⟩ := h.starts_both (.name x) heq
  cases h with
  | number m => exact absurd hx (by simp [Expr.Starts, isAlpha_of_numeral hc])
  | name y =>
    obtain ⟨rfl, rfl⟩ := Identifier.text_append_inj heq hu hu'
    exact ⟨rfl, rfl⟩
  | form j inner _ =>
    obtain rfl := inner.starts.eq_open hc
    exact absurd hx (Expr.not_starts_open_name x)

/-- An identifier ends before the spaces and the expression that follow it in a binding, whatever
comes behind them. -/
theorem Written.nameEnds_append (h : Written e t) {i : Nat}
    (hx : StopsAt Char.isAlphanum (spaces i ++ t)) (rest : List Char) :
    StopsAt Char.isAlphanum (spaces i ++ (t ++ rest)) := by
  obtain ⟨c, more, rfl, -⟩ := h.exists_first
  rw [← List.append_assoc]
  exact hx.append (by simp) rest

/-- A body is not written where a binding is: it would be the name of the binding, and no closing
parenthesis follows that. -/
theorem Written.not_binding (h : Written e t) {x : Identifier} {i j : Nat} {v : Expr}
    {s rest after : List Char} (hv : Written v s) (hx : StopsAt Char.isAlphanum (spaces i ++ s))
    (heq : t ++ (spaces j ++ ')' :: after) = x.text ++ (spaces i ++ (s ++ rest))) : False := by
  obtain ⟨-, hrest⟩ := h.eq_name heq (e.endsBefore_close j after) (hv.nameEnds_append hx rest)
  obtain ⟨c, more, rfl, hc⟩ := hv.exists_first
  obtain ⟨hclose, -⟩ := spaces_append_inj (by decide) hc.ne_space hrest
  exact hc.ne_close hclose.symm

/-! ### The induction on the layout -/

/-- The closing parenthesis of a form is the first character after some spaces, so it is the same
for two ways of reading one text. -/
theorem close_inj {j j' : Nat} (h : spaces j ++ ')' :: u = spaces j' ++ ')' :: u') : u = u' :=
  (spaces_append_inj (by decide) (by decide) h).2

/-- No expression is written where a form is closed. -/
theorem Written.ne_close (h : Written e t) (k : Nat) {j : Nat} (rest : List Char) :
    spaces k ++ (t ++ u) ++ rest ≠ spaces j ++ ')' :: u' := by
  intro heq
  obtain ⟨c, more, rfl, hc⟩ := h.exists_first
  simp only [List.append_assoc, List.cons_append] at heq
  exact hc.ne_close (spaces_append_inj hc.ne_space (by decide) heq).1

/-- Past any spaces, two expressions are written at the start of one text. -/
theorem Written.spaces_inj (h : Written e t) (h' : Written e' t') {k k' : Nat}
    (heq : spaces k ++ (t ++ u) = spaces k' ++ (t' ++ u')) : t ++ u = t' ++ u' := by
  obtain ⟨c, more, rfl, hc⟩ := h.exists_first
  obtain ⟨c', more', rfl, hc'⟩ := h'.exists_first
  obtain ⟨rfl, hmore⟩ := spaces_append_inj hc.ne_space hc'.ne_space heq
  exact congrArg _ hmore

mutual

/-- Two expressions that are written at the start of one text, each ending before what follows it,
are the same, and the same text follows them. -/
theorem Written.unique {e : Expr} {t : List Char} : Written e t →
    ∀ {e' : Expr} {t' u u' : List Char}, Written e' t' → t ++ u = t' ++ u' → e.EndsBefore u →
      e'.EndsBefore u' → e = e' ∧ u = u'
  | .number n, e', t', u, u', h', heq, hu, hu' => by
    obtain ⟨rfl, rfl⟩ := h'.eq_number heq.symm hu' hu
    exact ⟨rfl, rfl⟩
  | .name x, e', t', u, u', h', heq, hu, hu' => by
    obtain ⟨rfl, rfl⟩ := h'.eq_name heq.symm hu' hu
    exact ⟨rfl, rfl⟩
  | @Written.form j f e t inner close, e', t', u, u', h', heq, hu, hu' => by
    cases h' with
    -- a token starts differently, which `eq_number` and `eq_name` have shown already
    | number n => exact (Written.form j inner close).eq_number heq hu hu'
    | name x => exact (Written.form j inner close).eq_name heq hu hu'
    | @form j' f' e' t' inner' _ =>
      simp only [List.cons_append, List.append_assoc] at heq
      obtain ⟨-, heq⟩ := List.cons.inj heq
      -- the heads of both forms start the same text, so they are one head
      obtain rfl : f = f' := Form.eq_of_both_heads ⟨_, rfl⟩ ⟨_, heq.symm⟩
      exact inner.unique inner' (List.append_cancel_left heq)
termination_by structural h => h

theorem InnerLayout.unique {f : Form} {e : Expr} {t : List Char} : InnerLayout f e t →
    ∀ {e' : Expr} {t' u u' : List Char} {j j' : Nat}, InnerLayout f e' t' →
      t ++ (spaces j ++ ')' :: u) = t' ++ (spaces j' ++ ')' :: u') → e = e' ∧ u = u'
  | .add h, e', t', u, u', j, j', h', heq => by
    cases h' with
    | add h' =>
      obtain ⟨rfl, rfl⟩ := h.unique h' heq
      exact ⟨rfl, rfl⟩
  | .mult h, e', t', u, u', j, j', h', heq => by
    cases h' with
    | mult h' =>
      obtain ⟨rfl, rfl⟩ := h.unique h' heq
      exact ⟨rfl, rfl⟩
  | .div h, e', t', u, u', j, j', h', heq => by
    cases h' with
    | div h' =>
      obtain ⟨hab, rfl⟩ := h.unique h' heq
      cases hab
      exact ⟨rfl, rfl⟩
  | .eq h, e', t', u, u', j, j', h', heq => by
    cases h' with
    | eq h' =>
      obtain ⟨hab, rfl⟩ := h.unique h' heq
      cases hab
      exact ⟨rfl, rfl⟩
  | .letIn h, e', t', u, u', j, j', h', heq => by
    cases h' with
    | letIn h' =>
      obtain ⟨rfl, rfl, rfl⟩ := h.unique h' heq
      exact ⟨rfl, rfl⟩
  | .print h, e', t', u, u', j, j', h', heq => by
    cases h' with
    | print h' =>
      obtain ⟨ha, rfl⟩ := h.unique h' heq
      cases ha
      exact ⟨rfl, rfl⟩
termination_by structural h => h

theorem OperandsLayout.unique {es : List Expr} {t : List Char} : OperandsLayout es t →
    ∀ {es' : List Expr} {t' u u' : List Char} {j j' : Nat}, OperandsLayout es' t' →
      t ++ (spaces j ++ ')' :: u) = t' ++ (spaces j' ++ ')' :: u') → es = es' ∧ u = u'
  | .nil, es', t', u, u', j, j', h', heq => by
    cases h' with
    | nil => exact ⟨rfl, close_inj heq⟩
    | cons k' first' _ _ => exact absurd heq.symm (first'.ne_close k' _)
  | .cons k first ends others, es', t', u, u', j, j', h', heq => by
    cases h' with
    | nil => exact absurd heq (first.ne_close k _)
    | cons k' first' ends' others' =>
      simp only [List.append_assoc] at heq
      obtain ⟨rfl, hrest⟩ := first.unique first' (first.spaces_inj first' heq)
        (ends.append_close _ _) (ends'.append_close _ _)
      obtain ⟨rfl, rfl⟩ := others.unique others' hrest
      exact ⟨rfl, rfl⟩
termination_by structural h => h

theorem BlockLayout.unique {bs : List (Identifier × Expr)} {body : Expr} {t : List Char} :
    BlockLayout bs body t →
    ∀ {bs' : List (Identifier × Expr)} {body' : Expr} {t' u u' : List Char} {j j' : Nat},
      BlockLayout bs' body' t' → t ++ (spaces j ++ ')' :: u) = t' ++ (spaces j' ++ ')' :: u') →
      bs = bs' ∧ body = body' ∧ u = u'
  | .body k written, bs', body', t', u, u', j, j', h', heq => by
    cases h' with
    | body k' written' =>
      simp only [List.append_assoc] at heq
      obtain ⟨rfl, hrest⟩ := written.unique written' (written.spaces_inj written' heq)
        (Expr.endsBefore_close _ _ _) (Expr.endsBefore_close _ _ _)
      exact ⟨rfl, rfl, close_inj hrest⟩
    | @bind k' i' x' e' bs' body' t' u' nameEnds' value' _ _ =>
      -- one is a body where the other has a binding
      simp only [List.append_assoc] at heq
      exact (written.not_binding value' nameEnds'
        (written.spaces_inj (.name x') heq)).elim
  | @BlockLayout.bind k i x e bs body t u₁ nameEnds value ends others, bs', body', t', u, u', j,
      j', h', heq => by
    cases h' with
    | body k' written' =>
      simp only [List.append_assoc] at heq
      exact (written'.not_binding value nameEnds (written'.spaces_inj (.name x) heq.symm)).elim
    | @bind k' i' x' e' bs' body' t' u₁' nameEnds' value' ends' others' =>
      simp only [List.append_assoc] at heq
      have hname := Written.spaces_inj (.name x) (.name x') heq
      obtain ⟨rfl, hvalue⟩ := Identifier.text_append_inj hname (value.nameEnds_append nameEnds _)
        (value'.nameEnds_append nameEnds' _)
      obtain ⟨rfl, hrest⟩ := value.unique value' (value.spaces_inj value' hvalue)
        (ends.append_close _ _) (ends'.append_close _ _)
      obtain ⟨rfl, rfl, rfl⟩ := others.unique others' hrest
      exact ⟨rfl, rfl, rfl⟩
termination_by structural h => h

end

/-- A text is a layout of at most one expression. -/
theorem Layout.unique (h : Layout e t) (h' : Layout e' t) : e = e' := by
  obtain ⟨k, u, hw, rfl⟩ := h
  obtain ⟨k', u', hw', heq⟩ := h'
  rw [← List.append_nil u, ← List.append_nil u'] at heq
  exact (hw.unique hw' (hw.spaces_inj hw' heq) (Expr.endsBefore_nil _) (Expr.endsBefore_nil _)).1

end SExprCalc
