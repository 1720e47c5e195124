import SExprCalc.Proofs.Traversal

/-!
# Readers at a cursor anywhere

The cursor of a run can be moved by hand, also before the text or beyond it, so not every property
of evaluation may suppose that it is inside. What holds of readers anywhere is `Eval.Reading`: they
look at nothing but the cursor, never move it back, and do not fail for depth.
-/

namespace SExprCalc

open Eval

/-! ### Cursors anywhere -/

namespace Cursor

variable {c c' : Cursor} {fault : Fault} {α : Type}

/-- Further on in the same text there is no more to read. -/
theorem remaining_le_of_pos_le (hsource : c'.source = c.source) (hpos : c.pos ≤ c'.pos) :
    c'.remaining ≤ c.remaining := by
  rw [remaining, remaining, size, size, hsource]
  omega

/-- A look ahead fails for the position only. -/
theorem family_of_ahead {i : Int} (h : c.ahead i = .error fault) : fault.family = .position := by
  rw [ahead] at h
  split at h
  · cases h
  · split at h <;> cases h <;> rfl

/-- Where a character lies ahead, the end of the text is not reached. -/
theorem pos_lt_of_peek {x : Char} (h : c.peek = .ok (some x)) : c.pos < c.size := by
  by_cases hpos : 0 ≤ c.pos
  · rw [peek_of_nonneg c hpos, rest, index_of_nonneg c hpos] at h
    have hlt : c.pos.toNat < c.source.length := by
      refine Nat.lt_of_not_le fun hle => ?_
      rw [List.drop_eq_nil_of_le hle] at h
      cases h
    rw [size]
    omega
  · omega

theorem family_of_peek (h : c.peek = .error fault) : fault.family = .position := by
  rw [peek] at h
  rcases ha : c.ahead c.pos with f | text <;> rw [ha] at h <;> cases h
  exact family_of_ahead ha

theorem family_of_identifierEnd (h : c.identifierEnd = .error fault) :
    fault.family = .position := by
  rw [identifierEnd] at h
  rcases ha : c.ahead c.pos with f | text <;> rw [ha] at h <;> cases h
  exact family_of_ahead ha

/-- An identifier does not end before the place where it is looked for. -/
theorem pos_le_of_identifierEnd {stop : Int} (h : c.identifierEnd = .ok stop) : c.pos ≤ stop := by
  rw [identifierEnd] at h
  rcases ha : c.ahead c.pos with f | text <;> rw [ha] at h <;> cases h
  omega

end Cursor

/-! ### Computations with the cursor alone -/

namespace Eval

variable {α β : Type}

/-- A computation that looks at the cursor alone, does not move it back and changes nothing else. If
it fails, then not for depth. -/
def Reading (x : Eval α) : Prop :=
  ∀ c : Cursor, ∃ (result : Except Fault α) (c' : Cursor), c'.remaining ≤ c.remaining ∧
    (∀ fault, result = .error fault → fault.family ≠ .depth) ∧
    ∀ run : Run, run.cursor = c → x run = (result, { run with cursor := c' })

theorem reading_ofExcept {x : Except Fault α}
    (h : ∀ fault, x = .error fault → fault.family ≠ .depth) : Reading (ofExcept x) := by
  intro c
  refine ⟨x, c, Nat.le_refl _, h, ?_⟩
  rintro run rfl
  exact ofExcept_apply x run

theorem reading_pure (a : α) : Reading (pure a : Eval α) :=
  reading_ofExcept (x := .ok a) fun _ h => by cases h

/-- Two computations that only read, one after the other, only read. -/
theorem Reading.bind {x : Eval α} {f : α → Eval β} (hx : Reading x) (hf : ∀ a, Reading (f a)) :
    Reading (x >>= f) := by
  intro c
  obtain ⟨result, c₁, hle₁, hresult, hrun⟩ := hx c
  cases result with
  | error fault =>
    refine ⟨.error fault, c₁, hle₁, ?_, fun run hc => bind_of_error (hrun run hc)⟩
    rintro _ ⟨⟩
    exact hresult fault rfl
  | ok a =>
    obtain ⟨result, c₂, hle₂, hresult₂, hrun₂⟩ := hf a c₁
    refine ⟨result, c₂, Nat.le_trans hle₂ hle₁, hresult₂, ?_⟩
    intro run hc
    rw [bind_of_ok (hrun run hc), hrun₂ _ rfl]

theorem reading_lookAhead {f : Cursor → Except Fault α}
    (h : ∀ c fault, f c = .error fault → fault.family ≠ .depth) : Reading (lookAhead f) := by
  intro c
  refine ⟨f c, c, Nat.le_refl _, h c, ?_⟩
  rintro run rfl
  rfl

theorem reading_look (f : Cursor → α) : Reading (look f) :=
  reading_lookAhead (f := fun c => .ok (f c)) fun _ _ h => by cases h

/-- Reading a token only reads, if the token does not end before it starts. -/
theorem reading_read {f : Cursor → Except Fault (α × Cursor)}
    (hok : ∀ c a c', f c = .ok (a, c') → c'.remaining ≤ c.remaining)
    (herror : ∀ c fault, f c = .error fault → fault.family ≠ .depth) : Reading (read f) := by
  intro c
  rcases h : f c with fault | ⟨a, c'⟩
  · refine ⟨.error fault, c, Nat.le_refl _, ?_, ?_⟩
    · rintro _ ⟨⟩
      exact herror c fault h
    · rintro run rfl
      exact read_of_error h
  · refine ⟨.ok a, c', hok c a c' h, nofun, ?_⟩
    rintro run rfl
    exact read_of_ok h

theorem reading_move {f : Cursor → Except Fault Cursor}
    (hok : ∀ c c', f c = .ok c' → c'.remaining ≤ c.remaining)
    (herror : ∀ c fault, f c = .error fault → fault.family ≠ .depth) : Reading (move f) := by
  intro c
  rcases h : f c with fault | c'
  · refine ⟨.error fault, c, Nat.le_refl _, ?_, ?_⟩
    · rintro _ ⟨⟩
      exact herror c fault h
    · rintro run rfl
      simp [move, h]
  · refine ⟨.ok (), c', hok c c' h, nofun, ?_⟩
    rintro run rfl
    simp [move, h]

/-- A fault about the position is none about depth. -/
theorem family_ne_depth_of_position {fault : Fault} (h : fault.family = .position) :
    fault.family ≠ .depth := by
  rw [h]
  decide

theorem reading_peek : Reading peek :=
  reading_lookAhead fun _ _ h => family_ne_depth_of_position (Cursor.family_of_peek h)

theorem reading_skipSpaces : Reading skipSpaces := by
  refine reading_move ?_ ?_
  · intro c c' h
    rw [Cursor.skipSpaces] at h
    rcases ha : c.ahead c.pos with f | text <;> rw [ha] at h <;> cases h
    exact Cursor.remaining_le_of_pos_le rfl (by dsimp only; omega)
  · intro c fault h
    rw [Cursor.skipSpaces] at h
    rcases ha : c.ahead c.pos with f | text <;> rw [ha] at h <;> cases h
    exact family_ne_depth_of_position (Cursor.family_of_ahead ha)

theorem reading_advance (n : Nat) : Reading (advance n) := by
  refine reading_move ?_ nofun
  rintro c _ ⟨⟩
  simp only [Cursor.remaining, Cursor.advance, Cursor.size]
  omega

/-- Expecting a token passes it, or else fails for the token and not for depth. -/
theorem reading_expect (token : String) : Reading (expect token) := by
  refine reading_move ?_ ?_
  · intro c c' h
    rw [Cursor.expect] at h
    rcases hp : c.peek with f | next <;> rw [hp] at h
    · cases h
    · simp only [bind, Except.bind] at h
      split at h <;> cases h
      exact Cursor.remaining_le_of_pos_le rfl (by dsimp only; omega)
  · intro c fault h
    rw [Cursor.expect] at h
    rcases hp : c.peek with f | next <;> rw [hp] at h
    · cases h
      exact family_ne_depth_of_position (Cursor.family_of_peek hp)
    · simp only [bind, Except.bind] at h
      split at h <;> cases h
      simp [Fault.family]

/-- An identifier ends at or behind its start. None of the ways to miss one has to do with depth. -/
theorem reading_readIdentifier : Reading readIdentifier := by
  refine reading_read ?_ ?_
  · intro c name c' h
    rw [Cursor.readIdentifier] at h
    rcases hs : c.identifierEnd with f | stop <;> rw [hs] at h
    · cases h
    · simp only [bind, Except.bind] at h
      split at h <;> cases h
      exact Cursor.remaining_le_of_pos_le rfl (Cursor.pos_le_of_identifierEnd hs)
  · intro c fault h
    rw [Cursor.readIdentifier] at h
    rcases hs : c.identifierEnd with f | stop <;> rw [hs] at h
    · cases h
      exact family_ne_depth_of_position (Cursor.family_of_identifierEnd hs)
    · simp only [bind, Except.bind] at h
      split at h <;> cases h
      simp [Fault.family]

/-- A number is passed with its sign and digits. That it is out of range is found before the cursor
has moved. -/
theorem reading_readNumber : Reading readNumber := by
  refine reading_read ?_ ?_
  · intro c x c' h
    rw [Cursor.readNumber] at h
    rcases ha : c.ahead c.pos with f | text <;> rw [ha] at h
    · cases h
    · simp only [bind, Except.bind] at h
      split at h
      · cases h
      · split at h <;> cases h
        refine Cursor.remaining_le_of_pos_le rfl ?_
        dsimp only
        split <;> omega
  · intro c fault h
    rw [Cursor.readNumber] at h
    rcases ha : c.ahead c.pos with f | text <;> rw [ha] at h
    · cases h
      exact family_ne_depth_of_position (Cursor.family_of_ahead ha)
    · simp only [bind, Except.bind] at h
      split at h
      · cases h
        simp [Fault.family]
      · split at h <;> cases h
        simp [Fault.family]

theorem reading_bindingAhead : Reading (lookAhead Form.bindingAhead) := by
  refine reading_lookAhead ?_
  intro c fault h
  rw [Form.bindingAhead] at h
  rcases hs : c.identifierEnd with f | stop <;> rw [hs] at h <;> cases h
  exact family_ne_depth_of_position (Cursor.family_of_identifierEnd hs)

theorem reading_nextChar : Reading Form.nextChar := reading_skipSpaces.bind fun _ => reading_peek

/-- The name of a binding is looked for and read without any evaluation, so this only reads,
although it may skip spaces and find no name. -/
theorem reading_bindingName : Reading Form.bindingName? := by
  refine reading_skipSpaces.bind fun _ => reading_bindingAhead.bind fun more => ?_
  split
  · exact reading_readIdentifier.bind fun _ => reading_pure _
  · exact reading_pure none

end Eval

end SExprCalc
