import Asm65.Operand.Reader
import Asm65.Proofs.Alignment.OperandExpr

/-!
# Operand lists at aligned cursors

The operands read at aligned cursors agree, and reading stops at the end of
the statement.
-/

namespace Asm65.Operand

variable {a : Alignment}

theorem verbatim_agree {place : Placement} {token token' : Token} (h : token.Agree place token') :
    (verbatim token).Agree place (verbatim token') := by
  unfold verbatim
  rw [h.kind]
  exact .token _ h.span

theorem respects_readImmediate : a.Respects (Agree a.place) readImmediate readImmediate := by
  intro cursor cursor' aligned
  have results := OperandExpr.respects_read aligned
  unfold readImmediate
  revert results
  generalize here : OperandExpr.read cursor = result, there : OperandExpr.read cursor' = result'
  rintro (⟨rfl, now⟩ | ⟨h, now⟩)
  · have later := (OperandExpr.passes_read.of_ok here).mono (Nat.zero_le 1)
    have later' := (OperandExpr.passes_read.of_ok there).mono (Nat.zero_le 1)
    exact .ok (.immediate _ (aligned.spanSince now later later')) now
  · exact .error h now

/-- Two items with operands that agree. -/
structure Item.Agree (place : Placement) (item item' : Item) : Prop where
  operands : List.Forall₂ (Operand.Agree place) item.operands item'.operands
  first : item.first = item'.first

section Item

variable {cursor cursor' : Cursor} {token token' : Token}

theorem readBare_agree (features : FeatureSet) (first : Bool) (aligned : a.Cursors cursor cursor')
    (here : cursor.peek? = some token) (agree : token.Agree a.place token')
    (inside : token.kind ≠ .endOfStatement) :
    a.Results (Item.Agree a.place) (readBare features first token cursor)
      (readBare features first token' cursor') := by
  have next := aligned.advance_one here inside
  have taken := verbatim_agree agree
  unfold readBare
  rw [← agree.kind]
  split
  · exact .ok ⟨.nil, rfl⟩ next
  split
  · exact .ok ⟨.cons (.token _ agree.span) .nil, rfl⟩ next
  split
  · exact .ok ⟨.cons (.register _ agree.span) .nil, rfl⟩ next
  split
  · have results := respects_readImmediate aligned
    revert results
    generalize readImmediate cursor = result, readImmediate cursor' = result'
    rintro (⟨h, now⟩ | ⟨h, now⟩)
    · exact .ok ⟨.cons h .nil, rfl⟩ now
    · dsimp only
      rw [h.cause]
      split
      · exact .ok ⟨.cons taken .nil, rfl⟩ next
      · exact .error h now
  · exact .ok ⟨.cons taken .nil, rfl⟩ next

theorem readHash_agree (aligned : a.Cursors cursor cursor') (here : cursor.peek? = some token)
    (agree : token.Agree a.place token') (inside : token.kind ≠ .endOfStatement) :
    a.Results (Item.Agree a.place) (readHash token cursor) (readHash token' cursor') := by
  have results := respects_readImmediate (aligned.advance_one here inside)
  unfold readHash
  revert results
  generalize readImmediate (cursor.advance 1) = result, readImmediate (cursor'.advance 1) = result'
  rintro (⟨h, now⟩ | ⟨h, now⟩)
  · exact .ok ⟨.cons (verbatim_agree agree) (.cons h .nil), rfl⟩ now
  · exact .error (h.expecting .immediate) now

theorem readPastDelimiter_agree (features : FeatureSet) (first : Bool)
    (aligned : a.Cursors cursor cursor') (agree : token.Agree a.place token') :
    a.Results (Item.Agree a.place) (readPastDelimiter features first token cursor)
      (readPastDelimiter features first token' cursor') := by
  have taken := verbatim_agree agree
  obtain ⟨following, following', here, there, agree'⟩ := aligned.peek
  simp only [readPastDelimiter, here, there, ← agree'.kind]
  split
  · exact .ok ⟨.cons taken .nil, rfl⟩ aligned
  · next inside =>
    have results := readBare_agree features first aligned here agree' inside
    revert results
    generalize readBare features first following cursor = result,
      readBare features first following' cursor' = result'
    rintro (⟨h, now⟩ | ⟨h, now⟩)
    · exact .ok ⟨.cons taken h.operands, h.first⟩ now
    · exact .error h now

theorem readDelimited_agree (config : Config) (what : Expected) (first : Bool)
    (aligned : a.Cursors cursor cursor') (here : cursor.peek? = some token)
    (agree : token.Agree a.place token') (inside : token.kind ≠ .endOfStatement) :
    a.Results (Item.Agree a.place) (readDelimited config what first token cursor)
      (readDelimited config what first token' cursor') := by
  have next := aligned.advance_one here inside
  have results := respects_readImmediate next
  unfold readDelimited
  revert results
  generalize readImmediate (cursor.advance 1) = result, readImmediate (cursor'.advance 1) = result'
  rintro (⟨h, now⟩ | ⟨h, now⟩)
  · exact .ok ⟨.cons (verbatim_agree agree) (.cons h .nil), rfl⟩ now
  · dsimp only
    rw [h.cause]
    split
    · exact readPastDelimiter_agree config.features first next agree
    · exact .error (h.expecting what) now

theorem readItem_agree (config : Config) (first : Bool) (aligned : a.Cursors cursor cursor')
    (here : cursor.peek? = some token) (agree : token.Agree a.place token')
    (inside : token.kind ≠ .endOfStatement) :
    a.Results (Item.Agree a.place) (readItem config first token cursor)
      (readItem config first token' cursor') := by
  unfold readItem
  rw [← agree.kind]
  split
  · exact readHash_agree aligned here agree inside
  · split
    · next what _ => exact readDelimited_agree config what first aligned here agree inside
    · exact readBare_agree config.features first aligned here agree inside

end Item

theorem respects_readItems (config : Config) (first : Bool) :
    a.Respects (List.Forall₂ (Agree a.place)) (readItems config first)
      (readItems config first) := by
  intro cursor cursor' aligned
  induction left : cursor.rest.length using Nat.strongRecOn
    generalizing first cursor cursor' with
  | ind left' ih =>
    subst left
    obtain ⟨token, token', here, there, agree⟩ := aligned.peek
    by_cases closed : token.kind = .endOfStatement
    · have ended : cursor.AtEndOfStatement := by simp [Cursor.AtEndOfStatement, here, closed]
      rw [readItems_of_end config first ended,
        readItems_of_end config first (aligned.atEndOfStatement_iff.1 ended)]
      exact .ok .nil aligned
    · have closed' : token'.kind ≠ .endOfStatement := agree.kind ▸ closed
      have results := readItem_agree config first aligned here agree closed
      revert results
      generalize found : readItem config first token cursor = result,
        found' : readItem config first token' cursor' = result'
      rintro (@⟨item, _, _, _, h, now⟩ | ⟨h, now⟩)
      · rw [readItems_of_ok here closed found, readItems_of_ok there closed' found', ← h.first]
        have rest := ih _ (readItem_shorter here found) item.first now rfl
        revert rest
        generalize readItems config _ _ = result, readItems config _ _ = result'
        rintro (⟨h', now'⟩ | ⟨h', now'⟩)
        · exact .ok (List.rel_append h.operands h') now'
        · exact .error h' now'
      · rw [readItems_of_error here closed found, readItems_of_error there closed' found']
        exact .error h now

theorem readLine_agree (config : Config) {mnemonic mnemonic' : Token} {cursor cursor' : Cursor}
    (aligned : a.Cursors cursor cursor') (agree : mnemonic.Agree a.place mnemonic') :
    a.Results (List.Forall₂ (Agree a.place)) (readLine config mnemonic cursor)
      (readLine config mnemonic' cursor') := by
  unfold readLine
  rw [← agree.kind]
  split
  · have results := respects_readItems config true aligned
    revert results
    generalize readItems config true cursor = result, readItems config true cursor' = result'
    rintro (⟨h, now⟩ | ⟨h, now⟩)
    · exact .ok (.cons (.token _ agree.span) h) now
    · exact .error h now
  · exact .error ⟨rfl, agree.span⟩ aligned

theorem atEndOfStatement_of_readItems {config : Config} {first : Bool} {cursor after : Cursor}
    {operands : List Operand} (h : readItems config first cursor = .ok operands after) :
    after.AtEndOfStatement := by
  fun_induction readItems config first cursor generalizing operands with
  | case1 first cursor missing =>
    cases h
    simp [Cursor.AtEndOfStatement, missing]
  | case2 first cursor current here closed =>
    cases h
    simp [Cursor.AtEndOfStatement, here, closed]
  | case3 first cursor current here inside item after found operands stop rest ih =>
    cases h
    exact ih rest
  | case4 => cases h
  | case5 => cases h

end Asm65.Operand
