import Asm65.Proofs.ReadBack.Standing

/-!
# Items

What is read at one token: an expression is introduced there (`Introduces`),
looked for (`Seeks`), or the token stands for itself. Each way of reading is
inverted, and computed for what the text of operands can hold.
-/

namespace Asm65.Operand

/-- Tokens at which an expression is looked for where the first operand may stand. -/
structure Seeks (features : FeatureSet) (kind : TokenKind) : Prop where
  hash : kind ≠ .punct .hash
  delimiter : delimiter? features kind = none
  comma : kind ≠ .punct .comma
  accumulator : ¬kind.IsName accumulator
  register : registerOf? features kind = none

/-- Tokens that introduce an expression. -/
def Introduces (features : FeatureSet) (kind : TokenKind) : Prop :=
  kind = .punct .hash ∨ delimiter? features kind ≠ none

theorem comma_of_introduces {features : FeatureSet} {kind : TokenKind}
    (h : Introduces features kind) : kind ≠ .punct .comma := by
  rintro rfl
  rcases h with hash | delimiter
  · cases hash
  · exact delimiter rfl

variable {config : Config} {first : Bool} {operand : Operand} {rest : List Operand}
  {cursor after : Cursor} {token : Token} {item : Item} {expr : OperandExpr} {span : Span}

theorem readImmediate_of_ok (h : OperandExpr.read cursor = .ok expr after) :
    readImmediate cursor = .ok (.immediate expr (cursor.spanSince after)) after := by
  simp only [readImmediate, h]

theorem read_of_readImmediate (h : readImmediate cursor = .ok operand after) :
    ∃ expr, operand = .immediate expr (cursor.spanSince after) ∧
      OperandExpr.read cursor = .ok expr after := by
  unfold readImmediate at h
  split at h
  · next expr after' found =>
    cases h
    exact ⟨expr, rfl, found⟩
  · cases h

theorem readImmediate_of_misses (h : OperandExpr.Misses cursor) :
    ∃ diagnostic after, readImmediate cursor = .error diagnostic after ∧
      diagnostic.cause.isExpectation := by
  obtain ⟨diagnostic, after, failed, expected⟩ := h
  exact ⟨diagnostic, after, by simp only [readImmediate, failed], expected⟩

theorem misses_of_readImmediate {diagnostic : Diagnostic}
    (h : readImmediate cursor = .error diagnostic after)
    (expected : diagnostic.cause.isExpectation) :
    OperandExpr.Misses cursor := by
  unfold readImmediate at h
  split at h
  · cases h
  · next failed =>
    cases h
    exact ⟨diagnostic, after, failed, expected⟩

/-- Behind no delimiter, one operand is read at any token but a comma. -/
theorem readBare_eq_ok {features : FeatureSet} (comma : token.kind ≠ .punct .comma)
    (read : readBare features first token cursor = .ok item after) :
    ∃ found, item.operands = [found] ∧ ∀ expr span, found = .immediate expr span →
      first ∧ ¬token.kind.IsName accumulator ∧ registerOf? features token.kind = none ∧
        OperandExpr.read cursor = .ok expr after := by
  rw [readBare, if_neg comma] at read
  split at read
  · cases read
    exact ⟨_, rfl, by rintro _ _ ⟨⟩⟩
  · next other =>
    split at read
    · cases read
      exact ⟨_, rfl, by rintro _ _ ⟨⟩⟩
    · next register =>
      split at read
      · next first =>
        split at read
        · next operand after' found =>
          cases read
          refine ⟨_, rfl, fun expr span same => ?_⟩
          obtain ⟨expr', same', found⟩ := read_of_readImmediate found
          cases same.symm.trans same'
          exact ⟨first, fun name => other ⟨first, name⟩, register, found⟩
        · split at read
          · cases read
            exact ⟨_, rfl, by rintro _ _ ⟨⟩⟩
          · cases read
      · cases read
        exact ⟨_, rfl, by rintro _ _ ⟨⟩⟩

theorem readBare_of_misses {features : FeatureSet} (misses : OperandExpr.Misses cursor)
    (comma : token.kind ≠ .punct .comma) (other : ¬token.kind.IsName accumulator)
    (register : registerOf? features token.kind = none) :
    readBare features first token cursor = .ok ⟨[verbatim token], false⟩ (cursor.advance 1) := by
  obtain ⟨diagnostic, after, failed, expected⟩ := readImmediate_of_misses misses
  cases first <;> simp only [readBare, comma, other, register, failed, expected, and_false,
    if_false, if_true, Bool.false_eq_true]

theorem readPastDelimiter_eq_ok {features : FeatureSet}
    (read : readPastDelimiter features first token cursor = .ok item after) :
    ∃ others, item.operands = verbatim token :: others := by
  unfold readPastDelimiter at read
  split at read
  · cases read
    exact ⟨_, rfl⟩
  · split at read
    · cases read
      exact ⟨_, rfl⟩
    · split at read
      · cases read
        exact ⟨_, rfl⟩
      · cases read

theorem readPastDelimiter_of_end {features : FeatureSet} (ended : cursor.AtEndOfStatement) :
    readPastDelimiter features first token cursor = .ok ⟨[verbatim token], first⟩ cursor := by
  unfold readPastDelimiter
  split
  · rfl
  · next following here => exact if_pos (ended following here)

theorem readPastDelimiter_of_peek {features : FeatureSet} {following : Token}
    (here : cursor.peek? = some following) (inside : following.kind ≠ .endOfStatement) :
    readPastDelimiter features first token cursor =
      match readBare features first following cursor with
      | .ok item after => .ok ⟨verbatim token :: item.operands, item.first⟩ after
      | .error diagnostic after => .error diagnostic after := by
  unfold readPastDelimiter
  rw [here]
  exact if_neg inside

theorem readItem_of_introduces (opening : Introduces config.features token.kind)
    (read : readItem config first token cursor = .ok item after) :
    (∃ found, item = ⟨[verbatim token, found], false⟩ ∧
        readImmediate (cursor.advance 1) = .ok found after) ∨
      (delimiter? config.features token.kind ≠ none ∧ config.policy = .fallThrough ∧
        OperandExpr.Misses (cursor.advance 1) ∧
        readPastDelimiter config.features first token (cursor.advance 1) = .ok item after) := by
  unfold readItem at read
  split at read
  · unfold readHash at read
    split at read
    · next found =>
      cases read
      exact .inl ⟨_, rfl, found⟩
    · cases read
  · next hash =>
    have delimiter := opening.resolve_left hash
    split at read
    · unfold readDelimited at read
      split at read
      · next found =>
        cases read
        exact .inl ⟨_, rfl, found⟩
      · next failed =>
        split at read
        · next falls =>
          exact .inr ⟨delimiter, falls.2, misses_of_readImmediate failed falls.1, read⟩
        · cases read
    · next none => exact absurd none delimiter

theorem readItem_of_ok (opening : Introduces config.features token.kind)
    (found : readImmediate (cursor.advance 1) = .ok operand after) :
    readItem config first token cursor = .ok ⟨[verbatim token, operand], false⟩ after := by
  unfold readItem
  split
  · simp only [readHash, found]
  · next hash =>
    split
    · simp only [readDelimited, found]
    · next none => exact absurd none (opening.resolve_left hash)

theorem readItem_of_misses (delimiter : delimiter? config.features token.kind ≠ none)
    (falls : config.policy = .fallThrough) (misses : OperandExpr.Misses (cursor.advance 1)) :
    readItem config first token cursor =
      readPastDelimiter config.features first token (cursor.advance 1) := by
  obtain ⟨diagnostic, after, failed, expected⟩ := readImmediate_of_misses misses
  unfold readItem
  split
  · next hash => simp [hash, delimiter?] at delimiter
  · split
    · simp only [readDelimited, failed, expected, falls, and_self, if_true]
    · next none => exact absurd none delimiter

/-- An expression that nothing introduces has been looked for. -/
theorem seeks_of_readItem (comma : token.kind ≠ .punct .comma)
    (read : readItem config first token cursor = .ok item after)
    (head : item.operands.head? = some (.immediate expr span)) :
    first ∧ Seeks config.features token.kind ∧ OperandExpr.read cursor = .ok expr after := by
  by_cases opening : Introduces config.features token.kind
  · exfalso
    rcases readItem_of_introduces opening read with ⟨found, rfl, -⟩ | ⟨-, -, -, past⟩
    · cases head
    · obtain ⟨others, same⟩ := readPastDelimiter_eq_ok past
      rw [same] at head
      cases head
  · obtain ⟨hash, delimiter⟩ := not_or.1 opening
    rw [not_not] at delimiter
    simp only [readItem, if_neg hash, delimiter] at read
    obtain ⟨found, same, bare⟩ := readBare_eq_ok comma read
    rw [same] at head
    obtain ⟨here, other, register, found⟩ := bare expr span (Option.some.inj head)
    exact ⟨here, ⟨hash, delimiter, comma, other, register⟩, found⟩

theorem readItem_of_seeks (seeks : Seeks config.features token.kind)
    (found : OperandExpr.read cursor = .ok expr after) :
    readItem config true token cursor =
      .ok ⟨[.immediate expr (cursor.spanSince after)], false⟩ after := by
  simp only [readItem, if_neg seeks.hash, seeks.delimiter, readBare, if_neg seeks.comma,
    seeks.accumulator, and_false, if_false, seeks.register, if_true, readImmediate_of_ok found]

/-- Where an expression is looked for, there is one or none starts. -/
theorem misses_of_readItem (seeks : Seeks config.features token.kind)
    (read : readItem config true token cursor = .ok item after) :
    (∃ expr span, item.operands = [.immediate expr span]) ∨ OperandExpr.Misses cursor := by
  simp only [readItem, if_neg seeks.hash, seeks.delimiter, readBare, if_neg seeks.comma,
    seeks.accumulator, and_false, if_false, seeks.register, if_true] at read
  split at read
  · next found =>
    cases read
    obtain ⟨expr, rfl, -⟩ := read_of_readImmediate found
    exact .inl ⟨expr, _, rfl⟩
  · next failed =>
    split at read
    · next expected => exact .inr (misses_of_readImmediate failed expected)
    · cases read

/-- Only a comma leaves no operand. -/
theorem exists_operand_of_readItem (comma : token.kind ≠ .punct .comma)
    (read : readItem config first token cursor = .ok item after) :
    ∃ found others, item.operands = found :: others := by
  by_cases opening : Introduces config.features token.kind
  · rcases readItem_of_introduces opening read with ⟨found, rfl, -⟩ | ⟨-, -, -, past⟩
    · exact ⟨_, _, rfl⟩
    · obtain ⟨others, same⟩ := readPastDelimiter_eq_ok past
      exact ⟨_, _, same⟩
  · obtain ⟨hash, delimiter⟩ := not_or.1 opening
    rw [not_not] at delimiter
    simp only [readItem, if_neg hash, delimiter] at read
    obtain ⟨found, same, -⟩ := readBare_eq_ok comma read
    exact ⟨found, [], same⟩

/-- What is read first agrees with the first operands. -/
theorem IsReadAs.exists_item (h : IsReadAs config first (operand :: rest) cursor)
    (here : cursor.peek? = some token) (inside : token.kind ≠ .endOfStatement)
    (comma : token.kind ≠ .punct .comma) :
    ∃ item after found others, readItem config first token cursor = .ok item after ∧
      item.operands = found :: others ∧ operand.Agree .anywhere found ∧
        ∃ operands, List.Forall₂ (Agree .anywhere) rest (others ++ operands) := by
  obtain ⟨again, stop, read, agree⟩ := h
  cases next : readItem config first token cursor with
  | ok item after =>
    obtain ⟨found, others, same⟩ := exists_operand_of_readItem comma next
    rw [readItems_of_ok here inside next] at read
    split at read
    · cases read
      rw [same] at agree
      cases agree with
      | cons head tail => exact ⟨item, after, found, others, rfl, same, head, _, tail⟩
    · cases read
  | error diagnostic after =>
    rw [readItems_of_error here inside next] at read
    cases read

end Asm65.Operand
