import Asm65.Statement

/-!
# What readers blame

A reader fails because of the tokens it meets: something else is expected, a
number has no value, a name is no modifier. It never blames what only matching
finds out (`Cause.IsOfText`). So a diagnostic about features or about the
shapes of operands comes from operands that have been read
(`Statement.exists_outcome_of_read`).
-/

namespace Asm65

/-- Whether a cause can be seen from the text of a statement, without the table. -/
def Cause.IsOfText : Cause → Prop
  | malformedNumber | literalRange | expected _ | unknownModifier _ | charCountRange _
  | literalWidth | unsupportedDirective _ => True
  | unknownMnemonic | missingFeature _ | invalidOperand | tooFewOperands | invalidAddr8
  | invalidAddr16 | invalidPcRel8 | invalidImm8To16 | nearMisses => False

namespace Reader

variable {α β : Type}

/-- A reader of which every failure can be seen from the text. -/
def BlamesText (reader : Reader α) : Prop :=
  ∀ ⦃start diagnostic now⦄, reader start = .error diagnostic now → diagnostic.cause.IsOfText

theorem blamesText_pure (value : α) : BlamesText (pure value : Reader α) := by
  intro start diagnostic now failed
  cases failed

theorem BlamesText.bind {reader : Reader α} {next : α → Reader β} (first : BlamesText reader)
    (rest : ∀ value, BlamesText (next value)) : BlamesText (reader >>= next) := by
  intro start diagnostic now failed
  rcases bind_eq_error_iff.1 failed with failed | ⟨value, middle, -, failed⟩
  · exact first failed
  · exact rest value failed

theorem blamesText_expect (kind : TokenKind) (what : Expected) :
    BlamesText (expect kind what) := by
  intro start diagnostic now failed
  unfold expect at failed
  split at failed
  · cases failed
  · cases failed
    trivial

end Reader

namespace Expr

theorem isOfText_of_run {stop position : Nat} {state : State} {tokens : List Token} {now : Cursor}
    {diagnostic : Diagnostic} (failed : run stop state position tokens = .error diagnostic now) :
    diagnostic.cause.IsOfText := by
  induction tokens generalizing state position with
  | nil =>
    obtain ⟨what, rfl⟩ := exists_expected_of_finish failed
    trivial
  | cons token rest ih =>
    unfold run at failed
    split at failed
    · exact ih failed
    · cases failed
      trivial
    · obtain ⟨what, rfl⟩ := exists_expected_of_finish failed
      trivial

theorem blamesText_read : Reader.BlamesText read :=
  fun _ _ _ failed => isOfText_of_run failed

end Expr

namespace OperandExpr

theorem blamesText_readInner : Reader.BlamesText readInner := by
  have group (sign : Expr → Expr) : Reader.BlamesText (readInner.group sign) :=
    Expr.blamesText_read.bind fun _ =>
      (Reader.blamesText_expect _ _).bind fun _ => Reader.blamesText_pure _
  intro start diagnostic now failed
  unfold readInner at failed
  split at failed
  · exact group _ failed
  · exact group _ failed
  · exact Expr.blamesText_read failed

theorem blamesText_readStub (name : String) (kind : Modifier) :
    Reader.BlamesText (readStub name kind) := by
  intro start diagnostic now failed
  unfold readStub at failed
  split at failed
  · split at failed
    · split at failed <;> cases failed
    · cases failed
  · cases failed

theorem blamesText_readUnsigned (negated : Bool) : Reader.BlamesText (readUnsigned negated) := by
  have half (kind : Modifier) : Reader.BlamesText (readUnsigned.half negated kind) :=
    Expr.blamesText_read.bind fun _ => Reader.blamesText_pure _
  have plain : Reader.BlamesText readUnsigned.plainExpr :=
    Expr.blamesText_read.bind fun _ => Reader.blamesText_pure _
  have argument (name : String) (kind : Modifier) :
      Reader.BlamesText (readArgument name kind negated) :=
    (blamesText_readStub name kind).bind fun _ => blamesText_readInner.bind fun _ =>
      (Reader.blamesText_expect _ _).bind fun _ => Reader.blamesText_pure _
  intro start diagnostic now failed
  unfold readUnsigned at failed
  split at failed
  · exact half _ failed
  · exact half _ failed
  · split at failed
    · exact argument _ _ failed
    · cases failed
      trivial
  · exact plain failed

theorem blamesText_readSign : Reader.BlamesText readSign := by
  intro start diagnostic now failed
  unfold readSign at failed
  split at failed <;> cases failed

theorem blamesText_read : Reader.BlamesText read :=
  blamesText_readSign.bind blamesText_readUnsigned

end OperandExpr

/-- Another expectation is as much about the text as the one it replaces. -/
theorem Cause.IsOfText.expecting {diagnostic : Diagnostic} (h : diagnostic.cause.IsOfText)
    (what : Expected) : (diagnostic.expecting what).cause.IsOfText := by
  unfold Diagnostic.expecting
  split
  · trivial
  · exact h

namespace Operand

theorem blamesText_readImmediate : Reader.BlamesText readImmediate := by
  intro start diagnostic now failed
  unfold readImmediate at failed
  split at failed
  · cases failed
  · next found =>
    cases failed
    exact OperandExpr.blamesText_read found

theorem blamesText_readBare (features : FeatureSet) (first : Bool) (token : Token) :
    Reader.BlamesText (readBare features first token) := by
  intro start diagnostic now failed
  unfold readBare at failed
  split at failed
  · cases failed
  split at failed
  · cases failed
  split at failed
  · cases failed
  split at failed
  · split at failed
    · cases failed
    · next found =>
      split at failed
      · cases failed
      · cases failed
        exact blamesText_readImmediate found
  · cases failed

theorem blamesText_readPastDelimiter (features : FeatureSet) (first : Bool) (token : Token) :
    Reader.BlamesText (readPastDelimiter features first token) := by
  intro start diagnostic now failed
  unfold readPastDelimiter at failed
  split at failed
  · cases failed
  split at failed
  · cases failed
  split at failed
  · cases failed
  · next found =>
    cases failed
    exact blamesText_readBare features first _ found

theorem blamesText_readItem (config : Config) (first : Bool) (token : Token) :
    Reader.BlamesText (readItem config first token) := by
  intro start diagnostic now failed
  unfold readItem at failed
  split at failed
  · unfold readHash at failed
    split at failed
    · cases failed
    · next found =>
      cases failed
      exact (blamesText_readImmediate found).expecting _
  split at failed
  · unfold readDelimited at failed
    split at failed
    · cases failed
    · next found =>
      split at failed
      · exact blamesText_readPastDelimiter _ _ _ failed
      · cases failed
        exact (blamesText_readImmediate found).expecting _
  · exact blamesText_readBare _ _ _ failed

theorem blamesText_readItems (config : Config) (first : Bool) :
    Reader.BlamesText (readItems config first) := by
  intro start diagnostic now failed
  fun_induction readItems config first start with
  | case1 | case2 | case3 => cases failed
  | case4 first start current here inside item after found diagnostic' stop rest ih =>
    cases failed
    exact ih rest
  | case5 first start current here inside diagnostic' after found =>
    cases failed
    exact blamesText_readItem config first current found

end Operand

namespace AddressText

theorem blamesText_readCount : Reader.BlamesText readCount := by
  intro start diagnostic now failed
  unfold readCount at failed
  split at failed
  · cases failed
  · next found =>
    cases failed
    exact Expr.blamesText_read found

theorem blamesText_ofParts (start afterAddress : Cursor) (address : Expr)
    (counted : Option Int64 × Span) :
    Reader.BlamesText (ofParts start afterAddress address counted) := by
  intro after diagnostic now failed
  obtain ⟨_ | count, countSpan⟩ := counted
  · cases failed
    trivial
  unfold ofParts at failed
  dsimp only at failed
  split at failed
  · cases failed
    trivial
  split at failed
  · split at failed
    · cases failed
    · cases failed
      trivial
  · cases failed
    trivial

theorem blamesText_read : Reader.BlamesText read := by
  intro start diagnostic now failed
  unfold read at failed
  split at failed
  · next found =>
    cases failed
    exact Expr.blamesText_read found
  split at failed
  · next found =>
    cases failed
    exact Reader.blamesText_expect _ _ found
  split at failed
  · next found =>
    cases failed
    exact blamesText_readCount found
  · exact blamesText_ofParts _ _ _ _ failed

end AddressText

namespace Statement

variable {table : Table} {config : Config} {start after : Cursor} {diagnostic : Diagnostic}

/-- What the text does not show is found out by matching the operands that have been read. -/
theorem exists_outcome_of_read (h : read table config start = .error diagnostic after)
    (matched : ¬diagnostic.cause.IsOfText) :
    ∃ token name operands, start.peek? = some token ∧ token.kind = .name name ∧
      name.toList.head? ≠ some '.' ∧
      Operand.readItems config true (start.advance 1) = .ok operands after ∧
      (Outcome.ofOperands table config.features (.token name token.span :: operands)).result
        (.token name token.span :: operands) = .error diagnostic := by
  unfold read at h
  split at h
  · cases h
    exact absurd trivial matched
  next token here =>
  split at h
  · cases h
    exact absurd trivial matched
  next name named =>
  split at h
  · unfold readDirective at h
    split at h
    · split at h
      · cases h
      · next found =>
        cases h
        exact absurd (AddressText.blamesText_read found) matched
    · cases h
      exact absurd trivial matched
  next plain =>
  unfold readInstruction at h
  split at h
  · next found =>
    cases h
    have named := TokenKind.name?_eq_some_iff.1 named
    simp only [Operand.readLine, named, TokenKind.name?] at found
    split at found
    · cases found
    · next failed =>
      cases found
      exact absurd (Operand.blamesText_readItems config true failed) matched
  · next line =>
    obtain ⟨name', operands, named', rfl, items⟩ := Operand.readLine_eq_ok_iff.1 line
    cases (TokenKind.name?_eq_some_iff.1 named).symm.trans named'
    split at h
    · cases h
    · next failed =>
      cases h
      exact ⟨token, name, operands, here, named', plain, items, failed⟩

end Statement

end Asm65
