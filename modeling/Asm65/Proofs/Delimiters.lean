import Asm65.Operand.Reader
import Mathlib

/-!
# The delimiter policy

Where no expression follows an opening delimiter, the strict policy rejects the
line and the lenient one reads on just behind the delimiter. The two runs go
step by step together until the first such place (`readItems_agree`), and the
lenient one has no failure of that kind (`not_failsAtDelimiter_readItems`). So
the lenient policy only turns failures at a delimiter into something else.

## Implementation notes

Not every failure behind a delimiter is one at it: a number out of range or an
unknown modifier there is fatal under both policies.
-/

namespace Asm65

/-- Whether something is wrong because no expression follows an opening delimiter. -/
def Cause.AtDelimiter (cause : Cause) : Prop :=
  cause = .expected .afterParen ∨ cause = .expected .afterBracket

theorem Cause.AtDelimiter.isExpectation {cause : Cause} (h : cause.AtDelimiter) :
    cause.isExpectation := by
  rcases h with rfl | rfl <;> rfl

/-- Whether a result is a failure because no expression follows an opening delimiter. -/
def Reader.FailsAtDelimiter {α : Type} : EStateM.Result Diagnostic Cursor α → Prop
  | .ok .. => False
  | .error diagnostic _ => diagnostic.cause.AtDelimiter

open Reader (FailsAtDelimiter)

namespace Operand

variable {features : FeatureSet} {first : Bool} {token : Token} {what : Expected}

theorem atDelimiter_of_delimiter? {kind : TokenKind} (h : delimiter? features kind = some what) :
    (Cause.expected what).AtDelimiter := by
  unfold delimiter? at h
  split at h
  · cases h
    exact .inl rfl
  · split at h
    · cases h
      exact .inr rfl
    · cases h
  · cases h

theorem not_failsAtDelimiter_readBare (features : FeatureSet) (first : Bool) (token : Token)
    (cursor : Cursor) : ¬FailsAtDelimiter (readBare features first token cursor) := by
  unfold readBare
  split
  · exact id
  split
  · exact id
  split
  · exact id
  split
  · split
    · exact id
    · split
      · exact id
      · next refused => exact fun fails => refused fails.isExpectation
  · exact id

theorem not_failsAtDelimiter_readHash (cursor : Cursor) :
    ¬FailsAtDelimiter (readHash token cursor) := by
  unfold readHash
  split
  · exact id
  · next diagnostic after _ =>
    by_cases expects : diagnostic.cause.isExpectation
    · rw [Diagnostic.expecting, if_pos expects]
      rintro (same | same) <;> cases same
    · rw [Diagnostic.expecting, if_neg expects]
      exact fun fails => expects fails.isExpectation

theorem not_failsAtDelimiter_readPastDelimiter (cursor : Cursor) :
    ¬FailsAtDelimiter (readPastDelimiter features first token cursor) := by
  unfold readPastDelimiter
  split
  · exact id
  · next following _ =>
    split
    · exact id
    · have bare := not_failsAtDelimiter_readBare features first following cursor
      split
      · exact id
      · next failed =>
        rw [failed] at bare
        exact bare

/-- With the lenient policy no operand is rejected at a delimiter. -/
theorem not_failsAtDelimiter_readItem (features : FeatureSet) (first : Bool) (token : Token)
    (cursor : Cursor) :
    ¬FailsAtDelimiter (readItem ⟨features, .fallThrough⟩ first token cursor) := by
  unfold readItem
  split
  · exact not_failsAtDelimiter_readHash cursor
  · split
    · unfold readDelimited
      split
      · exact id
      · next diagnostic after _ =>
        split
        · exact not_failsAtDelimiter_readPastDelimiter (cursor.advance 1)
        · next fatal =>
          have other : ¬diagnostic.cause.isExpectation := fun expects => fatal ⟨expects, rfl⟩
          rw [Diagnostic.expecting, if_neg other]
          exact fun fails => other fails.isExpectation
    · exact not_failsAtDelimiter_readBare features first token cursor

/-- The policies read an operand alike unless the strict one rejects it at a delimiter. -/
theorem readItem_agrees {cursor : Cursor}
    (h : ¬FailsAtDelimiter (readItem ⟨features, .fatal⟩ first token cursor)) :
    readItem ⟨features, .fallThrough⟩ first token cursor =
      readItem ⟨features, .fatal⟩ first token cursor := by
  unfold readItem at h ⊢
  split at h
  · next hash => rw [if_pos hash, if_pos hash]
  · next plain =>
    rw [if_neg plain, if_neg plain]
    dsimp only at h ⊢
    cases opens : delimiter? features token.kind with
    | none => rfl
    | some what =>
      rw [opens] at h
      unfold readDelimited at h ⊢
      dsimp only at h ⊢
      cases read : readImmediate (cursor.advance 1) with
      | ok operand after => rfl
      | error diagnostic after =>
        rw [read] at h
        by_cases expects : diagnostic.cause.isExpectation
        · simp only [expects, reduceCtorEq, and_false, if_false, Diagnostic.expecting, if_true]
            at h
          exact absurd (atDelimiter_of_delimiter? opens) h
        · simp only [expects, Bool.false_eq_true, false_and, if_false]

/-- With the lenient policy no operand list is rejected at a delimiter. -/
theorem not_failsAtDelimiter_readItems (features : FeatureSet) (first : Bool) (cursor : Cursor) :
    ¬FailsAtDelimiter (readItems ⟨features, .fallThrough⟩ first cursor) := by
  fun_induction readItems ⟨features, .fallThrough⟩ first cursor with
  | case1 | case2 => exact id
  | case3 => exact id
  | case4 first cursor current here inside item after read diagnostic stop failed ih =>
    rw [failed] at ih
    exact ih
  | case5 first cursor current here inside diagnostic after failed =>
    have item := not_failsAtDelimiter_readItem features first current cursor
    rw [failed] at item
    exact item

/-- The policies go together up to the first operand that the strict one rejects at a
delimiter. -/
theorem readItems_agree {cursor : Cursor}
    (h : ¬FailsAtDelimiter (readItems ⟨features, .fatal⟩ first cursor)) :
    readItems ⟨features, .fallThrough⟩ first cursor =
      readItems ⟨features, .fatal⟩ first cursor := by
  fun_induction readItems ⟨features, .fatal⟩ first cursor with
  | case1 first cursor missing =>
    exact readItems_of_end _ first (by simp [Cursor.AtEndOfStatement, missing])
  | case2 first cursor current here closed =>
    exact readItems_of_end _ first (by simp [Cursor.AtEndOfStatement, here, closed])
  | case3 first cursor current here inside item after read operands stop rest ih =>
    have read' := (readItem_agrees (read ▸ id)).trans read
    rw [rest] at ih
    rw [readItems_of_ok here inside read', ih id]
  | case4 first cursor current here inside item after read diagnostic stop rest ih =>
    have read' := (readItem_agrees (read ▸ id)).trans read
    rw [rest] at ih
    rw [readItems_of_ok here inside read', ih h]
  | case5 first cursor current here inside diagnostic after failed =>
    have failed' := (readItem_agrees (failed ▸ h)).trans failed
    exact readItems_of_error here inside failed'

/-- With the lenient policy no line is rejected at a delimiter. -/
theorem not_failsAtDelimiter_readLine (features : FeatureSet) (mnemonic : Token)
    (cursor : Cursor) : ¬FailsAtDelimiter (readLine ⟨features, .fallThrough⟩ mnemonic cursor) := by
  have items := not_failsAtDelimiter_readItems features true cursor
  unfold readLine
  split
  · split
    · exact id
    · next failed =>
      rw [failed] at items
      exact items
  · rintro (same | same) <;> cases same

/-- The policies read a line alike unless the strict one rejects it at a delimiter. -/
theorem readLine_agrees {mnemonic : Token} {cursor : Cursor}
    (h : ¬FailsAtDelimiter (readLine ⟨features, .fatal⟩ mnemonic cursor)) :
    readLine ⟨features, .fallThrough⟩ mnemonic cursor =
      readLine ⟨features, .fatal⟩ mnemonic cursor := by
  unfold readLine at h ⊢
  split at h
  · next name _ =>
    have items : ¬FailsAtDelimiter (readItems ⟨features, .fatal⟩ true cursor) := by
      intro fails
      cases read : readItems ⟨features, .fatal⟩ true cursor with
      | ok =>
        rw [read] at fails
        exact fails
      | error =>
        rw [read] at fails h
        exact h fails
    rw [readItems_agree items]
  · rfl

/-- The lenient policy keeps every success and every failure that is not at a delimiter, and
never fails at one itself. -/
theorem readLine_fallThrough (features : FeatureSet) (mnemonic : Token) (cursor : Cursor) :
    (∀ operands after, readLine ⟨features, .fatal⟩ mnemonic cursor = .ok operands after →
      readLine ⟨features, .fallThrough⟩ mnemonic cursor = .ok operands after) ∧
    (∀ diagnostic after, readLine ⟨features, .fatal⟩ mnemonic cursor = .error diagnostic after →
      diagnostic.cause ≠ .expected .afterParen → diagnostic.cause ≠ .expected .afterBracket →
      readLine ⟨features, .fallThrough⟩ mnemonic cursor = .error diagnostic after) ∧
    ∀ diagnostic after,
      readLine ⟨features, .fallThrough⟩ mnemonic cursor = .error diagnostic after →
      diagnostic.cause ≠ .expected .afterParen ∧ diagnostic.cause ≠ .expected .afterBracket := by
  refine ⟨fun operands after read => ?_, fun diagnostic after failed paren bracket => ?_,
    fun diagnostic after failed => ?_⟩
  · rw [readLine_agrees (read ▸ id), read]
  · have other : ¬diagnostic.cause.AtDelimiter := not_or.2 ⟨paren, bracket⟩
    rw [readLine_agrees (failed ▸ other), failed]
  · have settled := not_failsAtDelimiter_readLine features mnemonic cursor
    rw [failed] at settled
    exact not_or.1 settled

/-- The line `lda (1)` is read and the line `lda foo(1)` is not, under both policies. -/
theorem readLine_fallThrough_group :
    let mnemonic : Token := ⟨.name "lda", ⟨0, 3⟩⟩
    let group : Cursor := .ofTokens [⟨.punct .openParen, ⟨4, 1⟩⟩,
      ⟨.number .decimal "1", ⟨5, 1⟩⟩, ⟨.punct .closeParen, ⟨6, 1⟩⟩, ⟨.endOfStatement, ⟨7, 0⟩⟩]
    let call : Cursor := .ofTokens [⟨.name "foo", ⟨4, 3⟩⟩, ⟨.punct .openParen, ⟨7, 1⟩⟩,
      ⟨.number .decimal "1", ⟨8, 1⟩⟩, ⟨.punct .closeParen, ⟨9, 1⟩⟩, ⟨.endOfStatement, ⟨10, 0⟩⟩]
    (∃ operands after, readLine ⟨{}, .fatal⟩ mnemonic group = .ok operands after ∧
      readLine ⟨{}, .fallThrough⟩ mnemonic group = .ok operands after) ∧
    ∃ name after,
      readLine ⟨{}, .fatal⟩ mnemonic call = .error ⟨.unknownModifier name, ⟨4, 3⟩⟩ after ∧
      readLine ⟨{}, .fallThrough⟩ mnemonic call =
        .error ⟨.unknownModifier name, ⟨4, 3⟩⟩ after := by
  intro mnemonic group call
  have read : readLine ⟨{}, .fatal⟩ mnemonic group = .ok
      [.token "lda" ⟨0, 3⟩, .token "(" ⟨4, 1⟩, .immediate (.plain (.constant 1)) ⟨5, 1⟩,
        .token ")" ⟨6, 1⟩] (group.advance 3) := by cbv
  have item : readItem ⟨{}, .fatal⟩ true ⟨.name "foo", ⟨4, 3⟩⟩ call =
      .error ⟨.unknownModifier "foo", ⟨4, 3⟩⟩ call := by cbv
  have items : readItems ⟨{}, .fatal⟩ true call =
      .error ⟨.unknownModifier "foo", ⟨4, 3⟩⟩ call := readItems_of_error rfl (by decide) item
  have failed : readLine ⟨{}, .fatal⟩ mnemonic call =
      .error ⟨.unknownModifier "foo", ⟨4, 3⟩⟩ call := by
    simp only [readLine, mnemonic, TokenKind.name?, items]
  exact ⟨⟨_, _, read, (readLine_fallThrough {} mnemonic group).1 _ _ read⟩,
    _, _, failed, (readLine_fallThrough {} mnemonic call).2.1 _ _ failed (by decide) (by decide)⟩

end Operand

end Asm65
