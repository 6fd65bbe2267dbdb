import Asm65.Proofs.Blocks
import Asm65.Proofs.Settling.OperandExpr

/-!
# Why a line is rejected

A line of operands is rejected because no expression follows what introduces one,
or for a defect of its tokens: a number without a value, or a call of something that
is no modifier (`Operand.readLine_rejected`). What was expected inside an expression
never gets out.

## Implementation notes

Readers of expressions fail further on than they start, so a defect is found on what
is left of the line. It is one of the whole line, since no reader leaves the statement
(`Reader.Judges.stays`, `Cursor.InStatement.line_suffix`).
-/

namespace Asm65

/-- What is wrong with the tokens of a line whatever was expected there. -/
inductive Defect (line : List Token) : Diagnostic → Prop
  | number {radix : Text.Radix} {numeral : String} {span : Span}
      (among : ⟨.number radix numeral, span⟩ ∈ line)
      (valueless : (TokenKind.number radix numeral).value? = none) :
      Defect line ⟨.literalRange, span⟩
  | modifier {name : String} {span span' : Span}
      (called : [⟨.name name, span⟩, ⟨.punct .openParen, span'⟩] <:+: line)
      (unknown : Modifier.ofName? name = none) : Defect line ⟨.unknownModifier name, span⟩

namespace Defect

variable {line line' : List Token} {diagnostic : Diagnostic}

theorem mono (h : Defect line diagnostic) (inside : line <:+: line') : Defect line' diagnostic := by
  cases h with
  | number among valueless => exact .number (inside.subset among) valueless
  | modifier called unknown => exact .modifier (called.trans inside) unknown

theorem expecting_eq (h : Defect line diagnostic) (what : Expected) :
    diagnostic.expecting what = diagnostic := by
  cases h with
  | number | modifier => rfl

end Defect

namespace Reader

variable {α β : Type} {reader : Reader α} {next : α → Reader β}

/-- A reader that stays in the statement, and fails because something else was expected or for a
defect of the line. -/
structure Judges (reader : Reader α) : Prop where
  stays : ∀ start : Cursor, start.InStatement (stopOf (reader start))
  failure : ∀ {start now : Cursor} {diagnostic : Diagnostic},
    reader start = .error diagnostic now →
      diagnostic.cause.isExpectation ∨ Defect start.line diagnostic

theorem Judges.inStatement (judges : Judges reader) {start middle : Cursor} {value : α}
    (read : reader start = .ok value middle) : start.InStatement middle := by
  have stays := judges.stays start
  rwa [read] at stays

theorem Judges.bind (first : Judges reader) (rest : ∀ value, Judges (next value)) :
    Judges (reader >>= next) where
  stays start := by
    cases read : reader start with
    | ok value middle =>
      rw [bind_of_ok read]
      exact (first.inStatement read).trans ((rest value).stays middle)
    | error diagnostic now =>
      have stays := first.stays start
      rw [read] at stays
      rwa [bind_eq_error_iff.2 (.inl read)]
  failure failed := by
    rcases bind_eq_error_iff.1 failed with failed | ⟨value, middle, read, failed⟩
    · exact first.failure failed
    · refine ((rest value).failure failed).imp_right fun defect => ?_
      exact defect.mono (first.inStatement read).line_suffix.isInfix

/-- What a reader finds behind the tokens that lead to it, it finds on the line. -/
theorem Judges.failure_behind (judges : Judges reader) {cursor now : Cursor}
    {kinds : List TokenKind} {diagnostic : Diagnostic} (starts : cursor.Starts kinds)
    (inside : ∀ kind ∈ kinds, kind ≠ .endOfStatement)
    (failed : reader (cursor.advance kinds.length) = .error diagnostic now) :
    diagnostic.cause.isExpectation ∨ Defect cursor.line diagnostic := by
  have later := (Cursor.inStatement_of_starts starts inside).line_suffix
  exact (judges.failure failed).imp_right fun defect => defect.mono later.isInfix

theorem judges_pure (value : α) : Judges (pure value : Reader α) where
  stays := inStatement_of_respects (passes_pure value) fun _ => Alignment.respects_pure rfl
  failure failed := by cases failed

theorem judges_expect (kind : TokenKind) (what : Expected) (inside : kind ≠ .endOfStatement) :
    Judges (expect kind what) where
  stays := inStatement_of_respects (passes_expect kind what) fun _ =>
    Alignment.respects_expect kind what inside
  failure failed := by
    unfold expect at failed
    split at failed
    · cases failed
    · cases failed
      exact .inl rfl

end Reader

namespace Expr

variable {state : State} {now : Cursor} {diagnostic : Diagnostic}

theorem failure_of_run {stop position : Nat} {tokens : List Token}
    (failed : run stop state position tokens = .error diagnostic now) :
    diagnostic.cause.isExpectation ∨ Defect (Cursor.line ⟨position, tokens, stop⟩) diagnostic := by
  induction tokens generalizing state position with
  | nil =>
    obtain ⟨what, rfl⟩ := exists_expected_of_finish failed
    exact .inl rfl
  | cons token rest ih =>
    let start : Cursor := ⟨position, token :: rest, stop⟩
    have here : start.peek? = some token := rfl
    cases moved : state.step token.kind with
    | shift next =>
      have inside : token.kind ≠ .endOfStatement := by
        intro closed
        rw [closed, step_endOfStatement] at moved
        cases moved
      have later := (Cursor.inStatement_advance_one here inside).line_suffix
      rw [run_shift moved] at failed
      exact (ih failed).imp_right fun defect => defect.mono later.isInfix
    | outOfRange =>
      simp only [run, moved] at failed
      cases failed
      obtain ⟨kind, span⟩ := token
      obtain ⟨radix, numeral, rfl, valueless⟩ := State.exists_number_of_outOfRange moved
      exact .inr (.number (Cursor.mem_line_of_peek here (by simp)) valueless)
    | stop =>
      simp only [run, moved] at failed
      obtain ⟨what, rfl⟩ := exists_expected_of_finish failed
      exact .inl rfl

theorem judges_read : Reader.Judges read where
  stays := Reader.inStatement_of_respects passes_read fun _ => respects_read
  failure := failure_of_run

end Expr

namespace OperandExpr

theorem judges_readClose : Reader.Judges readClose :=
  Reader.judges_expect (.punct .closeParen) .closeParen nofun

theorem judges_readStub (name : String) (kind : Modifier) : Reader.Judges (readStub name kind) where
  stays := Reader.inStatement_of_respects (passes_readStub name kind) fun _ =>
    respects_readStub name kind
  failure {start _ _} failed := by
    rcases readStub_asked_or_unasked name kind start with ⟨_, _, passed⟩ | ⟨_, passed⟩
    · cases passed.symm.trans failed
    · cases passed.symm.trans failed

theorem judges_group (sign : Expr → Expr) : Reader.Judges (readInner.group sign) :=
  Expr.judges_read.bind fun _ => judges_readClose.bind fun _ => Reader.judges_pure _

theorem judges_readInner : Reader.Judges readInner where
  stays := Reader.inStatement_of_respects passes_readInner fun _ => respects_readInner
  failure {start _ _} failed := by
    by_cases minus : start.Starts [.punct .dash, .punct .openParen]
    · rw [readInner_of_minus minus] at failed
      exact (judges_group _).failure_behind minus (by simp) failed
    by_cases plus : start.Starts [.punct .plus, .punct .openParen]
    · rw [readInner_of_plus plus] at failed
      exact (judges_group _).failure_behind plus (by simp) failed
    · rw [readInner_of_unsigned minus plus] at failed
      exact Expr.judges_read.failure failed

theorem judges_readArgument (name : String) (kind : Modifier) (negated : Bool) :
    Reader.Judges (readArgument name kind negated) :=
  (judges_readStub name kind).bind fun _ => judges_readInner.bind fun _ =>
    judges_readClose.bind fun _ => Reader.judges_pure _

theorem judges_half (negated : Bool) (kind : Modifier) :
    Reader.Judges (readUnsigned.half negated kind) :=
  Expr.judges_read.bind fun _ => Reader.judges_pure _

theorem judges_plainExpr : Reader.Judges readUnsigned.plainExpr :=
  Expr.judges_read.bind fun _ => Reader.judges_pure _

/-- A name that is called and is no modifier stands on the line with its parenthesis. -/
theorem defect_of_unknown {cursor : Cursor} {signs : List TokenKind} {negated : Bool}
    {name : String} (sign : Sign signs negated)
    (starts : cursor.Starts (signs ++ [.name name, .punct .openParen]))
    (unknown : Modifier.ofName? name = none) :
    Defect cursor.line ⟨.unknownModifier name, (cursor.advance signs.length).span⟩ := by
  obtain ⟨-, behind⟩ := read_of_sign sign starts
  simp only [Cursor.Starts, prefix_kinds_iff] at behind
  obtain ⟨span, _, here, span', more, rfl, -⟩ := behind
  have called : [⟨.name name, span⟩, ⟨.punct .openParen, span'⟩] <+:
      (cursor.advance signs.length).line := by
    simp [Cursor.line, here]
  have place : (cursor.advance signs.length).span = span := by
    simp [Cursor.span, Cursor.peek?, here]
  have inside : ∀ kind ∈ signs, kind ≠ .endOfStatement := by
    cases sign <;> simp
  have leads : cursor.Starts signs := (List.prefix_append signs _).trans starts
  have later := (Cursor.inStatement_of_starts leads inside).line_suffix
  rw [place]
  exact (Defect.modifier called.isInfix unknown).mono later.isInfix

theorem judges_read : Reader.Judges read where
  stays := Reader.inStatement_of_respects passes_read fun _ => respects_read
  failure {start _ _} failed := by
    rcases half_or_named_or_plain start with
      ⟨p, kind, half, starts⟩ | ⟨signs, negated, name, sign, starts⟩ | plain
    · rw [read_of_half half starts] at failed
      exact (judges_half false kind).failure_behind starts (by simp) failed
    · cases known : Modifier.ofName? name with
      | some kind =>
        have inside : ∀ kind ∈ signs ++ [.name name, .punct .openParen],
            kind ≠ TokenKind.endOfStatement := by
          cases sign <;> simp
        have length : signs.length + 2 =
            (signs ++ [TokenKind.name name, .punct .openParen]).length := by simp
        rw [read_of_modifier known sign starts, length] at failed
        exact (judges_readArgument name kind negated).failure_behind starts inside failed
      | none =>
        obtain ⟨same, behind⟩ := read_of_sign sign starts
        rw [same, readUnsigned_of_unknown known behind] at failed
        cases failed
        exact .inr (defect_of_unknown sign starts known)
    · rw [read_of_plain plain] at failed
      exact judges_plainExpr.failure failed

end OperandExpr

namespace Operand

variable {config : Config} {features : FeatureSet} {first : Bool} {token : Token}
  {line line' : List Token} {cursor after : Cursor} {diagnostic : Diagnostic}

theorem failure_of_readImmediate (failed : readImmediate cursor = .error diagnostic after) :
    diagnostic.cause.isExpectation ∨ Defect cursor.line diagnostic := by
  unfold readImmediate at failed
  split at failed
  · cases failed
  · next found =>
    cases failed
    exact OperandExpr.judges_read.failure found

/-- Where an expression is only looked for, nothing is expected. -/
theorem defect_of_readBare
    (failed : readBare features first token cursor = .error diagnostic after) :
    Defect cursor.line diagnostic := by
  unfold readBare at failed
  split at failed
  · cases failed
  split at failed
  · cases failed
  split at failed
  · cases failed
  split at failed
  · split at failed
    · cases failed
    · next found =>
      split at failed
      · cases failed
      · next refused =>
        cases failed
        exact (failure_of_readImmediate found).resolve_left refused
  · cases failed

theorem defect_of_readPastDelimiter
    (failed : readPastDelimiter features first token cursor = .error diagnostic after) :
    Defect cursor.line diagnostic := by
  unfold readPastDelimiter at failed
  split at failed
  · cases failed
  split at failed
  · cases failed
  split at failed
  · cases failed
  · next found =>
    cases failed
    exact defect_of_readBare found

/-- The reasons for which a line of operands is rejected. -/
inductive Rejected (config : Config) (line : List Token) : Diagnostic → Prop
  | immediate {span : Span} (hash : ∃ token ∈ line, token.kind = .punct .hash) :
      Rejected config line ⟨.expected .immediate, span⟩
  | afterParen {span : Span} (strict : config.policy = .fatal)
      (opens : ∃ token ∈ line, token.kind = .punct .openParen) :
      Rejected config line ⟨.expected .afterParen, span⟩
  | afterBracket {span : Span} (strict : config.policy = .fatal)
      (long : .mosw65816 ∈ config.features)
      (opens : ∃ token ∈ line, token.kind = .punct .openBracket) :
      Rejected config line ⟨.expected .afterBracket, span⟩
  | defect {diagnostic : Diagnostic} (h : Defect line diagnostic) :
      Rejected config line diagnostic

theorem Rejected.mono (h : Rejected config line diagnostic) (inside : line <:+: line') :
    Rejected config line' diagnostic := by
  have among {kind : TokenKind} : (∃ token ∈ line, token.kind = kind) →
      ∃ token ∈ line', token.kind = kind := by
    rintro ⟨token, found, same⟩
    exact ⟨token, inside.subset found, same⟩
  cases h with
  | immediate hash => exact .immediate (among hash)
  | afterParen strict opens => exact .afterParen strict (among opens)
  | afterBracket strict long opens => exact .afterBracket strict long (among opens)
  | defect h => exact .defect (h.mono inside)

theorem Rejected.of_delimiter {what : Expected} {span : Span} (strict : config.policy = .fatal)
    (found : token ∈ line) (delimits : delimiter? config.features token.kind = some what) :
    Rejected config line ⟨.expected what, span⟩ := by
  unfold delimiter? at delimits
  split at delimits
  · next same =>
    cases delimits
    exact .afterParen strict ⟨token, found, same⟩
  · next same =>
    split at delimits
    · next long =>
      cases delimits
      exact .afterBracket strict long ⟨token, found, same⟩
    · cases delimits
  · cases delimits

theorem rejected_of_readHash (here : cursor.peek? = some token) (hash : token.kind = .punct .hash)
    (failed : readHash token cursor = .error diagnostic after) :
    Rejected config cursor.line diagnostic := by
  have inside : token.kind ≠ .endOfStatement := hash ▸ nofun
  unfold readHash at failed
  split at failed
  · cases failed
  · next missed =>
    cases failed
    rcases failure_of_readImmediate missed with expects | defect
    · rw [Diagnostic.expecting, if_pos expects]
      exact .immediate ⟨token, Cursor.mem_line_of_peek here inside, hash⟩
    · rw [defect.expecting_eq]
      exact .defect (defect.mono (Cursor.inStatement_advance_one here inside).line_suffix.isInfix)

theorem rejected_of_readDelimited {what : Expected} (here : cursor.peek? = some token)
    (inside : token.kind ≠ .endOfStatement)
    (delimits : delimiter? config.features token.kind = some what)
    (failed : readDelimited config what first token cursor = .error diagnostic after) :
    Rejected config cursor.line diagnostic := by
  have later := (Cursor.inStatement_advance_one here inside).line_suffix.isInfix
  unfold readDelimited at failed
  split at failed
  · cases failed
  next missed =>
  split at failed
  · exact .defect ((defect_of_readPastDelimiter failed).mono later)
  next fatal =>
  cases failed
  rcases failure_of_readImmediate missed with expects | defect
  · have strict : config.policy = .fatal := by
      cases policy : config.policy with
      | fatal => rfl
      | fallThrough => exact absurd ⟨expects, policy⟩ fatal
    rw [Diagnostic.expecting, if_pos expects]
    exact .of_delimiter strict (Cursor.mem_line_of_peek here inside) delimits
  · rw [defect.expecting_eq]
    exact .defect (defect.mono later)

theorem rejected_of_readItem (here : cursor.peek? = some token)
    (inside : token.kind ≠ .endOfStatement)
    (failed : readItem config first token cursor = .error diagnostic after) :
    Rejected config cursor.line diagnostic := by
  unfold readItem at failed
  split at failed
  · next hash => exact rejected_of_readHash here hash failed
  split at failed
  · next delimits => exact rejected_of_readDelimited here inside delimits failed
  · exact .defect (defect_of_readBare failed)

/-- What is wrong at an item is wrong with the line, wherever the item stands on it. -/
theorem rejected_of_readItems (failed : readItems config first cursor = .error diagnostic after) :
    Rejected config cursor.line diagnostic := by
  fun_induction readItems config first cursor with
  | case1 | case2 | case3 => cases failed
  | case4 first cursor current here inside item between found diagnostic' stop later ih =>
    cases failed
    have stays := inStatement_readItem config first here inside
    rw [found] at stays
    exact (ih later).mono stays.line_suffix.isInfix
  | case5 first cursor current here inside diagnostic' stop found =>
    cases failed
    exact rejected_of_readItem here inside found

/-- What an expression expected is not a reason to reject a line. -/
theorem Rejected.cause_ne (h : Rejected config line diagnostic) :
    diagnostic.cause ≠ .expected .expression ∧ diagnostic.cause ≠ .expected .closeParen := by
  cases h with
  | immediate | afterParen | afterBracket => exact ⟨nofun, nofun⟩
  | defect h =>
    cases h with
    | number | modifier => exact ⟨nofun, nofun⟩

/-- Where nothing introduces an expression and nothing is called, a number is out of range. -/
theorem Rejected.cause_eq (h : Rejected config line diagnostic)
    (bare : ∀ token ∈ line, token.kind ≠ .punct .hash ∧ token.kind ≠ .punct .openParen ∧
      token.kind ≠ .punct .openBracket) : diagnostic.cause = .literalRange := by
  cases h with
  | immediate hash =>
    obtain ⟨token, among, same⟩ := hash
    exact absurd same (bare token among).1
  | afterParen strict opens =>
    obtain ⟨token, among, same⟩ := opens
    exact absurd same (bare token among).2.1
  | afterBracket strict long opens =>
    obtain ⟨token, among, same⟩ := opens
    exact absurd same (bare token among).2.2
  | defect h =>
    cases h with
    | number => rfl
    | modifier called unknown =>
      have among := called.subset (List.mem_cons_of_mem _ (List.mem_singleton_self _))
      exact absurd rfl (bare _ among).2.1

/-- A line is rejected because no expression follows `#` or, under the strict policy, a delimiter,
or for a defect of its tokens. What was expected inside an expression is never the reason, and
without `#` and opening delimiters only a number out of range is. -/
theorem readLine_rejected (config : Config) (name : String) (place : Span) (tokens : List Token)
    (start : Nat) {diagnostic : Diagnostic} {after : Cursor}
    (failed : readLine config ⟨.name name, place⟩ (.atIndex tokens start) =
      .error diagnostic after) :
    Rejected config (Cursor.atIndex tokens start).line diagnostic ∧
      diagnostic.cause ≠ .expected .expression ∧ diagnostic.cause ≠ .expected .closeParen ∧
      ((∀ token ∈ (Cursor.atIndex tokens start).line, token.kind ≠ .punct .hash ∧
          token.kind ≠ .punct .openParen ∧ token.kind ≠ .punct .openBracket) →
        diagnostic.cause = .literalRange) := by
  have items : readItems config true (.atIndex tokens start) = .error diagnostic after := by
    simp only [readLine, TokenKind.name?] at failed
    split at failed
    · cases failed
    · next found =>
      cases failed
      exact found
  have rejected := rejected_of_readItems items
  exact ⟨rejected, rejected.cause_ne.1, rejected.cause_ne.2, rejected.cause_eq⟩

/-- Behind the register in `lda x,4294967296` an expression is still read, of which the number has
no value. -/
theorem readLine_rejected_out_of_range :
    let mnemonic : Token := ⟨.name "lda", ⟨0, 3⟩⟩
    let tokens : List Token := [mnemonic, ⟨.name "x", ⟨4, 1⟩⟩, ⟨.punct .comma, ⟨5, 1⟩⟩,
      ⟨.number .decimal "4294967296", ⟨6, 10⟩⟩, ⟨.endOfStatement, ⟨16, 0⟩⟩]
    ∃ diagnostic after, readLine {} mnemonic (.atIndex tokens 1) = .error diagnostic after ∧
      Rejected {} (Cursor.atIndex tokens 1).line diagnostic ∧
      diagnostic.cause = .literalRange := by
  intro mnemonic tokens
  have register : readItem {} true tokens[1] (.atIndex tokens 1) =
      .ok ⟨[.register .x ⟨4, 1⟩], true⟩ (.atIndex tokens 2) := by cbv
  have number : readItem {} true tokens[3] (.atIndex tokens 3) =
      .error ⟨.literalRange, ⟨6, 10⟩⟩ (.atIndex tokens 4) := by cbv
  have behind : readItems {} true (.atIndex tokens 2) =
      .error ⟨.literalRange, ⟨6, 10⟩⟩ (.atIndex tokens 4) := by
    rw [readItems_comma rfl rfl, Cursor.atIndex_advance]
    exact readItems_of_error rfl (by decide) number
  have failed : readLine {} mnemonic (.atIndex tokens 1) =
      .error ⟨.literalRange, ⟨6, 10⟩⟩ (.atIndex tokens 4) := by
    simp only [readLine, mnemonic, TokenKind.name?]
    rw [readItems_of_ok rfl (by decide) register]
    simp only [behind]
  obtain ⟨rejected, -, -, range⟩ := readLine_rejected {} "lda" ⟨0, 3⟩ tokens 1 failed
  exact ⟨_, _, failed, rejected, range (by decide)⟩

end Operand

end Asm65
