import Asm65.Proofs.Instruction
import Asm65.Proofs.LetterCase.Lexer
import Asm65.Proofs.LetterCase.Operand
import Asm65.Table.Builtin

/-!
# Assembling in lower case

A source without a quote assembles in lower case to what it assembles to, in
lower case (`ofSource_toLower`). So two such sources that differ in letter case
assemble to statements and diagnostics that differ in letter case at most.
-/

namespace Asm65

namespace AddressText

theorem ofAddress?_toLower (address : Expr) (chars : Nat) (span : Span) :
    ofAddress? address.toLower chars span = (ofAddress? address chars span).map toLower := by
  simp only [ofAddress?, Expr.value?_toLower]
  cases address.value? with
  | none => rfl
  | some value =>
    dsimp only
    split <;> rfl

theorem lowers_readCount : Reader.Lowers id readCount readCount := by
  intro cursor
  unfold readCount
  rw [Expr.lowers_read cursor]
  cases Expr.read cursor with
  | ok count after =>
    simp only [Reader.lower, Expr.value?_toLower, Cursor.spanSince_toLower, id_eq]
  | error diagnostic after => rfl

theorem lowers_ofParts (start afterAddress : Cursor) (address : Expr)
    (counted : Option Int64 × Span) :
    Reader.Lowers toLower (ofParts start afterAddress address counted)
      (ofParts start.toLower afterAddress.toLower address.toLower counted) := by
  intro after
  obtain ⟨_ | count, countSpan⟩ := counted
  · rfl
  · simp only [ofParts, ofAddress?_toLower, Cursor.spanSince_toLower, Cursor.span_toLower,
      Cursor.atEndOfStatement_toLower_iff]
    cases charCount? count with
    | none => rfl
    | some chars =>
      dsimp only
      split
      · cases ofAddress? address chars (start.spanSince after) <;> rfl
      · rfl

theorem lowers_read : Reader.Lowers toLower read read := by
  intro start
  unfold read
  rw [Expr.lowers_read start]
  cases Expr.read start with
  | error diagnostic after => rfl
  | ok address afterAddress =>
    simp only [Reader.lower]
    rw [Reader.lowers_expect .comma .charCount afterAddress]
    cases Reader.expect (.punct .comma) .charCount afterAddress with
    | error diagnostic after => rfl
    | ok _ afterComma =>
      simp only [Reader.lower]
      rw [lowers_readCount afterComma]
      cases readCount afterComma with
      | error diagnostic after => rfl
      | ok counted after => exact lowers_ofParts start afterAddress address counted after

end AddressText

namespace Outcome

variable {operands : List Operand}

theorem mnemonicSpan_toLower (operands : List Operand) :
    mnemonicSpan (operands.map Operand.toLower) = mnemonicSpan operands := by
  cases operands with
  | nil => rfl
  | cons mnemonic _ => exact mnemonic.span_toLower

theorem endOf_toLower (operands : List Operand) :
    endOf (operands.map Operand.toLower) = endOf operands := by
  simp only [endOf, List.getLast?_map, Option.map_map, Function.comp_def, Operand.span_toLower]

theorem operandCause_toLower (expected : Option Shape) :
    (operandCause expected).toLower = operandCause expected := by
  unfold operandCause
  split <;> rfl

/-- Outcomes of operands and of those in lower case come to the same result, in lower case. -/
theorem Agree.result_toLower {outcome outcome' : Outcome}
    (h : Agree operands (operands.map Operand.toLower) outcome outcome') :
    outcome'.result (operands.map Operand.toLower) =
      ((outcome.result operands).map Instruction.toLower).mapError Diagnostic.toLower := by
  cases h with
  | matched template => rfl
  | failed outcome failed =>
    cases outcome with
    | matched found => exact absurd rfl (failed found)
    | unknownMnemonic | ambiguousNearMiss =>
      simp only [result, mnemonicSpan_toLower]
      rfl
    | missingFeature index missing =>
      simp only [result, mnemonicSpan_toLower, List.getElem?_map]
      cases operands[index]? with
      | none => rfl
      | some operand => simp only [Option.map_some, Operand.span_toLower]; rfl
    | invalidOperand index expected =>
      simp only [result, endOf_toLower, List.getElem?_map]
      cases operands[index]? with
      | none => rfl
      | some operand =>
        simp only [Option.map_some, Operand.span_toLower, Except.map, Except.mapError,
          Diagnostic.toLower, operandCause_toLower]

end Outcome

namespace Statement

theorem readInstruction_toLower (table : Table) (config : Config) (mnemonic : Token)
    {cursor : Cursor} (h : cursor.Unquoted) :
    readInstruction table config mnemonic.toLower cursor.toLower =
      Reader.lower toLower (readInstruction table config mnemonic cursor) := by
  unfold readInstruction
  rw [Operand.readLine_toLower config mnemonic h]
  cases line : Operand.readLine config mnemonic cursor with
  | error diagnostic after => rfl
  | ok operands after =>
    obtain ⟨name, rest, -, rfl, -⟩ := Operand.readLine_eq_ok_iff.1 line
    have shapes : List.Forall₂ Operand.SameShapes rest (rest.map Operand.toLower) := by
      rw [List.forall₂_map_right_iff, List.forall₂_same]
      exact fun operand _ shape => (operand.admits_toLower shape).symm
    have outcomes := Outcome.ofOperands_sameShapes table config.features
      (Text.sameIgnoringCase_toLower_iff.2 (Text.SameIgnoringCase.refl name)).symm
      mnemonic.span mnemonic.span shapes
    have results := Outcome.Agree.result_toLower outcomes
    simp only [Reader.lower, List.map_cons, Operand.toLower] at results ⊢
    rw [results]
    cases Outcome.result _ _ <;> rfl

theorem lowers_readDirective (name : String) (span : Span) :
    Reader.Lowers toLower (readDirective name span) (readDirective name.toLower span) := by
  intro cursor
  simp only [readDirective, Text.sameIgnoringCase_toLower_iff]
  split
  · rw [AddressText.lowers_read cursor]
    cases AddressText.read cursor <;> rfl
  · rfl

/-- A dot is the same in both cases. -/
theorem head?_toLower_eq_dot_iff {name : String} :
    name.toLower.toList.head? = some '.' ↔ name.toList.head? = some '.' := by
  rw [Text.toList_toLower, Token.head?_toLower_iff rfl rfl]

/-- A statement in lower case is read from tokens in lower case. -/
theorem read_toLower (table : Table) (config : Config) {cursor : Cursor} (h : cursor.Unquoted) :
    read table config cursor.toLower = Reader.lower toLower (read table config cursor) := by
  simp only [read, Cursor.peek?_toLower, Cursor.span_toLower, Cursor.advance_toLower]
  cases here : cursor.peek? with
  | none => rfl
  | some token =>
    have behind := h.later (Cursor.laterBy_advance_one here)
    simp only [Option.map_some, Token.kind_toLower, Token.span_toLower, TokenKind.name?_toLower]
    cases token.kind.name? with
    | none => rfl
    | some name =>
      simp only [Option.map_some, head?_toLower_eq_dot_iff]
      split
      · exact lowers_readDirective name token.span _
      · exact readInstruction_toLower table config token behind

end Statement

namespace Cursor

theorem statementLength_toLower (tokens : List Token) :
    statementLength (tokens.map Token.toLower) = statementLength tokens := by
  induction tokens with
  | nil => rfl
  | cons token rest ih =>
    simp only [List.map_cons, statementLength, Token.kind_toLower,
      TokenKind.toLower_eq_endOfStatement_iff, ih]

theorem skipStatement_toLower (cursor : Cursor) :
    cursor.toLower.skipStatement = cursor.skipStatement.toLower := by
  rw [skipStatement, skipStatement, ← advance_toLower]
  exact congrArg cursor.toLower.advance (statementLength_toLower cursor.rest)

theorem next_toLower (cursor : Cursor) : cursor.toLower.next.2 = cursor.next.2.toLower := by
  simp only [next, peek?_toLower, advance_toLower]
  cases cursor.peek? <;> rfl

theorem ofTokens_toLower (tokens : List Token) :
    ofTokens (tokens.map Token.toLower) = (ofTokens tokens).toLower := by
  simp only [ofTokens, atIndex, stopOf, toLower, List.map_drop, List.getLast?_map, Option.map_map,
    Function.comp_def, Token.span_toLower]

end Cursor

namespace Assembly

theorem step_toLower (table : Table) (config : Config) {cursor : Cursor} (h : cursor.Unquoted) :
    step table config cursor.toLower =
      ((step table config cursor).1.toLower, (step table config cursor).2.toLower) := by
  by_cases label : ∃ name, cursor.Starts [.name name, .punct .colon]
  · obtain ⟨name, here⟩ := label
    rw [step_of_label here, step_of_label here.toLower, Cursor.span_toLower, Cursor.advance_toLower]
    rfl
  · have label' := mt Cursor.exists_starts_name_toLower_iff.1 label
    by_cases ended : cursor.AtEndOfStatement
    · simp only [step, if_pos ended, if_pos (Cursor.atEndOfStatement_toLower_iff.2 ended),
        Cursor.advance_toLower]
      rfl
    · rw [step_of_no_label ended (not_exists.1 label),
        step_of_no_label (mt Cursor.atEndOfStatement_toLower_iff.1 ended) (not_exists.1 label'),
        Statement.read_toLower table config h]
      cases Statement.read table config cursor with
      | ok statement after =>
        simp only [Reader.lower, Cursor.next_toLower]
        rfl
      | error diagnostic after =>
        simp only [Reader.lower, Cursor.skipStatement_toLower]
        rfl

theorem ofCursor_toLower (table : Table) (config : Config) {cursor : Cursor}
    (h : cursor.Unquoted) :
    ofCursor table config cursor.toLower = (ofCursor table config cursor).toLower := by
  fun_induction ofCursor table config cursor with
  | case1 cursor empty =>
    exact ofCursor_of_end table config (List.map_eq_nil_iff.2 empty)
  | case2 cursor left ih =>
    have left' : cursor.toLower.rest ≠ [] := mt List.map_eq_nil_iff.1 left
    rw [ofCursor_of_rest table config left', step_toLower table config h, toLower_append,
      ih (h.later (laterBy_step table config left))]

/-- A source that can be lexed assembles in lower case to the same in lower case. -/
theorem ofSource_toLower (table : Table) (config : Config) {source : String}
    {tokens : List Token} (lexed : Token.lex source = .ok tokens) (h : '\'' ∉ source.toList) :
    ofSource table config source.toLower = (ofSource table config source).toLower := by
  have lexed' : Token.lex source.toLower = .ok (tokens.map Token.toLower) := by
    rw [Token.lex_toLower h, lexed]
    rfl
  have unquoted : (Cursor.ofTokens tokens).Unquoted := Token.unquoted_of_lex lexed h
  simp only [ofSource, lexed, lexed', Cursor.ofTokens_toLower]
  exact ofCursor_toLower table config unquoted

/-- Assembling takes no notice of letter case. Two sources without a quote that differ in letter
case are malformed at the same place, or assemble to statements and diagnostics that differ in
letter case at most. -/
theorem ofSource_sameIgnoringCase (table : Table) (config : Config) {source source' : String}
    (same : Text.SameIgnoringCase source source') (h : '\'' ∉ source.toList) :
    (∃ diagnostic, Token.lex source = .error diagnostic ∧ Token.lex source' = .error diagnostic) ∨
      ((∃ tokens, Token.lex source = .ok tokens) ∧ (∃ tokens, Token.lex source' = .ok tokens) ∧
        List.Forall₂ Statement.SameIgnoringCase (ofSource table config source).statements
          (ofSource table config source').statements ∧
        List.Forall₂ Diagnostic.SameIgnoringCase (ofSource table config source).diagnostics
          (ofSource table config source').diagnostics) := by
  have h' := mt (same.mem_iff rfl rfl).2 h
  obtain failed | ⟨tokens, tokens', lexed, lexed', -⟩ := Token.lex_sameIgnoringCase same h
  · exact .inl failed
  · have lower := ofSource_toLower table config lexed h
    rw [same, ofSource_toLower table config lexed' h'] at lower
    injection lower with statements diagnostics
    refine .inr ⟨⟨tokens, lexed⟩, ⟨tokens', lexed'⟩, ?_, ?_⟩
    · exact (forall₂_of_map_eq statements.symm).imp
        fun _ _ => Statement.sameIgnoringCase_of_toLower
    · exact (forall₂_of_map_eq diagnostics.symm).imp
        fun _ _ => Diagnostic.sameIgnoringCase_of_toLower

/-- A label, a modifier with a hexadecimal numeral, and a directive that is not supported. -/
theorem ofSource_sameIgnoringCase_modifier :
    Text.SameIgnoringCase "x: lda #lo(0XaB)\n.Word" "X: LDA #Lo(0xAb)\n.wORD" ∧
      List.Forall₂ Statement.SameIgnoringCase
        (ofSource Table.builtin {} "x: lda #lo(0XaB)\n.Word").statements
        (ofSource Table.builtin {} "X: LDA #Lo(0xAb)\n.wORD").statements ∧
      List.Forall₂ Diagnostic.SameIgnoringCase
        (ofSource Table.builtin {} "x: lda #lo(0XaB)\n.Word").diagnostics
        (ofSource Table.builtin {} "X: LDA #Lo(0xAb)\n.wORD").diagnostics := by
  have same : Text.SameIgnoringCase "x: lda #lo(0XaB)\n.Word" "X: LDA #Lo(0xAb)\n.wORD" := by
    rw [Text.SameIgnoringCase]
    cbv
  have lexed : (Token.lex "x: lda #lo(0XaB)\n.Word").isOk := by cbv
  obtain ⟨_, failed, _⟩ | ⟨-, -, statements, diagnostics⟩ :=
    ofSource_sameIgnoringCase Table.builtin {} same (by decide +kernel)
  · rw [failed] at lexed
    cases lexed
  · exact ⟨same, statements, diagnostics⟩

end Assembly

end Asm65
