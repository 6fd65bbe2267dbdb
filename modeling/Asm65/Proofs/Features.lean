import Asm65.Proofs.Causes
import Asm65.Proofs.Features.Matching
import Asm65.Proofs.Lexer
import Asm65.Table.Builtin

/-!
# More features

Enabling features keeps every statement that was assembled without them
(`ofSource_of_subset`), and enabling the features that a diagnostic names makes
its line an instruction (`ofLine_missingFeature`). Both hold of the built-in
table, where no template shadows a later one and every bracket opens a value.
-/

namespace Asm65

/-- Whether more features change nothing that matches in a table. -/
structure Table.IsGradual (table : Table) : Prop where
  unshadowed : Unshadowed table.templates.toList
  brackets : ∀ template ∈ table.templates.toList, Shape.BracketsOpenValues template.shapes

variable {table : Table} {features features' missing : FeatureSet} {policy : DelimiterPolicy}
  {start after : Cursor}

/-- Operands that fit a template are read the same with more features. -/
theorem Table.IsGradual.readItems_of_fits (gradual : table.IsGradual) {template : Template}
    (among : template ∈ table.templates.toList) {mnemonic : Operand} {operands : List Operand}
    (fits : template.Fits (mnemonic :: operands)) (enabled : features ⊆ features')
    (read : Operand.readItems ⟨features, policy⟩ true start = .ok operands after) :
    Operand.readItems ⟨features', policy⟩ true start = .ok operands after := by
  apply Operand.readItems_of_subset enabled read
  by_cases long : .mosw65816 ∈ features
  · exact .inl long
  · obtain ⟨plain, -⟩ := Operand.readItems_unbracketed long read
    exact .inr (Shape.not_bracket_of_admits (Template.fits_iff.1 fits)
      (gradual.brackets template among) plain)

/-- Only a missing feature is diagnosed as one. -/
theorem Outcome.eq_missingFeature_of_result {operands : List Operand} {outcome : Outcome}
    {span : Span} (h : outcome.result operands = .error ⟨.missingFeature missing, span⟩) :
    ∃ index, outcome = .missingFeature index missing := by
  cases outcome with
  | matched | unknownMnemonic | ambiguousNearMiss => cases h
  | missingFeature index missing' =>
    simp only [result] at h
    split at h <;> cases h <;> exact ⟨index, rfl⟩
  | invalidOperand index expected =>
    simp only [result] at h
    split at h
    · have same := congrArg Diagnostic.cause (Except.error.inj h)
      unfold operandCause at same
      split at same <;> cases same
    · cases h

namespace Statement

/-- A statement is read the same with more features. -/
theorem read_of_subset (gradual : table.IsGradual) (enabled : features ⊆ features')
    {statement : Statement} (h : read table ⟨features, policy⟩ start = .ok statement after) :
    read table ⟨features', policy⟩ start = .ok statement after := by
  apply read_of_readInstruction _ h
  intro mnemonic start statement after h
  obtain ⟨name, operands, found, named, items, matched, rfl⟩ := readInstruction_eq_ok_iff.1 h
  obtain ⟨_, _, _, same, -, among, fits, -⟩ := Outcome.ofOperands_eq_matched matched
  cases same
  rw [Table.lookup_eq_filter] at among
  have items' := gradual.readItems_of_fits (List.mem_of_mem_filter among) fits enabled items
  have matched' := Outcome.ofOperands_of_subset gradual.unshadowed enabled matched
  exact readInstruction_eq_ok_iff.2 ⟨name, operands, found, named, items', matched', rfl⟩

/-- A statement that lacks a feature is an instruction of the same operands with it. -/
theorem exists_read_of_missingFeature (gradual : table.IsGradual) {span : Span}
    (h : read table ⟨features, policy⟩ start = .error ⟨.missingFeature missing, span⟩ after) :
    missing ≠ ∅ ∧ missing ∩ features = ∅ ∧ ∃ mnemonic operands template,
      start.peek? = some mnemonic ∧
        Operand.readLine ⟨features, policy⟩ mnemonic (start.advance 1) = .ok operands after ∧
        read table ⟨features ∪ missing, policy⟩ start =
          .ok (.instruction ⟨template, operands⟩) after := by
  obtain ⟨token, name, operands, here, named, plain, items, failed⟩ :=
    exists_outcome_of_read h id
  obtain ⟨index, outcome⟩ := Outcome.eq_missingFeature_of_result failed
  obtain ⟨-, lacking, apart, template, among, fits, matched⟩ :=
    Outcome.ofOperands_union_missing outcome
  have enabled := FeatureSet.subset_union_left features missing
  have items' : Operand.readItems ⟨features ∪ missing, policy⟩ true (start.advance 1) =
      .ok operands after := gradual.readItems_of_fits among fits enabled items
  have line := Operand.readLine_eq_ok_iff.2 ⟨name, operands, named, rfl, items⟩
  refine ⟨lacking, apart, token, _, template, here, line, ?_⟩
  simp only [read, here, named, TokenKind.name?, plain, if_false]
  exact readInstruction_eq_ok_iff.2 ⟨name, operands, _, named, items', matched, rfl⟩

end Statement

/-- The built-in table is gradual. -/
theorem Table.builtin_isGradual : Table.builtin.IsGradual := by
  constructor
  · rw [builtin, ofTemplates, List.toList_toArray]
    decide +kernel
  · rw [builtin, ofTemplates, List.toList_toArray]
    decide +kernel

namespace Assembly

/-- What a line comes to is kept when more features are enabled. -/
theorem keptIn_ofCursor (gradual : table.IsGradual) (enabled : features ⊆ features')
    {line : List Token} (h : Line line) {cursor : Cursor} (here : cursor.rest = line) :
    (ofCursor table ⟨features, policy⟩ cursor).KeptIn
      (ofCursor table ⟨features', policy⟩ cursor) :=
  keptIn_of_read (fun _ _ _ => Statement.read_of_subset gradual enabled) h here

/-- Enabling features keeps what a source comes to, line by line. -/
theorem ofSource_of_subset (enabled : features ⊆ features') (policy : DelimiterPolicy)
    {source : String} {tokens : List Token} (lexed : Token.lex source = .ok tokens) :
    ofSource .builtin ⟨features, policy⟩ source =
        ofLines .builtin ⟨features, policy⟩ (splitLines tokens) ∧
      ofSource .builtin ⟨features', policy⟩ source =
        ofLines .builtin ⟨features', policy⟩ (splitLines tokens) ∧
      ∀ line ∈ splitLines tokens,
        (ofCursor .builtin ⟨features, policy⟩ (.ofTokens line)).KeptIn
          (ofCursor .builtin ⟨features', policy⟩ (.ofTokens line)) := by
  refine ⟨ofSource_eq_ofLines _ _ lexed, ofSource_eq_ofLines _ _ lexed, fun line among => ?_⟩
  have whole := line_of_mem_splitLines (.inr (Token.endsStatement_of_lex lexed)) line among
  exact keptIn_ofCursor Table.builtin_isGradual enabled whole rfl

/-- A line that only the long chips match, and one that all of them do. -/
theorem ofSource_of_subset_brackets : ∃ tokens, Token.lex "lda [4]\nlda 4,x" = .ok tokens ∧
    ({.mos6502} : FeatureSet) ⊆ .ofList [.mos6502, .mosw65816] ∧
    ∀ line ∈ splitLines tokens,
      (ofCursor .builtin ⟨{.mos6502}, .fatal⟩ (.ofTokens line)).KeptIn
        (ofCursor .builtin ⟨.ofList [.mos6502, .mosw65816], .fatal⟩ (.ofTokens line)) := by
  have lexed : Token.lex "lda [4]\nlda 4,x" = .ok [⟨.name "lda", ⟨0, 3⟩⟩,
      ⟨.punct .openBracket, ⟨4, 1⟩⟩, ⟨.number .decimal "4", ⟨5, 1⟩⟩,
      ⟨.punct .closeBracket, ⟨6, 1⟩⟩, ⟨.endOfStatement, ⟨7, 1⟩⟩, ⟨.name "lda", ⟨8, 3⟩⟩,
      ⟨.number .decimal "4", ⟨12, 1⟩⟩, ⟨.punct .comma, ⟨13, 1⟩⟩, ⟨.name "x", ⟨14, 1⟩⟩,
      ⟨.endOfStatement, ⟨15, 0⟩⟩] := by cbv
  have enabled : ({.mos6502} : FeatureSet) ⊆ .ofList [.mos6502, .mosw65816] := by decide
  exact ⟨_, lexed, enabled, (ofSource_of_subset enabled .fatal lexed).2.2⟩

/-- A line that lacks a feature is an instruction with the same operands once the features that
the diagnostic names are enabled. -/
theorem ofLine_missingFeature {source : String} {tokens line : List Token} {span : Span}
    (lexed : Token.lex source = .ok tokens) (among : line ∈ splitLines tokens)
    (failed : ⟨.missingFeature missing, span⟩ ∈
      (ofCursor .builtin ⟨features, policy⟩ (.ofTokens line)).diagnostics) :
    missing ≠ ∅ ∧ missing ∩ features = ∅ ∧
      ∃ labels start mnemonic operands after template,
        ofCursor .builtin ⟨features, policy⟩ (.ofTokens line) =
            ⟨labels, [⟨.missingFeature missing, span⟩]⟩ ∧
          start = (Cursor.ofTokens line).advance (2 * labels.length) ∧
          start.peek? = some mnemonic ∧
          Operand.readLine ⟨features, policy⟩ mnemonic (start.advance 1) = .ok operands after ∧
          ofCursor .builtin ⟨features ∪ missing, policy⟩ (.ofTokens line) =
            ⟨labels ++ [.instruction ⟨template, operands⟩], []⟩ := by
  have whole := line_of_mem_splitLines (.inr (Token.endsStatement_of_lex lexed)) line among
  obtain ⟨labels, -, -, unlabelled, made⟩ :=
    exists_labels whole (rfl : (Cursor.ofTokens line).rest = line)
  have failed' := failed
  rw [made] at failed'
  have here : _ ∈ (step .builtin ⟨features, policy⟩ _).1.diagnostics := failed'
  by_cases ended : ((Cursor.ofTokens line).advance (2 * labels.length)).AtEndOfStatement
  · simp only [step, if_pos ended] at here
    cases here
  · rw [step_of_no_label ended unlabelled] at here
    split at here
    · cases here
    · next read =>
      cases List.mem_singleton.1 here
      obtain ⟨lacking, apart, mnemonic, operands, template, peek, line, read'⟩ :=
        Statement.exists_read_of_missingFeature Table.builtin_isGradual read
      refine ⟨lacking, apart, labels, _, mnemonic, operands, _, template, ?_, rfl, peek, line, ?_⟩
      · rw [made, step_of_no_label ended unlabelled, read]
        exact congrArg (Assembly.mk · _) (List.append_nil labels)
      · rw [made, step_of_no_label ended unlabelled, read']
        rfl

/-- The tokens of `stz $10`. -/
def pageStore : List Token :=
  [⟨.name "stz", ⟨0, 3⟩⟩, ⟨.number .hexadecimal "10", ⟨4, 3⟩⟩, ⟨.endOfStatement, ⟨7, 0⟩⟩]

/-- The first chip has no instruction that stores zero. -/
theorem ofCursor_pageStore : ofCursor .builtin ⟨{.mos6502}, .fatal⟩ (.ofTokens pageStore) =
    ofDiagnostic ⟨.missingFeature {.mos65c02}, ⟨0, 3⟩⟩ := by
  let operands : List Operand :=
    [.token "stz" ⟨0, 3⟩, .immediate (.plain (.constant 16)) ⟨4, 3⟩]
  have lexed : Token.lex "stz $10" = .ok pageStore := by cbv
  have line : Operand.readLine ⟨{.mos6502}, .fatal⟩ ⟨.name "stz", ⟨0, 3⟩⟩
      ((Cursor.ofTokens pageStore).advance 1) =
        .ok operands ((Cursor.ofTokens pageStore).advance 2) := by cbv
  have lookup : Table.builtin.templates.toList.filter (·.mnemonic = "stz".toLower) =
      [Table.mode "stz" .zeroPage 0x64 .cmos, Table.mode "stz" .zeroPageX 0x74 .cmos,
        Table.mode "stz" .absolute 0x9c .cmos, Table.mode "stz" .absoluteX 0x9e .cmos] := by
    decide +kernel
  have outcome : Outcome.ofOperands .builtin {.mos6502} operands =
      .missingFeature 0 {.mos65c02} := by
    rw [Outcome.ofOperands_of_token, lookup]
    cbv
  have assembled : ofSource .builtin ⟨{.mos6502}, .fatal⟩ "stz $10" = _ :=
    ofSource_eq_readInstruction lexed (by decide) (by decide) (by decide)
  simp only [ofSource, lexed] at assembled
  rw [assembled, ← pageStore, Statement.readInstruction, line]
  simp only [outcome]
  rfl

/-- With the features of its diagnostic, it is an instruction. -/
theorem ofLine_missingFeature_pageStore : ∃ template operands,
    Token.lex "stz $10" = .ok pageStore ∧ pageStore ∈ splitLines pageStore ∧
    ⟨.missingFeature {.mos65c02}, ⟨0, 3⟩⟩ ∈
      (ofCursor .builtin ⟨{.mos6502}, .fatal⟩ (.ofTokens pageStore)).diagnostics ∧
    ofCursor .builtin ⟨{.mos6502} ∪ {.mos65c02}, .fatal⟩ (.ofTokens pageStore) =
      ofStatement (.instruction ⟨template, operands⟩) := by
  have lexed : Token.lex "stz $10" = .ok pageStore := by cbv
  have among : pageStore ∈ splitLines pageStore := by decide
  have failed : ⟨.missingFeature {.mos65c02}, ⟨0, 3⟩⟩ ∈
      (ofCursor .builtin ⟨{.mos6502}, .fatal⟩ (.ofTokens pageStore)).diagnostics := by
    rw [ofCursor_pageStore]
    exact List.mem_singleton_self _
  obtain ⟨-, -, labels, _, _, operands, _, template, made, -, -, -, enabled⟩ :=
    ofLine_missingFeature lexed among failed
  rw [ofCursor_pageStore] at made
  cases made
  exact ⟨template, operands, lexed, among, failed, enabled⟩

end Assembly

end Asm65
