import Asm65.Proofs.Lines
import Asm65.Proofs.Provenance

/-!
# Instructions of a source

Every instruction of an assembly has been matched (`IsMatched`): its first
operand is the name that stood where the mnemonic does, the others can be read,
and matching them chooses its template.
-/

namespace Asm65

/-- What is known of an instruction that comes from a source. -/
structure Instruction.IsMatched (table : Table) (config : Config) (found : Instruction) :
    Prop where
  mnemonic : ∃ name span rest, found.operands = .token name span :: rest ∧
    TokenKind.IsNameText name ∧ name.toList.head? ≠ some '.' ∧
    ∀ operand ∈ rest, operand.IsSpelled config.features
  outcome : Outcome.ofOperands table config.features found.operands = .matched found

namespace Outcome

/-- A match is the first enabled template that fits. -/
theorem among_eq_matched_iff {features : FeatureSet} {operands : List Operand}
    {templates : List Template} {found : Instruction} :
    among features operands templates = .matched found ↔
      templates.find? (fun template => template.Fits operands ∧ template.IsEnabled features) =
        some found.template ∧ found.operands = operands := by
  constructor
  · intro h
    unfold among at h
    split at h
    · next template chosen =>
      cases h
      exact ⟨chosen, rfl⟩
    · split at h
      · cases h
      · have misfit := isMisfit_getD (templates.filterMap (·.nearMiss? features operands)) operands
          templates
        rw [h] at misfit
        cases misfit
  · rintro ⟨chosen, rfl⟩
    simp only [among, chosen]

/-- A match is a template of the mnemonic that fits and is enabled. -/
theorem ofOperands_eq_matched {table : Table} {features : FeatureSet} {operands : List Operand}
    {found : Instruction} (h : ofOperands table features operands = .matched found) :
    ∃ mnemonic span rest, operands = .token mnemonic span :: rest ∧ found.operands = operands ∧
      found.template ∈ table.lookup mnemonic ∧ found.template.Fits operands ∧
      found.template.IsEnabled features := by
  unfold ofOperands at h
  split at h
  · next mnemonic span rest =>
    split at h
    · obtain ⟨chosen, same⟩ := among_eq_matched_iff.1 h
      have fits := List.find?_some chosen
      simp only [decide_eq_true_eq] at fits
      exact ⟨mnemonic, span, rest, rfl, same, List.mem_of_find?_eq_some chosen, fits⟩
    · cases h
  · cases h

/-- Matching in terms of the templates of the mnemonic alone. -/
theorem ofOperands_of_token (table : Table) (features : FeatureSet) (mnemonic : String)
    (span : Span) (rest : List Operand) :
    ofOperands table features (.token mnemonic span :: rest) =
      if table.templates.toList.filter (·.mnemonic = mnemonic.toLower) = [] then .unknownMnemonic
      else among features (.token mnemonic span :: rest)
        (table.templates.toList.filter (·.mnemonic = mnemonic.toLower)) := by
  rw [← Table.lookup_eq_filter]
  by_cases missing : table.lookup mnemonic = []
  · have known : ¬table.contains mnemonic := mt (table.contains_iff mnemonic).1 (· missing)
    rw [ofOperands, if_neg known, if_pos missing]
  · rw [ofOperands, if_pos ((table.contains_iff mnemonic).2 missing), if_neg missing]

end Outcome

namespace Statement

/-- A statement is read the same where every instruction is. -/
theorem read_of_readInstruction {table table' : Table} {config config' : Config}
    {start after : Cursor} {statement : Statement}
    (kept : ∀ mnemonic start statement after,
      readInstruction table config mnemonic start = .ok statement after →
        readInstruction table' config' mnemonic start = .ok statement after)
    (h : read table config start = .ok statement after) :
    read table' config' start = .ok statement after := by
  unfold read at h ⊢
  split at h
  · cases h
  split at h
  · cases h
  split at h
  · next directive => rwa [if_pos directive]
  · next plain =>
    rw [if_neg plain]
    exact kept _ _ _ _ h

theorem isMatched_of_read {table : Table} {config : Config} {start after : Cursor}
    {found : Instruction} (lexed : start.IsLexed)
    (h : read table config start = .ok (.instruction found) after) :
    found.IsMatched table config := by
  obtain ⟨_, -, other⟩ | ⟨token, name, rest, _, here, named, plain, items, outcome, same⟩ :=
    read_eq_ok h
  · cases other
  · cases same
    have named' := lexed.peek here
    rw [named] at named'
    have behind := lexed.later (Cursor.laterBy_advance_one here)
    obtain ⟨_, _, _, -, whole, -⟩ := Outcome.ofOperands_eq_matched outcome
    have spelled := Operand.gives_readItems config true behind items
    exact ⟨⟨name, token.span, rest, whole, named', plain, spelled⟩, by rw [whole, outcome]⟩

end Statement

namespace Assembly

theorem laterBy_step (table : Table) (config : Config) {cursor : Cursor}
    (h : cursor.rest ≠ []) : Cursor.LaterBy 0 cursor (step table config cursor).2 := by
  have passed := Statement.passes_read table config cursor
  unfold step
  split
  · exact (Cursor.laterBy_advance (List.length_pos_iff.2 h)).mono (Nat.zero_le 1)
  · split
    · next found => exact (Statement.laterBy_of_readLabel? found).mono (Nat.zero_le 2)
    · cases found : Statement.read table config cursor with
      | ok statement after =>
        rw [found] at passed
        exact (passed.trans (Cursor.laterBy_next after)).mono (Nat.zero_le _)
      | error diagnostic after =>
        rw [found] at passed
        exact (passed.trans (Cursor.laterBy_skipStatement after)).mono (Nat.zero_le _)

theorem mem_statements_step {table : Table} {config : Config} {cursor : Cursor} :
    ∀ statement ∈ (step table config cursor).1.statements,
      statement.IsLabel ∨ ∃ after, Statement.read table config cursor = .ok statement after := by
  intro statement among
  unfold step at among
  split at among
  · cases among
  · split at among
    · next label after found =>
      have same := List.mem_singleton.1 among
      unfold Statement.readLabel? at found
      split at found
      · cases found
        exact .inl ⟨_, _, same⟩
      · cases found
    · split at among
      · next read =>
        have same := List.mem_singleton.1 among
        exact .inr ⟨_, same ▸ read⟩
      · cases among

/-- Every statement but a label has been read at some place of the source. -/
theorem mem_statements_ofCursor {table : Table} {config : Config} {cursor : Cursor}
    (lexed : cursor.IsLexed) : ∀ statement ∈ (ofCursor table config cursor).statements,
      statement.IsLabel ∨ ∃ start after, start.IsLexed ∧
        Statement.read table config start = .ok statement after := by
  induction left : cursor.rest.length using Nat.strongRecOn generalizing cursor with
  | ind left' ih =>
    subst left
    by_cases empty : cursor.rest = []
    · rw [ofCursor_of_end table config empty]
      nofun
    · rw [ofCursor_of_rest table config empty]
      intro statement among
      rcases List.mem_append.1 among with among | among
      · refine (mem_statements_step statement among).imp id ?_
        rintro ⟨after, read⟩
        exact ⟨cursor, after, lexed, read⟩
      · exact ih _ (step_shorter table config empty)
          (lexed.later (laterBy_step table config empty)) rfl statement among

theorem isMatched_of_mem {table : Table} {config : Config} {source : String}
    {found : Instruction} (h : .instruction found ∈ (ofSource table config source).statements) :
    found.IsMatched table config := by
  unfold ofSource at h
  split at h
  · next tokens lexed =>
    have lexed : (Cursor.ofTokens tokens).IsLexed := Token.isLexed_of_lex lexed
    rcases mem_statements_ofCursor lexed _ h with ⟨_, _, label⟩ | ⟨start, after, lexed', read⟩
    · cases label
    · exact Statement.isMatched_of_read lexed' read
  · cases h

section

variable {table : Table} {config : Config} {source name : String} {span : Span}
  {rest : List Token}

/-- A line that starts with a name, but is no label and no directive, holds an instruction. -/
theorem ofSource_eq_readInstruction (lexed : Token.lex source = .ok (⟨.name name, span⟩ :: rest))
    (line : Line rest) (unlabelled : ¬[TokenKind.punct .colon] <+: rest.map Token.kind)
    (plain : name.toList.head? ≠ some '.') :
    ofSource table config source =
      match Statement.readInstruction table config ⟨.name name, span⟩
        ((Cursor.ofTokens (⟨.name name, span⟩ :: rest)).advance 1) with
      | .ok statement _ => ofStatement statement
      | .error diagnostic _ => ofDiagnostic diagnostic := by
  let cursor := Cursor.ofTokens (⟨.name name, span⟩ :: rest)
  have whole : Line (⟨.name name, span⟩ :: rest) := .cons (by simp) line
  have here : cursor.rest = ⟨.name name, span⟩ :: rest := rfl
  have aligned := whole.aligned here
  have unlabelled' (other : String) : ¬cursor.Starts [.name other, .punct .colon] := by
    intro starts
    obtain ⟨_, _, same, tail⟩ := prefix_kinds_iff.1 starts
    cases same
    exact unlabelled tail
  have unfinished : ¬cursor.AtEndOfStatement := by
    intro ended
    cases ended _ rfl
  have read : Statement.read table config cursor =
      Statement.readInstruction table config ⟨.name name, span⟩ (cursor.advance 1) :=
    if_neg plain
  have nothing : ofCursor table config (step table config cursor).2 = ∅ := by
    rw [step_skipStatement aligned unlabelled']
    exact ofCursor_of_end table config aligned.rest_skipStatement
  simp only [ofSource, lexed]
  rw [ofCursor_of_rest table config aligned.rest_ne_nil, nothing, append_empty,
    step_of_no_label unfinished unlabelled', read]
  cases Statement.readInstruction table config ⟨.name name, span⟩ (cursor.advance 1) with
  | ok | error => rfl

/-- Such a line is assembled to what its operands match. -/
theorem ofSource_eq_instruction_iff {again : Instruction}
    (lexed : Token.lex source = .ok (⟨.name name, span⟩ :: rest)) (line : Line rest)
    (unlabelled : ¬[TokenKind.punct .colon] <+: rest.map Token.kind)
    (plain : name.toList.head? ≠ some '.') :
    ofSource table config source = ofStatement (.instruction again) ↔
      ∃ operands after,
        Operand.readItems config true
          ((Cursor.ofTokens (⟨.name name, span⟩ :: rest)).advance 1) = .ok operands after ∧
        Outcome.ofOperands table config.features (.token name span :: operands) =
          .matched again := by
  rw [ofSource_eq_readInstruction lexed line unlabelled plain]
  constructor
  · intro same
    split at same
    · next statement after read =>
      cases same
      obtain ⟨_, operands, _, named, items, outcome, same⟩ :=
        Statement.readInstruction_eq_ok_iff.1 read
      cases named
      cases same
      exact ⟨operands, after, items, outcome⟩
    · cases same
  · rintro ⟨operands, after, items, outcome⟩
    rw [Statement.readInstruction_eq_ok_iff.2 ⟨name, operands, again, rfl, items, outcome, rfl⟩]

end

end Assembly

end Asm65
