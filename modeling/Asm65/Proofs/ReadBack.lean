import Asm65.Proofs.Instruction
import Asm65.Proofs.ReadBack.Operands

/-!
# Instructions read back

The text of an instruction of an assembly is assembled to that instruction
alone, but for places and the letter case of the mnemonic, exactly when its
operands are read from their own text (`ofSource_text_iff`).
-/

namespace Asm65

open Operand (StandAt IsReadAs)

namespace Instruction

/-- Two instructions of one template whose operands are the same, wherever they stand and in
whatever letter case the mnemonic is. -/
inductive Alike : Instruction → Instruction → Prop
  | intro (template : Template) {mnemonic mnemonic' : String} {span span' : Span}
      {operands operands' : List Operand} (same : Text.SameIgnoringCase mnemonic mnemonic')
      (agree : List.Forall₂ (Operand.Agree .anywhere) operands operands') :
      Alike ⟨template, .token mnemonic span :: operands⟩
        ⟨template, .token mnemonic' span' :: operands'⟩

/-- Whether the operands of an instruction are read from their own text. A colon in front would
make the mnemonic a label. -/
def ReadsBack (config : Config) (found : Instruction) : Prop :=
  (∀ operand ∈ found.operands.tail.head?, ¬operand.isToken ":") ∧
    Operand.ReadsBack config true found.operands.tail

/-- Only a colon has a text that starts with a colon. -/
theorem colon_iff {features : FeatureSet} {operand : Operand} {kinds more : List TokenKind}
    (h : operand.Spells features kinds) :
    [TokenKind.punct .colon] <+: kinds ++ more ↔ operand.isToken ":" := by
  cases h with
  | @token kind span lexed inside _ _ =>
    constructor
    · intro starts
      obtain ⟨rfl, -⟩ := List.cons_prefix_cons.1 starts
      exact decide_eq_true (.refl ":")
    · intro same
      have same : Text.SameIgnoringCase kind.text Punct.colon.text := of_decide_eq_true same
      rw [TokenKind.eq_punct_of_sameIgnoringCase lexed inside same]
      exact List.prefix_append _ _
  | register => exact iff_of_false (by simp) nofun
  | @immediate expr span _ =>
    obtain ⟨kind, others, starts, -, colon⟩ := expr.exists_first_kind
    rw [starts]
    refine iff_of_false (fun h => ?_) nofun
    exact colon (List.cons_prefix_cons.1 h).1.symm

theorem SpellsAll.colon_iff {features : FeatureSet} {operands : List Operand}
    {kinds : List TokenKind} (h : SpellsAll features operands kinds) :
    [TokenKind.punct .colon] <+: kinds ++ [.endOfStatement] ↔
      ∃ operand ∈ operands.head?, operand.isToken ":" := by
  cases h with
  | nil => simp
  | cons head tail =>
    rw [List.append_assoc, Instruction.colon_iff head]
    simp

end Instruction

namespace Assembly

/-- The text of an instruction is lexed as its mnemonic, its operands, and an end of statement. -/
theorem exists_lex_text {features : FeatureSet} {mnemonic : String} {operands : List Operand}
    (name : TokenKind.IsNameText mnemonic) {kinds : List TokenKind}
    (h : Instruction.SpellsAll features operands kinds) :
    ∃ span tokens, Token.lex (mnemonic ++ Instruction.operandsText operands) =
        .ok (⟨.name mnemonic, span⟩ :: tokens) ∧
      tokens.map Token.kind = kinds ++ [.endOfStatement] := by
  obtain ⟨tokens, lexed, same⟩ := (Instruction.lexes_text name h).lexed 0
  have inside : ∀ kind ∈ TokenKind.name mnemonic :: kinds, kind ≠ .endOfStatement :=
    List.forall_mem_cons.2 ⟨nofun, h.inside⟩
  have closed := Token.kinds_closeStatement same inside
    (utf8Length (mnemonic ++ Instruction.operandsText operands).toList)
  have read := Token.lex_of_lexed lexed
  obtain ⟨⟨kind, span⟩, rest, whole, first, behind⟩ := List.map_eq_cons_iff.1 closed
  cases first
  rw [whole] at read
  exact ⟨span, rest, read, behind⟩

theorem ne_ofStatement_of_colon {table : Table} {config : Config} {source name : String}
    {span : Span} {rest : List Token} {again : Instruction}
    (lexed : Token.lex source = .ok (⟨.name name, span⟩ :: rest))
    (colon : [TokenKind.punct .colon] <+: rest.map Token.kind) :
    ofSource table config source ≠ ofStatement (.instruction again) := by
  intro same
  have starts : (Cursor.ofTokens (⟨.name name, span⟩ :: rest)).Starts
      [.name name, .punct .colon] := List.cons_prefix_cons.2 ⟨rfl, colon⟩
  simp only [ofSource, lexed] at same
  rw [ofCursor_of_rest table config (List.cons_ne_nil _ rest), step_of_label starts] at same
  have first := congrArg (fun assembly => assembly.statements.head?) same
  cases first

theorem head?_toLower_ne {name : String} (plain : name.toList.head? ≠ some '.') :
    name.toLower.toList.head? ≠ some '.' := by
  rw [Text.toList_toLower, List.head?_map]
  intro h
  obtain ⟨c, first, lower⟩ := Option.map_eq_some_iff.1 h
  have same : c = '.' := Text.eq_of_toLower_eq lower (by decide)
  exact plain (same ▸ first)

/-- The mnemonic of a match is the one that was read, in lower case. -/
theorem mnemonic_eq_toLower {table : Table} {features : FeatureSet} {found : Instruction}
    {name : String} {span : Span} {operands : List Operand}
    (h : Outcome.ofOperands table features (.token name span :: operands) = .matched found) :
    found.template.mnemonic = name.toLower := by
  obtain ⟨_, _, _, same, -, chosen, -⟩ := Outcome.ofOperands_eq_matched h
  cases same
  rw [Table.lookup_eq_filter, List.mem_filter] at chosen
  exact of_decide_eq_true chosen.2

/-- Operands read at a place match what those of an instruction do exactly when they agree. -/
theorem exists_alike_iff {table : Table} {config : Config} {found : Instruction} {name : String}
    {span span' : Span} {operands : List Operand} {cursor : Cursor}
    (outcome : Outcome.ofOperands table config.features (.token name span :: operands) =
      .matched found) :
    (∃ again, (∃ operands' after, Operand.readItems config true cursor = .ok operands' after ∧
        Outcome.ofOperands table config.features (.token name.toLower span' :: operands') =
          .matched again) ∧ found.Alike again) ↔
      IsReadAs config true operands cursor := by
  obtain ⟨_, _, _, -, whole, -⟩ := Outcome.ofOperands_eq_matched outcome
  constructor
  · rintro ⟨again, ⟨operands', after, items, matched⟩, alike⟩
    obtain ⟨_, _, _, -, whole', -⟩ := Outcome.ofOperands_eq_matched matched
    cases alike with
    | intro template _ agree =>
      cases whole
      cases whole'
      exact ⟨operands', after, items, agree⟩
  · rintro ⟨operands', after, items, agree⟩
    have letters : Text.SameIgnoringCase name name.toLower := (Text.toLower_toLower name).symm
    have outcomes := Outcome.ofOperands_agree table config.features letters span span' agree
    rw [outcome] at outcomes
    refine ⟨_, ⟨operands', after, items, outcomes.eq_matched⟩, ?_⟩
    have alike : Instruction.Alike ⟨found.template, .token name span :: operands⟩
        ⟨found.template, .token name.toLower span' :: operands'⟩ := .intro _ letters agree
    rwa [← whole] at alike

/-- The text of an instruction is assembled to an instruction that is alike exactly when its
operands are read back. -/
theorem ofSource_text_iff {table : Table} {config : Config} {source : String}
    {found : Instruction}
    (h : .instruction found ∈ (ofSource table config source).statements) :
    (∃ again, ofSource table config found.text = ofStatement (.instruction again) ∧
      found.Alike again) ↔ found.ReadsBack config := by
  obtain ⟨⟨name, span, operands, whole, named, plain, spelled⟩, outcome⟩ := isMatched_of_mem h
  obtain ⟨kinds, all⟩ := Instruction.exists_spellsAll spelled
  obtain ⟨span', tokens, lexed, same⟩ := exists_lex_text named.toLower all
  rw [whole] at outcome
  have text : found.text = name.toLower ++ Instruction.operandsText operands := by
    rw [Instruction.text, mnemonic_eq_toLower outcome, whole, List.tail_cons]
  rw [← text] at lexed
  have stand : StandAt config.features operands
      ((Cursor.ofTokens (⟨.name name.toLower, span'⟩ :: tokens)).advance 1) :=
    ⟨kinds, all, same⟩
  have colon := all.colon_iff
  rw [← same] at colon
  rw [Instruction.ReadsBack, whole, List.tail_cons]
  by_cases label : ∃ operand ∈ operands.head?, operand.isToken ":"
  · apply iff_of_false
    · rintro ⟨again, read, -⟩
      exact ne_ofStatement_of_colon lexed (colon.2 label) read
    · rintro ⟨unlabelled, -⟩
      obtain ⟨operand, first, colon⟩ := label
      exact unlabelled operand first colon
  · have line := Line.of_kinds all.inside same
    have unlabelled : ¬[TokenKind.punct .colon] <+: tokens.map Token.kind := mt colon.1 label
    simp only [ofSource_eq_instruction_iff lexed line unlabelled (head?_toLower_ne plain)]
    rw [exists_alike_iff outcome, Operand.isReadAs_iff stand]
    exact (and_iff_right fun operand first colon => label ⟨operand, first, colon⟩).symm

/-- A load through a pointer. -/
def throughPointer : Template :=
  .ofMnemonic "lda" [.literal "(", .value .addr8, .literal ")"] 0xB2 ∅

/-- A load from an address. -/
def fromAddress : Template :=
  .ofMnemonic "lda" [.value .addr16] 0xAD ∅

def loads : Table :=
  .ofTemplates [throughPointer, fromAddress]

/-- An operand of both. -/
def entry : OperandExpr :=
  .plain (.binary .add (.constant 16) (.constant 2))

def pointerLoad : Instruction :=
  ⟨throughPointer, [.token "LDA" ⟨0, 3⟩, .token "(" ⟨4, 1⟩, .immediate entry ⟨5, 5⟩,
    .token ")" ⟨10, 1⟩]⟩

def addressLoad : Instruction :=
  ⟨fromAddress, [.token "lda" ⟨0, 3⟩, .immediate entry ⟨4, 5⟩]⟩

theorem ofSource_pointerLoad :
    ofSource loads {} "LDA ($10+2)" = ofStatement (.instruction pointerLoad) := by
  have lexed : Token.lex "LDA ($10+2)" = .ok [⟨.name "LDA", ⟨0, 3⟩⟩, ⟨.punct .openParen, ⟨4, 1⟩⟩,
      ⟨.number .hexadecimal "10", ⟨5, 3⟩⟩, ⟨.punct .plus, ⟨8, 1⟩⟩, ⟨.number .decimal "2", ⟨9, 1⟩⟩,
      ⟨.punct .closeParen, ⟨10, 1⟩⟩, ⟨.endOfStatement, ⟨11, 0⟩⟩] := by cbv
  refine (ofSource_eq_instruction_iff lexed (by decide) (by decide) (by decide)).2
    ⟨_, _, by cbv, ?_⟩
  rw [Outcome.ofOperands_of_token]
  cbv

theorem ofSource_addressLoad :
    ofSource loads {} "lda $10+2" = ofStatement (.instruction addressLoad) := by
  have lexed : Token.lex "lda $10+2" = .ok [⟨.name "lda", ⟨0, 3⟩⟩,
      ⟨.number .hexadecimal "10", ⟨4, 3⟩⟩, ⟨.punct .plus, ⟨7, 1⟩⟩, ⟨.number .decimal "2", ⟨8, 1⟩⟩,
      ⟨.endOfStatement, ⟨9, 0⟩⟩] := by cbv
  refine (ofSource_eq_instruction_iff lexed (by decide) (by decide) (by decide)).2
    ⟨_, _, by cbv, ?_⟩
  rw [Outcome.ofOperands_of_token]
  cbv

/-- A load through a pointer is read back. -/
theorem ofSource_text_iff_pointerLoad :
    .instruction pointerLoad ∈ (ofSource loads {} "LDA ($10+2)").statements ∧
      ∃ again, ofSource loads {} pointerLoad.text = ofStatement (.instruction again) ∧
        pointerLoad.Alike again := by
  have among : .instruction pointerLoad ∈ (ofSource loads {} "LDA ($10+2)").statements := by
    rw [ofSource_pointerLoad]
    exact List.mem_singleton_self _
  have unlabelled : ∀ operand ∈ pointerLoad.operands.tail.head?, ¬operand.isToken ":" := by
    intro operand first
    cases first
    decide +kernel
  exact ⟨among, (ofSource_text_iff among).2 ⟨unlabelled, .introduced (.inr (.inl rfl)) trivial
    (.verbatim (by decide) (by simp [Operand.IsDelimiter]) (by simp) .nil)⟩⟩

/-- A load from an address is not, since its text looks like a load through a pointer. -/
theorem exists_ofSource_text_ne : ∃ again again',
    .instruction pointerLoad ∈ (ofSource loads {} "LDA ($10+2)").statements ∧
    ofSource loads {} pointerLoad.text = ofStatement (.instruction again) ∧
    ¬List.Forall₂ (Operand.Agree .anywhere) pointerLoad.operands again.operands ∧
    .instruction addressLoad ∈ (ofSource loads {} "lda $10+2").statements ∧
    ofSource loads {} addressLoad.text = ofStatement (.instruction again') ∧
    addressLoad.template ≠ again'.template := by
  have text : pointerLoad.text = "lda ((16 + 2))" := by cbv
  have text' : addressLoad.text = "lda (16 + 2)" := by cbv
  have lexed : Token.lex "lda ((16 + 2))" = .ok [⟨.name "lda", ⟨0, 3⟩⟩,
      ⟨.punct .openParen, ⟨4, 1⟩⟩, ⟨.punct .openParen, ⟨5, 1⟩⟩, ⟨.number .decimal "16", ⟨6, 2⟩⟩,
      ⟨.punct .plus, ⟨9, 1⟩⟩, ⟨.number .decimal "2", ⟨11, 1⟩⟩, ⟨.punct .closeParen, ⟨12, 1⟩⟩,
      ⟨.punct .closeParen, ⟨13, 1⟩⟩, ⟨.endOfStatement, ⟨14, 0⟩⟩] := by cbv
  have lexed' : Token.lex "lda (16 + 2)" = .ok [⟨.name "lda", ⟨0, 3⟩⟩,
      ⟨.punct .openParen, ⟨4, 1⟩⟩, ⟨.number .decimal "16", ⟨5, 2⟩⟩, ⟨.punct .plus, ⟨8, 1⟩⟩,
      ⟨.number .decimal "2", ⟨10, 1⟩⟩, ⟨.punct .closeParen, ⟨11, 1⟩⟩,
      ⟨.endOfStatement, ⟨12, 0⟩⟩] := by cbv
  have read : ofSource loads {} "lda ((16 + 2))" =
      ofStatement (.instruction ⟨throughPointer, [.token "lda" ⟨0, 3⟩, .token "(" ⟨4, 1⟩,
        .immediate entry ⟨5, 8⟩, .token ")" ⟨13, 1⟩]⟩) := by
    refine (ofSource_eq_instruction_iff lexed (by decide) (by decide) (by decide)).2
      ⟨_, _, by cbv, ?_⟩
    rw [Outcome.ofOperands_of_token]
    cbv
  have read' : ofSource loads {} "lda (16 + 2)" =
      ofStatement (.instruction ⟨throughPointer, [.token "lda" ⟨0, 3⟩, .token "(" ⟨4, 1⟩,
        .immediate entry ⟨5, 6⟩, .token ")" ⟨11, 1⟩]⟩) := by
    refine (ofSource_eq_instruction_iff lexed' (by decide) (by decide) (by decide)).2
      ⟨_, _, by cbv, ?_⟩
    rw [Outcome.ofOperands_of_token]
    cbv
  rw [text, text', read, read', ofSource_pointerLoad, ofSource_addressLoad]
  refine ⟨_, _, List.mem_singleton_self _, rfl, ?_, List.mem_singleton_self _, rfl, ?_⟩
  · intro agree
    have letters := Operand.agree_token_iff.1 (List.forall₂_cons.1 agree).1
    exact absurd letters (by decide)
  · intro same
    have opcodes : (0xAD : UInt8) = 0xB2 := congrArg Template.opcode same
    exact absurd opcodes (by decide)

end Assembly

end Asm65
