import Asm65.Proofs.Concatenation
import Asm65.Proofs.Spelling

/-!
# Labels

A name and a colon in front of a source are a label, and leave the source as it is,
further on (`Assembly.ofSource_label_append`). Behind the colon tokens are lexed as at
the start of a text, and statements are read as at the start of a line.
-/

namespace Asm65

namespace Token

variable {mode : Mode} {offset : Nat} {name source : String} {more : List Char}
  {tokens : List Token}

/-- A token that is scanned up to the rest of the text, and the tokens of the rest. -/
theorem Lexed.of_scan {c : Char} {rest : List Char} {kind : TokenKind}
    (scanned : scan mode c (rest ++ more) = (.token kind, rest.length))
    (tail : Lexed (mode.next kind) (offset + utf8Length (c :: rest)) more tokens) :
    Lexed mode offset (c :: rest ++ more)
      (⟨kind, ⟨offset, utf8Length (c :: rest)⟩⟩ :: tokens) := by
  have own : lexeme mode c (rest ++ more) = c :: rest := by
    rw [lexeme, scanned, List.take_left]
  have left : behind mode c (rest ++ more) = more := by
    rw [behind, scanned, List.drop_left]
  have whole (tail : Lexed (mode.next kind) (offset + utf8Length (lexeme mode c (rest ++ more)))
      (behind mode c (rest ++ more)) tokens) := Lexed.token (congrArg Prod.fst scanned) tail
  rw [own, left] at whole
  exact whole tail

theorem Lexed.of_name (spelled : TokenKind.IsNameText name) (apart : StartsApart more)
    (tail : Lexed (mode.next (.name name)) (offset + name.utf8ByteSize) more tokens) :
    Lexed mode offset (name.toList ++ more)
      (⟨.name name, ⟨offset, name.utf8ByteSize⟩⟩ :: tokens) := by
  have known : (TokenKind.name name).IsLexed := spelled
  obtain ⟨c, rest, whole, scanned⟩ : ∃ c rest, name.toList = c :: rest ∧
      scan mode c (rest ++ more) = (.token (.name name), rest.length) :=
    scan_text known nofun nofun apart
  rw [← utf8Length_toList, whole] at tail ⊢
  exact .of_scan scanned tail

/-- Behind a name and a colon a text is lexed as at its start. -/
theorem Lexed.of_label (spelled : TokenKind.IsNameText name)
    (tail : Lexed .statementStart (offset + name.utf8ByteSize + 1) more tokens) :
    Lexed mode offset (name.toList ++ ':' :: more)
      (⟨.name name, ⟨offset, name.utf8ByteSize⟩⟩ ::
        ⟨.punct .colon, ⟨offset + name.utf8ByteSize, 1⟩⟩ :: tokens) := by
  have apart : StartsApart (':' :: more) := by
    rintro _ ⟨⟩
    decide
  have colon : scan (mode.next (.name name)) ':' ([] ++ more) = (.token (.punct .colon), 0) := rfl
  exact .of_name spelled apart (.of_scan colon tail)

/-- The names among the tokens of texts are the texts that are spelled like a name. -/
theorem isNameText_iff_lex : TokenKind.IsNameText name ↔
    ∃ text tokens, lex text = .ok tokens ∧ .name name ∈ tokens.map Token.kind := by
  constructor
  · intro spelled
    have lexed : Lexed .statementStart 0 (name.toList ++ []) _ := .of_name spelled nofun .nil
    rw [List.append_nil] at lexed
    refine ⟨name, _, lex_of_lexed lexed, ?_⟩
    simp [closeStatement, EndsStatement]
  · rintro ⟨text, tokens, lexed, among⟩
    obtain ⟨token, among, kind⟩ := List.mem_map.1 among
    have known := isLexed_of_lex lexed token among
    rw [kind] at known
    exact known

theorem closeStatement_append_of_inside {first : List Token} (h : ¬EndsStatement first)
    (offset : Nat) (second : List Token) :
    closeStatement offset (first ++ second) = first ++ closeStatement offset second := by
  by_cases nothing : second = []
  · subst nothing
    have inside : ¬EndsStatement [] := nofun
    rw [List.append_nil, closeStatement, closeStatement, if_neg h, if_neg inside]
    rfl
  · exact closeStatement_append offset first nothing

/-- The tokens of a source with a label in front of it. -/
theorem lex_label_append (spelled : TokenKind.IsNameText name) (h : lex source = .ok tokens) :
    ∃ tokens', lex (name ++ ":" ++ source) = .ok (⟨.name name, ⟨0, name.utf8ByteSize⟩⟩ ::
        ⟨.punct .colon, ⟨name.utf8ByteSize, 1⟩⟩ :: tokens') ∧
      List.Forall₂ (Token.Agree (.shift (name.utf8ByteSize + 1))) tokens tokens' := by
  obtain ⟨read, lexed, rfl⟩ := lex_eq_ok h
  obtain ⟨moved, further, agree⟩ := lexed.shift (name.utf8ByteSize + 1)
  rw [← Nat.add_assoc] at further
  have whole : Lexed .statementStart 0 _ _ := .of_label spelled further
  have text : (name ++ ":" ++ source).toList = name.toList ++ ':' :: source.toList := by
    rw [String.toList_append, String.toList_append, List.append_assoc]
    rfl
  have length : utf8Length (name ++ ":" ++ source).toList =
      utf8Length source.toList + (name.utf8ByteSize + 1) := by
    have colon : ':'.utf8Size = 1 := rfl
    rw [text, utf8Length_append, utf8Length_cons, colon, utf8Length_toList name]
    omega
  rw [Nat.zero_add, ← text] at whole
  have inside : ¬EndsStatement [⟨.name name, ⟨0, name.utf8ByteSize⟩⟩,
      ⟨.punct .colon, ⟨name.utf8ByteSize, 1⟩⟩] := by
    simp [EndsStatement]
  have closed := closeStatement_append_of_inside inside
    (utf8Length (name ++ ":" ++ source).toList) moved
  refine ⟨_, (lex_of_lexed whole).trans (congrArg _ closed), ?_⟩
  rw [length]
  exact closeStatement_agree rfl agree

end Token

namespace Assembly

/-- Where a cursor stands does not matter to what its tokens are assembled to. -/
theorem ofCursor_eq_ofTokens (table : Table) (config : Config) {cursor : Cursor}
    (ended : cursor.rest = [] ∨ Token.EndsStatement cursor.rest) :
    ofCursor table config cursor = ofCursor table config (.ofTokens cursor.rest) := by
  rw [ofCursor_eq_ofLines table config ended]
  exact ofCursor_flatten table config (line_of_mem_splitLines ended)
    (flatten_splitLines cursor.rest).symm

/-- A name and a colon are a label, and what follows them is assembled alone. -/
theorem ofTokens_label (table : Table) (config : Config) (name : String) (span colon : Span)
    {tokens : List Token} (ended : Token.EndsStatement tokens) :
    ofCursor table config (.ofTokens (⟨.name name, span⟩ :: ⟨.punct .colon, colon⟩ :: tokens)) =
      ofStatement (.label name span) ++ ofCursor table config (.ofTokens tokens) := by
  let cursor : Cursor := .ofTokens (⟨.name name, span⟩ :: ⟨.punct .colon, colon⟩ :: tokens)
  have starts : cursor.Starts [.name name, .punct .colon] := ⟨_, rfl⟩
  have left : cursor.rest ≠ [] := List.cons_ne_nil _ _
  have behind : (cursor.advance 2).rest = tokens := rfl
  calc
    ofCursor table config cursor =
        ofStatement (.label name span) ++ ofCursor table config (cursor.advance 2) := by
      rw [ofCursor_of_rest table config left, step_of_label starts]
      rfl
    _ = ofStatement (.label name span) ++ ofCursor table config (.ofTokens tokens) := by
      rw [ofCursor_eq_ofTokens table config (.inr (behind ▸ ended)), behind]

/-- A name that some text holds, with a colon behind it, is a label in front of any source that is
lexed. The source is assembled as it would be alone, as many bytes further on. -/
theorem ofSource_label_append (table : Table) (config : Config) {name source text : String}
    {tokens read : List Token} (h : Token.lex source = .ok tokens)
    (accepted : Token.lex text = .ok read) (named : .name name ∈ read.map Token.kind) :
    (∃ all, Token.lex (name ++ ":" ++ source) = .ok all) ∧
      ofSource table config (name ++ ":" ++ source) =
        ofStatement (.label name ⟨0, name.utf8ByteSize⟩) ++
          (ofSource table config source).mapSpan (Span.shift (name.utf8ByteSize + 1)) := by
  have spelled := Token.isNameText_iff_lex.2 ⟨text, read, accepted, named⟩
  obtain ⟨tokens', whole, agree⟩ := Token.lex_label_append spelled h
  refine ⟨⟨_, whole⟩, ?_⟩
  have ended := Token.endsStatement_of_lex h
  have ended' := (endsStatement_agree agree).1 ended
  have moved := (ofTokens_agree table config (.inr ended) agree).eq_mapSpan id
  simp only [ofSource, whole, h]
  rw [ofTokens_label table config name _ _ ended', moved]

/-- A second label, and a binary numeral where an operand may stand. -/
theorem ofSource_label_append_binary :
    ofSource (.ofTemplates [.ofMnemonic "and" [.value .addr8] 0x25 ∅]) {}
        ("x" ++ ":" ++ "and: and %101") =
      ofStatement (.label "x" ⟨0, 1⟩) ++
        (ofSource (.ofTemplates [.ofMnemonic "and" [.value .addr8] 0x25 ∅]) {}
          "and: and %101").mapSpan (Span.shift 2) := by
  have h : Token.lex "and: and %101" =
      .ok [⟨.name "and", ⟨0, 3⟩⟩, ⟨.punct .colon, ⟨3, 1⟩⟩, ⟨.name "and", ⟨5, 3⟩⟩,
        ⟨.number .binary "101", ⟨9, 4⟩⟩, ⟨.endOfStatement, ⟨13, 0⟩⟩] := by
    cbv
  have accepted : Token.lex "x" = .ok [⟨.name "x", ⟨0, 1⟩⟩, ⟨.endOfStatement, ⟨1, 0⟩⟩] := by cbv
  exact (ofSource_label_append _ _ h accepted List.mem_cons_self).2

end Assembly

end Asm65
