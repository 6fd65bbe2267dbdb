import Asm65.Proofs.ReadBack.Text

/-!
# Texts of tokens

The tokens of a source, written with a blank between them, are lexed to the same
tokens, exactly when no binary numeral directly follows the end of an operand
(`Token.lex_joinedText_iff`). There its mark would be the remainder operator.

## Implementation notes

The lexer keeps a mode instead of the tokens behind it. Which mode ends an operand
is told by the last two tokens (`Token.endsOperand_iff`).
-/

namespace Asm65

/-- The text that a token is written as; an end of statement is a newline. -/
def TokenKind.written : TokenKind → String
  | endOfStatement => "\n"
  | kind => kind.text

namespace Token

variable {mode : Mode} {kind : TokenKind} {kinds found : List TokenKind} {more : List Char}

/-- Tokens written with a blank between each and the next one. -/
def joinedText (kinds : List TokenKind) : String :=
  " ".intercalate (kinds.map TokenKind.written)

theorem joinedText_singleton (kind : TokenKind) : joinedText [kind] = kind.written := by
  simp [joinedText]

theorem joinedText_cons (h : kinds ≠ []) (kind : TokenKind) :
    joinedText (kind :: kinds) = kind.written ++ " " ++ joinedText kinds := by
  rw [joinedText, List.map_cons, String.intercalate_cons_of_ne_nil (by simpa using h)]
  rfl

/-- Whether the last of some tokens ends an operand. A name that starts a statement ends none. -/
def EndsOperand (kinds : List TokenKind) : Prop :=
  match kinds.getLast? with
  | some (.number ..) | some (.char _) | some (.punct .closeParen)
  | some (.punct .closeBracket) => True
  | some (.name _) =>
    kinds.dropLast.getLast? ∉ [none, some .endOfStatement, some (.punct .colon)]
  | _ => False

theorem next_eq_statementStart_iff :
    mode.next kind = .statementStart ↔ kind = .endOfStatement ∨ kind = .punct .colon := by
  unfold Mode.next
  split <;> simp_all

theorem foldl_next_eq_statementStart_iff : kinds.foldl Mode.next .statementStart = .statementStart ↔
    kinds.getLast? ∈ [none, some .endOfStatement, some (.punct .colon)] := by
  rcases List.eq_nil_or_concat kinds with rfl | ⟨before, last, rfl⟩
  · simp
  · simp [next_eq_statementStart_iff]

/-- The mode says whether an operand ends. -/
theorem endsOperand_iff :
    EndsOperand kinds ↔ kinds.foldl Mode.next .statementStart = .operandEnded := by
  rcases List.eq_nil_or_concat kinds with rfl | ⟨before, last, rfl⟩
  · simp [EndsOperand]
  · have start := @foldl_next_eq_statementStart_iff before
    rw [List.concat_eq_append, List.foldl_concat]
    revert start
    generalize before.foldl Mode.next .statementStart = mode
    intro start
    cases last with
    | name text =>
      simp only [EndsOperand, List.getLast?_concat, List.dropLast_concat, ← start]
      cases mode <;> simp [Mode.next]
    | punct p => cases p <;> cases mode <;> simp [EndsOperand, Mode.next]
    | endOfStatement | number | char | unknown => cases mode <;> simp [EndsOperand, Mode.next]

/-- Whether an operand may stand wherever a binary numeral does. -/
def NumeralsExpected (mode : Mode) (kinds : List TokenKind) : Prop :=
  ∀ before numeral after, kinds = before ++ .number .binary numeral :: after →
    before.foldl Mode.next mode ≠ .operandEnded

theorem numeralsExpected_nil (mode : Mode) : NumeralsExpected mode [] := by
  intro before numeral after split
  simp at split

theorem numeralsExpected_cons_iff : NumeralsExpected mode (kind :: kinds) ↔
    (∀ numeral, kind = .number .binary numeral → mode ≠ .operandEnded) ∧
      NumeralsExpected (mode.next kind) kinds := by
  constructor
  · intro h
    refine ⟨fun numeral same => h [] numeral kinds (by rw [same]; rfl), ?_⟩
    intro before numeral after split
    exact h (kind :: before) numeral after (by rw [split]; rfl)
  · rintro ⟨head, tail⟩ before numeral after split
    cases before with
    | nil => exact head numeral (List.cons.inj split).1
    | cons first before =>
      obtain ⟨rfl, behind⟩ := List.cons.inj split
      exact tail before numeral after behind

theorem scan_written (known : kind.IsLexed)
    (operand : ∀ numeral, kind = .number .binary numeral → mode ≠ .operandEnded)
    (apart : StartsApart more) : ∃ c rest, kind.written.toList = c :: rest ∧
      scan mode c (rest ++ more) = (.token kind, rest.length) := by
  by_cases ended : kind = .endOfStatement
  · subst ended
    exact ⟨'\n', [], rfl, rfl⟩
  · have same : kind.written = kind.text := by
      unfold TokenKind.written
      split
      · exact absurd rfl ended
      · rfl
    rw [same]
    exact scan_text known ended operand apart

namespace Lexes

/-- Where a token is scanned, it is the first one. -/
theorem of_cons {c : Char} {rest : List Char} (h : Lexes mode (c :: rest) found [])
    (scanned : (scan mode c rest).1 = .token kind) :
    ∃ others, found = kind :: others ∧
      Lexes (mode.next kind) (behind mode c rest) others [] := by
  cases h with
  | blank blank _ => cases blank.symm.trans scanned
  | token scanned' tail =>
    cases scanned'.symm.trans scanned
    exact ⟨_, rfl, tail⟩

theorem of_space (h : Lexes mode (' ' :: more) found []) : Lexes mode more found [] := by
  cases h with
  | blank _ tail => exact tail
  | token scanned _ => cases scanned

end Lexes

/-- Behind the text of the first token, the text of the others stands apart from it. -/
theorem exists_joinedText_cons (kind : TokenKind) (kinds : List TokenKind) :
    ∃ more, (joinedText (kind :: kinds)).toList = kind.written.toList ++ more ∧
      StartsApart more ∧
      ∀ mode found, Lexes mode more found [] ↔ Lexes mode (joinedText kinds).toList found [] := by
  by_cases last : kinds = []
  · subst last
    exact ⟨[], by simp [joinedText_singleton], nofun, fun _ _ => Iff.rfl⟩
  · refine ⟨" ".toList ++ (joinedText kinds).toList, ?_, startsApart_cons (by decide) _,
      fun mode found => ⟨Lexes.of_space, Lexes.space.append⟩⟩
    rw [joinedText_cons last, String.append_assoc, String.toList_append, String.toList_append]

/-- Tokens are lexed from their joined text where their binary numerals are expected. -/
theorem lexes_joinedText (known : ∀ kind ∈ kinds, kind.IsLexed)
    (expected : NumeralsExpected mode kinds) : Lexes mode (joinedText kinds).toList kinds [] := by
  induction kinds generalizing mode with
  | nil => exact .done
  | cons kind kinds ih =>
    obtain ⟨head, others⟩ := List.forall_mem_cons.1 known
    obtain ⟨operand, expected⟩ := numeralsExpected_cons_iff.1 expected
    obtain ⟨more, whole, apart, tail⟩ := exists_joinedText_cons kind kinds
    obtain ⟨c, rest, spelled, scanned⟩ := scan_written head operand apart
    rw [whole, spelled]
    exact (Lexes.of_scan scanned).append ((tail _ _).2 (ih others expected))

/-- Where one is not expected, its mark is lexed as an operator. -/
theorem numeralsExpected_of_lexes (known : ∀ kind ∈ kinds, kind.IsLexed)
    (h : Lexes mode (joinedText kinds).toList found []) (same : found <+: kinds) :
    NumeralsExpected mode kinds := by
  induction kinds generalizing mode found with
  | nil => exact numeralsExpected_nil mode
  | cons kind kinds ih =>
    obtain ⟨head, others⟩ := List.forall_mem_cons.1 known
    obtain ⟨more, whole, apart, tail⟩ := exists_joinedText_cons kind kinds
    rw [whole] at h
    have operand : ∀ numeral, kind = .number .binary numeral → mode ≠ .operandEnded := by
      rintro numeral rfl rfl
      have spelled : (TokenKind.written (.number .binary numeral)).toList =
          '%' :: numeral.toList := by simp [TokenKind.written, TokenKind.text]
      rw [spelled] at h
      have remainder (rest : List Char) :
          (scan .operandEnded '%' rest).1 = .token (.punct .percent) := by simp [scan]
      obtain ⟨others, rfl, -⟩ := h.of_cons (remainder _)
      simp at same
    obtain ⟨c, rest, spelled, scanned⟩ := scan_written head operand apart
    rw [spelled] at h
    obtain ⟨others', rfl, tail'⟩ := h.of_cons (congrArg Prod.fst scanned)
    have left : behind mode c (rest ++ more) = more := by
      rw [behind, scanned, List.drop_left]
    rw [List.append_eq, left, tail] at tail'
    have same' := (List.cons_prefix_cons.1 same).2
    exact numeralsExpected_cons_iff.2 ⟨operand, ih others tail' same'⟩

theorem Lexed.lexes {offset : Nat} {text : List Char} {tokens : List Token}
    (h : Lexed mode offset text tokens) : Lexes mode text (tokens.map Token.kind) [] := by
  induction h with
  | nil => exact .done
  | blank h _ ih => exact .blank h ih
  | token h _ ih => exact .token h ih

theorem prefix_closeStatement (offset : Nat) (tokens : List Token) :
    tokens <+: closeStatement offset tokens := by
  unfold closeStatement
  split
  · exact List.prefix_rfl
  · exact List.prefix_append _ _

theorem numeralsExpected_iff : NumeralsExpected .statementStart kinds ↔
    ∀ before numeral after, kinds = before ++ .number .binary numeral :: after →
      ¬EndsOperand before := by
  simp only [NumeralsExpected, endsOperand_iff]

/-- The tokens of a source, written with blanks between them, are lexed to the same tokens exactly
when no binary numeral directly follows the end of an operand. -/
theorem lex_joinedText_iff {source : String} {tokens : List Token}
    (lexed : lex source = .ok tokens) :
    (∃ tokens', lex (joinedText (tokens.map Token.kind)) = .ok tokens' ∧
        tokens'.map Token.kind = tokens.map Token.kind) ↔
      ∀ before numeral after, tokens.map Token.kind = before ++ .number .binary numeral :: after →
        ¬EndsOperand before := by
  have known : ∀ kind ∈ tokens.map Token.kind, kind.IsLexed :=
    List.forall_mem_map.2 (isLexed_of_lex lexed)
  rw [← numeralsExpected_iff]
  constructor
  · rintro ⟨tokens', again, same⟩
    obtain ⟨read, lexed', rfl⟩ := lex_eq_ok again
    have part : read.map Token.kind <+: tokens.map Token.kind :=
      same ▸ (prefix_closeStatement _ read).map Token.kind
    exact numeralsExpected_of_lexes known lexed'.lexes part
  · intro expected
    obtain ⟨read, lexed', same⟩ := (lexes_joinedText known expected).lexed 0
    refine ⟨_, lex_of_lexed lexed', ?_⟩
    have ended : EndsStatement read := by
      have last := endsStatement_of_lex lexed
      rw [EndsStatement, ← List.getLast?_map] at last ⊢
      rw [same, last]
    rw [closeStatement, if_pos ended, same]

/-- In `x:0b10%0B1 ' '` the second numeral stands behind an operator. -/
theorem lex_joinedText_iff_remainder :
    ∃ tokens tokens', lex "x:0b10%0B1 ' '\n<< <" = .ok tokens ∧
      joinedText (tokens.map Token.kind) = "x : %10 % %1 ' ' \n << < \n" ∧
      lex "x : %10 % %1 ' ' \n << < \n" = .ok tokens' ∧
      tokens'.map Token.kind = tokens.map Token.kind := by
  let tokens : List Token := [⟨.name "x", ⟨0, 1⟩⟩, ⟨.punct .colon, ⟨1, 1⟩⟩,
    ⟨.number .binary "10", ⟨2, 4⟩⟩, ⟨.punct .percent, ⟨6, 1⟩⟩, ⟨.number .binary "1", ⟨7, 3⟩⟩,
    ⟨.char ' ', ⟨11, 3⟩⟩, ⟨.endOfStatement, ⟨14, 1⟩⟩, ⟨.punct .shl, ⟨15, 2⟩⟩,
    ⟨.punct .less, ⟨18, 1⟩⟩, ⟨.endOfStatement, ⟨19, 0⟩⟩]
  have lexed : lex "x:0b10%0B1 ' '\n<< <" = .ok tokens := by cbv
  have text : joinedText (tokens.map Token.kind) = "x : %10 % %1 ' ' \n << < \n" := by cbv
  have expected : NumeralsExpected .statementStart (tokens.map Token.kind) := by
    simp [tokens, numeralsExpected_cons_iff, numeralsExpected_nil, Mode.next]
  obtain ⟨tokens', lexed', same⟩ := (lex_joinedText_iff lexed).2 (numeralsExpected_iff.1 expected)
  exact ⟨tokens, tokens', lexed, text, text ▸ lexed', same⟩

end Token

end Asm65
