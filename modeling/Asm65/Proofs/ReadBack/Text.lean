import Asm65.Proofs.ReadBack.Expr

/-!
# Texts of instructions

The text of an instruction holds its mnemonic and the tokens of its operands,
with a comma between two operands unless a delimiter opens or closes there
(`lexes_text`).

## Implementation notes

`Lexes` is a judgment over the whole text that is left, so that pieces of a text
can be put together where a lexeme cannot reach into the next piece.
-/

namespace Asm65

namespace Token

/-- The kinds of the first tokens of a text, and the text behind them. -/
inductive Lexes : Mode → List Char → List TokenKind → List Char → Prop
  | done {mode : Mode} {text : List Char} : Lexes mode text [] text
  | blank {mode : Mode} {c : Char} {rest more : List Char} {kinds : List TokenKind}
      (h : (scan mode c rest).1 = .blank) (tail : Lexes mode (behind mode c rest) kinds more) :
      Lexes mode (c :: rest) kinds more
  | token {mode : Mode} {c : Char} {rest more : List Char} {kind : TokenKind}
      {kinds : List TokenKind} (h : (scan mode c rest).1 = .token kind)
      (tail : Lexes (mode.next kind) (behind mode c rest) kinds more) :
      Lexes mode (c :: rest) (kind :: kinds) more

namespace Lexes

variable {mode : Mode} {text middle more : List Char} {kinds kinds' : List TokenKind}

theorem append (first : Lexes mode text kinds middle)
    (second : Lexes (kinds.foldl Mode.next mode) middle kinds' more) :
    Lexes mode text (kinds ++ kinds') more := by
  induction first with
  | done => exact second
  | blank h _ ih => exact .blank h (ih second)
  | token h _ ih => exact .token h (ih second)

theorem lexed (h : Lexes mode text kinds []) (offset : Nat) :
    ∃ tokens, Lexed mode offset text tokens ∧ tokens.map Token.kind = kinds := by
  generalize empty : ([] : List Char) = more at h
  induction h generalizing offset with
  | done =>
    subst empty
    exact ⟨[], .nil, rfl⟩
  | blank h _ ih =>
    obtain ⟨tokens, lexed, same⟩ := ih _ empty
    exact ⟨tokens, .blank h lexed, same⟩
  | token h _ ih =>
    obtain ⟨tokens, lexed, same⟩ := ih _ empty
    exact ⟨_ :: tokens, .token h lexed, congrArg _ same⟩

theorem space : Lexes mode (" ".toList ++ text) [] text :=
  .blank rfl .done

/-- One lexeme that is scanned up to the rest of the text. -/
theorem of_scan {c : Char} {rest : List Char} {kind : TokenKind}
    (h : scan mode c (rest ++ more) = (.token kind, rest.length)) :
    Lexes mode (c :: rest ++ more) [kind] more := by
  refine .token (by rw [List.append_eq, h]) ?_
  have left : behind mode c (rest ++ more) = more := by rw [behind, h, List.drop_left]
  rw [List.append_eq, left]
  exact .done

theorem kind (kind : TokenKind) (h : kind.IsLexed) (inside : kind ≠ .endOfStatement)
    (operand : ∀ numeral, kind = .number .binary numeral → mode ≠ .operandEnded)
    (apart : StartsApart more) : Lexes mode (kind.text.toList ++ more) [kind] more := by
  obtain ⟨c, rest, spelled, scanned⟩ := scan_text h inside operand apart
  rw [spelled]
  exact of_scan scanned

theorem punct {p : Punct} (alone : StandsAlone p) :
    Lexes mode (p.text.toList ++ more) [.punct p] more := by
  obtain ⟨c, rest, spelled, scanned⟩ := scan_punct_of_standsAlone alone mode more
  rw [spelled]
  exact of_scan scanned

theorem name {text : String} (h : TokenKind.IsNameText text) (apart : StartsApart more) :
    Lexes mode (text.toList ++ more) [.name text] more :=
  kind (.name text) h nofun nofun apart

theorem decimal {numeral : String} (h : TokenKind.IsNumeralText .decimal numeral)
    (apart : StartsApart more) :
    Lexes mode (numeral.toList ++ more) [.number .decimal numeral] more :=
  kind (.number .decimal numeral) h nofun nofun apart

theorem punct_apart (p : Punct) (apart : StartsApart more) :
    Lexes mode (p.text.toList ++ more) [.punct p] more := by
  exact kind (.punct p) trivial nofun nofun apart

end Lexes

theorem kinds_closeStatement {tokens : List Token} {kinds : List TokenKind}
    (h : tokens.map Token.kind = kinds) (inside : ∀ kind ∈ kinds, kind ≠ .endOfStatement)
    (offset : Nat) :
    (closeStatement offset tokens).map Token.kind = kinds ++ [.endOfStatement] := by
  have unfinished : ¬EndsStatement tokens := by
    intro ended
    rw [EndsStatement, ← List.getLast?_map, h] at ended
    exact inside _ (List.mem_of_getLast? ended) rfl
  rw [closeStatement, if_neg unfinished, List.map_append, h]
  rfl

theorem startsApart_cons {c : Char} (h : IsBoundary c) (rest : List Char) :
    StartsApart (c :: rest) := by
  intro d found
  cases found
  exact h

end Token

open Token (Lexes StandsAlone StartsApart startsApart_cons)

theorem UnaryOp.text_punct (op : UnaryOp) : op.punct.text = op.text := by
  cases op <;> rfl

theorem BinaryOp.text_punct (op : BinaryOp) : op.punct.text = op.text := by
  cases op <;> rfl

variable {mode : Token.Mode} {more : List Char}

theorem lexes_openParen (mode : Token.Mode) (more : List Char) :
    Lexes mode ("(".toList ++ more) [.punct .openParen] more := by
  have alone : StandsAlone .openParen := ⟨nofun, nofun, nofun⟩
  exact Lexes.punct alone

theorem lexes_closeParen (mode : Token.Mode) (more : List Char) :
    Lexes mode (")".toList ++ more) [.punct .closeParen] more := by
  have alone : StandsAlone .closeParen := ⟨nofun, nofun, nofun⟩
  exact Lexes.punct alone

/-- The text of an expression is lexed as its tokens. -/
theorem Expr.lexes {expr : Expr} (written : expr.Writable) (apart : StartsApart more) :
    Lexes mode (expr.text.toList ++ more) expr.kinds more := by
  induction expr generalizing mode more with
  | constant value =>
    obtain ⟨n, small, rfl⟩ := written
    have numeral := Text.isNumeralText_decimal n
    rw [← Text.signedDecimal_ofNat small] at numeral
    exact Lexes.decimal numeral apart
  | symbol name => exact Lexes.name written apart
  | unary op operand ih =>
    have sign : Lexes mode (op.punct.text.toList ++ (operand.text.toList ++ more)) [.punct op.punct]
        (operand.text.toList ++ more) :=
      .punct (by cases op <;> exact ⟨nofun, nofun, nofun⟩)
    rw [text, String.toList_append, ← op.text_punct, List.append_assoc]
    exact sign.append (ih written apart)
  | binary op left right ihLeft ihRight =>
    have blank (text : List Char) : StartsApart (" ".toList ++ text) :=
      startsApart_cons (by decide) text
    have close : StartsApart (")".toList ++ more) :=
      startsApart_cons (by decide) more
    have pieces := (lexes_openParen mode _).append <| (ihLeft written.1 (blank _)).append <|
      Lexes.space.append <| (Lexes.punct_apart op.punct (blank _)).append <|
      Lexes.space.append <| (ihRight written.2 close).append (lexes_closeParen _ more)
    simpa only [text, kinds, String.toList_append, op.text_punct,
      List.append_assoc, List.cons_append, List.nil_append] using pieces

theorem Modifier.isNameText_text (kind : Modifier) : TokenKind.IsNameText kind.text := by
  cases kind <;> exact ⟨_, _, rfl, by decide, List.all_eq_true.1 (by decide)⟩

/-- The text of an operand expression is lexed as its tokens. -/
theorem OperandExpr.lexes {expr : OperandExpr} (written : expr.Writable)
    (apart : StartsApart more) : Lexes mode (expr.text.toList ++ more) expr.kinds more := by
  cases expr with
  | plain expr => exact Expr.lexes written apart
  | modified kind inner negated =>
    have close : StartsApart (")".toList ++ more) :=
      startsApart_cons (by decide) more
    have opened (text : List Char) : StartsApart ("(".toList ++ text) :=
      startsApart_cons (by decide) text
    have name (mode : Token.Mode) (text : List Char) :
        Lexes mode (kind.text.toList ++ ("(".toList ++ text)) [.name kind.text]
          ("(".toList ++ text) :=
      .name kind.isNameText_text (opened text)
    have named (mode : Token.Mode) := (name mode _).append <|
      (lexes_openParen _ _).append <| (Expr.lexes written.2 close).append (lexes_closeParen _ more)
    cases negated with
    | true =>
      have alone : StandsAlone .dash := ⟨nofun, nofun, nofun⟩
      have dash (text : List Char) : Lexes mode ("-".toList ++ text) [.punct .dash] text :=
        .punct alone
      have pieces := (dash _).append (named _)
      simpa [text, kinds] using pieces
    | false => simpa [text, kinds] using named mode

theorem Register.isNameText_text {found : Register} (h : found.isOperandClass) :
    TokenKind.IsNameText found.text := by
  cases found with
  | x | y | s => exact ⟨_, [], rfl, rfl, by simp⟩
  | a | p | rc | rs => cases h

namespace Instruction

open Operand (Spells)

variable {features : FeatureSet} {before operand : Operand} {rest operands : List Operand}
  {kinds : List TokenKind}

/-- The token between two operands where their text has a comma. -/
def gap (before after : Operand) : List TokenKind :=
  if opens before || closes after then [] else [.punct .comma]

/-- The tokens of the text of operands that stand behind another one. -/
inductive SpellsBehind (features : FeatureSet) : Operand → List Operand → List TokenKind → Prop
  | nil {before : Operand} : SpellsBehind features before [] []
  | cons {before operand : Operand} {rest : List Operand} {kinds kinds' : List TokenKind}
      (head : operand.Spells features kinds) (tail : SpellsBehind features operand rest kinds') :
      SpellsBehind features before (operand :: rest) (gap before operand ++ (kinds ++ kinds'))

theorem exists_spellsBehind (h : ∀ operand ∈ operands, operand.IsSpelled features)
    (before : Operand) : ∃ kinds, SpellsBehind features before operands kinds := by
  induction operands generalizing before with
  | nil => exact ⟨[], .nil⟩
  | cons operand rest ih =>
    obtain ⟨⟨kinds, head⟩, others⟩ := List.forall_mem_cons.1 h
    obtain ⟨kinds', tail⟩ := ih others operand
    exact ⟨_, .cons head tail⟩

/-- An operand with the text of an operator is that operator. -/
theorem eq_of_isToken {p : Punct} (h : operand.Spells features kinds)
    (same : operand.isToken p.text) : operand.text = p.text ∧ kinds = [.punct p] := by
  cases h with
  | token lexed inside _ _ =>
    have same : Text.SameIgnoringCase _ p.text := of_decide_eq_true same
    rw [TokenKind.eq_punct_of_sameIgnoringCase lexed inside same]
    exact ⟨rfl, rfl⟩
  | register | immediate => cases same

theorem eq_of_opens (h : operand.Spells features kinds) (opening : opens operand) :
    ∃ p, operand.text = p.text ∧ kinds = [.punct p] ∧
      (p = .hash ∨ p = .openParen ∨ p = .openBracket) := by
  simp only [opens, Bool.or_eq_true] at opening
  rcases opening with (hash | paren) | bracket
  · obtain ⟨text, same⟩ := eq_of_isToken (p := .hash) h hash
    exact ⟨.hash, text, same, .inl rfl⟩
  · obtain ⟨text, same⟩ := eq_of_isToken (p := .openParen) h paren
    exact ⟨.openParen, text, same, .inr (.inl rfl)⟩
  · obtain ⟨text, same⟩ := eq_of_isToken (p := .openBracket) h bracket
    exact ⟨.openBracket, text, same, .inr (.inr rfl)⟩

theorem eq_of_closes (h : operand.Spells features kinds) (closing : closes operand) :
    ∃ p, operand.text = p.text ∧ kinds = [.punct p] ∧ (p = .closeParen ∨ p = .closeBracket) := by
  simp only [closes, Bool.or_eq_true] at closing
  rcases closing with paren | bracket
  · obtain ⟨text, same⟩ := eq_of_isToken (p := .closeParen) h paren
    exact ⟨.closeParen, text, same, .inl rfl⟩
  · obtain ⟨text, same⟩ := eq_of_isToken (p := .closeBracket) h bracket
    exact ⟨.closeBracket, text, same, .inr rfl⟩

namespace SpellsBehind

/-- Behind an operand that opens no group comes a comma, a closing delimiter or the end. -/
theorem follows (h : SpellsBehind features before operands kinds) (apart : ¬opens before) :
    ∀ kind ∈ (kinds ++ [TokenKind.endOfStatement]).head?, kind.Follows := by
  intro kind found
  cases h with
  | nil =>
    cases found
    exact rfl
  | @cons _ operand rest kinds kinds' head tail =>
    by_cases closing : closes operand
    · obtain ⟨p, -, rfl, closer⟩ := eq_of_closes head closing
      rw [gap, if_pos (by simp [closing])] at found
      cases found
      exact .inr closer
    · rw [gap, if_neg (by simp [apart, closing])] at found
      cases found
      exact .inl rfl

/-- Nor is such an operand glued to the text behind it. -/
theorem startsApart (h : SpellsBehind features before operands kinds) (apart : ¬opens before) :
    StartsApart (restText before operands).toList := by
  cases h with
  | nil => nofun
  | @cons _ operand rest kinds kinds' head tail =>
    by_cases closing : closes operand
    · obtain ⟨p, text, -, closer⟩ := eq_of_closes head closing
      have gap : separator before operand = "" := if_pos (by simp [closing])
      rw [restText, gap, text, String.empty_append, String.toList_append]
      rcases closer with rfl | rfl
      · exact startsApart_cons (by decide) _
      · exact startsApart_cons (by decide) _
    · have gap : separator before operand = ", " := if_neg (by simp [apart, closing])
      rw [restText, gap, String.toList_append, String.toList_append, List.append_assoc]
      exact startsApart_cons (by decide) _

end SpellsBehind

/-- The text of an operand is lexed as its tokens. A group need not stand apart from what is
inside it, and may close where no operand is expected. -/
theorem lexes_operand (h : operand.Spells features kinds)
    (expected : mode ≠ .operandEnded ∨ closes operand)
    (apart : opens operand ∨ StartsApart more) :
    Lexes mode (operand.text.toList ++ more) kinds more := by
  rcases apart with opening | apart
  · obtain ⟨p, text, rfl, opener⟩ := eq_of_opens h opening
    rw [text]
    exact Lexes.punct (by rcases opener with rfl | rfl | rfl <;> exact ⟨nofun, nofun, nofun⟩)
  rcases expected with expected | closing
  · cases h with
    | @token kind _ lexed inside _ _ =>
      exact Lexes.kind kind lexed inside (fun _ _ => expected) apart
    | register operandClass => exact Lexes.name (Register.isNameText_text operandClass) apart
    | immediate written => exact OperandExpr.lexes written apart
  · obtain ⟨p, text, rfl, closer⟩ := eq_of_closes h closing
    rw [text]
    exact Lexes.punct (by rcases closer with rfl | rfl <;> exact ⟨nofun, nofun, nofun⟩)

theorem SpellsBehind.opens_or_startsApart (h : SpellsBehind features before operands kinds) :
    opens before ∨ StartsApart (restText before operands).toList := by
  by_cases opening : opens before
  · exact .inl opening
  · exact .inr (h.startsApart opening)

/-- An operand is expected behind one that opens a group. -/
theorem mode_of_opens (h : operand.Spells features kinds) (opening : opens operand) :
    kinds.foldl Token.Mode.next mode ≠ .operandEnded := by
  obtain ⟨p, -, rfl, opener⟩ := eq_of_opens h opening
  rcases opener with rfl | rfl | rfl <;> cases mode <;> nofun

/-- The text of operands behind another one is lexed as their tokens. -/
theorem SpellsBehind.lexes (h : SpellsBehind features before operands kinds)
    (expected : opens before → mode ≠ .operandEnded) :
    Lexes mode (restText before operands).toList kinds [] := by
  induction h generalizing mode with
  | nil => exact .done
  | @cons before operand rest kinds kinds' head tail ih =>
    have pieces {mode : Token.Mode} (expected : mode ≠ .operandEnded ∨ closes operand) :=
      (lexes_operand head expected tail.opens_or_startsApart).append (ih (mode_of_opens head))
    rw [restText, separator, gap]
    split
    · next close =>
      have expected : mode ≠ .operandEnded ∨ closes operand := by
        rcases Bool.or_eq_true_iff.1 close with opening | closing
        · exact .inl (expected opening)
        · exact .inr closing
      simpa using pieces expected
    · have alone : StandsAlone .comma := ⟨nofun, nofun, nofun⟩
      have comma : Lexes mode (",".toList ++ (" ".toList ++ (operand.text.toList ++
          (restText operand rest).toList))) [.punct .comma] _ := .punct alone
      have whole := comma.append (Lexes.space.append (pieces (.inl ?_)))
      · simpa using whole
      · cases mode <;> nofun

/-- The text of operands alone. -/
def textOf : List Operand → String
  | [] => ""
  | operand :: rest => operand.text ++ restText operand rest

/-- The tokens of the text of operands alone. -/
inductive SpellsAll (features : FeatureSet) : List Operand → List TokenKind → Prop
  | nil : SpellsAll features [] []
  | cons {operand : Operand} {rest : List Operand} {kinds kinds' : List TokenKind}
      (head : operand.Spells features kinds) (tail : SpellsBehind features operand rest kinds') :
      SpellsAll features (operand :: rest) (kinds ++ kinds')

theorem SpellsBehind.inside (h : SpellsBehind features before operands kinds) :
    ∀ kind ∈ kinds, kind ≠ .endOfStatement := by
  induction h with
  | nil => simp
  | @cons before operand rest kinds kinds' head tail ih =>
    have comma : ∀ kind ∈ gap before operand, kind ≠ .endOfStatement := by
      unfold gap
      split <;> simp
    exact List.forall_mem_append.2 ⟨comma, List.forall_mem_append.2 ⟨head.inside, ih⟩⟩

theorem exists_spellsAll (h : ∀ operand ∈ operands, operand.IsSpelled features) :
    ∃ kinds, SpellsAll features operands kinds := by
  cases operands with
  | nil => exact ⟨[], .nil⟩
  | cons operand rest =>
    obtain ⟨⟨kinds, head⟩, others⟩ := List.forall_mem_cons.1 h
    obtain ⟨kinds', tail⟩ := exists_spellsBehind others operand
    exact ⟨_, .cons head tail⟩

namespace SpellsAll

theorem inside (h : SpellsAll features operands kinds) :
    ∀ kind ∈ kinds, kind ≠ .endOfStatement := by
  cases h with
  | nil => simp
  | cons head tail => exact List.forall_mem_append.2 ⟨head.inside, tail.inside⟩

/-- The text of operands is lexed as their tokens. -/
theorem lexes (h : SpellsAll features operands kinds) :
    Lexes .operandExpected (textOf operands).toList kinds [] := by
  cases h with
  | nil => exact .done
  | @cons operand rest kinds kinds' head tail =>
    rw [textOf, String.toList_append]
    have expected : Token.Mode.operandExpected ≠ .operandEnded := nofun
    have first := lexes_operand head (.inl expected) tail.opens_or_startsApart
    exact first.append (tail.lexes (mode_of_opens head))

end SpellsAll

theorem operandsText_eq (operands : List Operand) :
    operandsText operands = if operands = [] then "" else " " ++ textOf operands := by
  cases operands with
  | nil => rfl
  | cons operand rest =>
    simp only [operandsText, textOf, String.append_assoc, reduceCtorEq, if_false]

/-- The text of an instruction is lexed as its mnemonic and the tokens of its operands. -/
theorem lexes_text {mnemonic : String} (name : TokenKind.IsNameText mnemonic)
    (h : SpellsAll features operands kinds) :
    Lexes .statementStart (mnemonic ++ operandsText operands).toList (.name mnemonic :: kinds)
      [] := by
  rw [String.toList_append, operandsText_eq]
  split
  · next empty =>
    subst empty
    cases h
    have apart : StartsApart [] := nofun
    exact Lexes.name name apart
  · have apart : StartsApart (" ".toList ++ (textOf operands).toList) :=
      startsApart_cons (by decide) _
    rw [String.toList_append]
    exact (Lexes.name name apart).append (Lexes.space.append h.lexes)

end Instruction

end Asm65
