import Asm65.Proofs.ReadBack.Text

/-!
# Texts of operand expressions

The text of an operand expression is lexed, and it is read as an operand
expression that means the same (`OperandExpr.Alike`), unless a modifier with a
stub takes the symbol under it for the word that asks for the stub
(`OperandExpr.read_text_alike`). The text of an arithmetic expression is read as
the same tree (`Expr.writable_iff_read_text`).

## Implementation notes

The text always names the modifier. So `<gs` has the text `mos16lo(gs)`, in which
nothing is left to be selected from.
-/

namespace Asm65

namespace Expr

/-- The symbols of an expression, in the order they are written. -/
def symbols : Expr → List String
  | constant _ => []
  | symbol name => [name]
  | unary _ operand => operand.symbols
  | binary _ left right => left.symbols ++ right.symbols

theorem symbols_withoutPlus (expr : Expr) : expr.withoutPlus.symbols = expr.symbols := by
  unfold withoutPlus
  split <;> rfl

end Expr

namespace OperandExpr

/-- The modifier of an operand expression, and whether a sign negates what is under it. -/
def modifier? : OperandExpr → Option (Modifier × Bool)
  | plain _ => none
  | modified kind _ negated => some (kind, negated)

/-- Two operand expressions with the same modifier, value and symbols. -/
structure Alike (expr expr' : OperandExpr) : Prop where
  modifier : expr.modifier? = expr'.modifier?
  value : expr.value? = expr'.value?
  symbols : expr.inner.symbols = expr'.inner.symbols

theorem alike_withoutPlus (expr : OperandExpr) : Alike expr expr.withoutPlus := by
  cases expr with
  | plain expr => exact ⟨rfl, rfl, rfl⟩
  | modified kind inner negated =>
    refine ⟨rfl, ?_, inner.symbols_withoutPlus.symm⟩
    rw [withoutPlus, value?, value?, Expr.value?_withoutPlus]

/-- The text of an operand expression is lexed as its tokens and an end of statement. -/
theorem exists_lex_text {expr : OperandExpr} (written : expr.Writable) :
    ∃ tokens last, Token.lex expr.text = .ok (tokens ++ [last]) ∧
      tokens.map Token.kind = expr.kinds ∧ last.kind = .endOfStatement := by
  have apart : Token.StartsApart [] := nofun
  have lexes : Token.Lexes .statementStart expr.text.toList expr.kinds [] := by
    simpa using OperandExpr.lexes written apart
  obtain ⟨tokens, lexed, same⟩ := lexes.lexed 0
  have closed := Token.kinds_closeStatement same expr.inside_kinds
    (utf8Length expr.text.toList)
  obtain ⟨front, back, whole, front', back'⟩ := List.map_eq_append_iff.1 closed
  obtain ⟨last, rfl, ends⟩ := List.map_eq_singleton_iff.1 back'
  exact ⟨front, last, whole ▸ Token.lex_of_lexed lexed, front', ends⟩

/-- The text of an operand expression is read as one that means the same, exactly when its modifier
does not take a symbol for the word that asks for a stub. -/
theorem read_text_alike {source : String} {tokens : List Token} {start : Nat} {expr : OperandExpr}
    {after : Cursor} (lexed : Token.lex source = .ok tokens)
    (found : read (.atIndex tokens start) = .ok expr after) :
    ∃ tokens', Token.lex expr.text = .ok tokens' ∧
      (expr.ShowsSymbol → ∃ again after', read (.ofTokens tokens') = .ok again after' ∧
        after'.AtEndOfStatement ∧ Alike expr again) ∧
      (¬expr.ShowsSymbol → ∃ span after',
        read (.ofTokens tokens') = .error ⟨.expected .expression, span⟩ after') := by
  have known : (Cursor.atIndex tokens start).IsLexed := fun token among =>
    Token.isLexed_of_lex lexed token (List.mem_of_mem_drop among)
  have written := gives_read known found
  obtain ⟨tokens', last, lexed', kinds, ends⟩ := exists_lex_text written
  have here : (Cursor.ofTokens (tokens' ++ [last])).rest = tokens' ++ [last] := rfl
  refine ⟨tokens' ++ [last], lexed', fun shows => ?_, fun hidden => ?_⟩
  · have follows : ∀ token ∈ [last].head?, token.kind.Follows := by
      rintro token ⟨⟩
      rw [ends]
      exact rfl
    have stopped :
        ((Cursor.ofTokens (tokens' ++ [last])).advance tokens'.length).AtEndOfStatement := by
      rw [Cursor.AtEndOfStatement, Cursor.peek?, Cursor.rest_advance here]
      rintro token ⟨⟩
      exact ends
    exact ⟨_, _, read_text written shows here kinds follows, stopped, expr.alike_withoutPlus⟩
  · exact read_text_of_hidden written hidden here kinds

/-- The text of `<+(1+2)` is read without the plus sign. -/
theorem read_text_alike_signed_sum :
    let expr : OperandExpr := .modified .addr16Low
      (.unary .plus (.binary .add (.constant 1) (.constant 2))) false
    ∃ tokens again after, Token.lex expr.text = .ok tokens ∧
      read (.ofTokens tokens) = .ok again after ∧ after.AtEndOfStatement ∧ Alike expr again := by
  intro expr
  let tokens : List Token := [⟨.punct .less, ⟨0, 1⟩⟩, ⟨.punct .plus, ⟨1, 1⟩⟩,
    ⟨.punct .openParen, ⟨2, 1⟩⟩, ⟨.number .decimal "1", ⟨3, 1⟩⟩, ⟨.punct .plus, ⟨4, 1⟩⟩,
    ⟨.number .decimal "2", ⟨5, 1⟩⟩, ⟨.punct .closeParen, ⟨6, 1⟩⟩, ⟨.endOfStatement, ⟨7, 0⟩⟩]
  have lexed : Token.lex "<+(1+2)" = .ok tokens := by cbv
  have found : read (.atIndex tokens 0) = .ok expr (.atIndex tokens 7) := by cbv
  obtain ⟨tokens', lexed', shows, -⟩ := read_text_alike lexed found
  have shown : expr.ShowsSymbol := by
    intro name symbol
    cases symbol
  obtain ⟨again, after, read', stopped, alike⟩ := shows shown
  exact ⟨tokens', again, after, lexed', read', stopped, alike⟩

/-- The text `mos16lo(gs)` of `<gs` is not read. -/
theorem exists_read_text_eq_error : ∃ tokens expr after tokens' diagnostic after',
    Token.lex "<gs" = .ok tokens ∧ read (.ofTokens tokens) = .ok expr after ∧
      Token.lex expr.text = .ok tokens' ∧
      read (.ofTokens tokens') = .error diagnostic after' := by
  let tokens : List Token := [⟨.punct .less, ⟨0, 1⟩⟩, ⟨.name "gs", ⟨1, 2⟩⟩,
    ⟨.endOfStatement, ⟨3, 0⟩⟩]
  let tokens' : List Token := [⟨.name "mos16lo", ⟨0, 7⟩⟩, ⟨.punct .openParen, ⟨7, 1⟩⟩,
    ⟨.name "gs", ⟨8, 2⟩⟩, ⟨.punct .closeParen, ⟨10, 1⟩⟩, ⟨.endOfStatement, ⟨11, 0⟩⟩]
  have lexed : Token.lex "<gs" = .ok tokens := by cbv
  have found : read (.ofTokens tokens) =
      .ok (.modified .addr16Low (.symbol "gs") false) (.atIndex tokens 2) := by cbv
  have lexed' : Token.lex "mos16lo(gs)" = .ok tokens' := by cbv
  have failed : read (.ofTokens tokens') =
      .error ⟨.expected .expression, ⟨10, 1⟩⟩ (.atIndex tokens' 3) := by cbv
  exact ⟨tokens, _, _, tokens', _, _, lexed, found, lexed', failed⟩

end OperandExpr

namespace Expr

/-- The expressions read from sources are those of names and of constants below 2^32. The text of
such an expression is lexed, and it is read as that expression up to the end of the statement. -/
theorem writable_iff_read_text (expr : Expr) :
    (expr.Writable ↔ ∃ source tokens start after, Token.lex source = .ok tokens ∧
        read (.atIndex tokens start) = .ok expr after) ∧
      (expr.Writable → ∃ tokens last, Token.lex expr.text = .ok (tokens ++ [last]) ∧
        last.kind = .endOfStatement ∧
        read (.ofTokens (tokens ++ [last])) =
          .ok expr (.atIndex (tokens ++ [last]) tokens.length)) := by
  have whole (written : expr.Writable) : ∃ tokens last,
      Token.lex expr.text = .ok (tokens ++ [last]) ∧ last.kind = .endOfStatement ∧
        read (.ofTokens (tokens ++ [last])) =
          .ok expr (.atIndex (tokens ++ [last]) tokens.length) := by
    have plain : (OperandExpr.plain expr).Writable := written
    obtain ⟨tokens, last, lexed, kinds, ends⟩ := OperandExpr.exists_lex_text plain
    have here : (Cursor.ofTokens (tokens ++ [last])).rest = tokens ++ [last] := rfl
    have follows : ∀ token ∈ [last].head?, token.kind.Follows := by
      rintro token ⟨⟩
      rw [ends]
      exact rfl
    refine ⟨tokens, last, lexed, ends, ?_⟩
    rw [read_kinds written here kinds follows, Cursor.ofTokens, Cursor.atIndex_advance,
      Nat.zero_add]
  refine ⟨⟨fun written => ?_, ?_⟩, whole⟩
  · obtain ⟨tokens, last, lexed, -, found⟩ := whole written
    exact ⟨expr.text, _, 0, _, lexed, found⟩
  · rintro ⟨source, tokens, start, after, lexed, found⟩
    have known : (Cursor.atIndex tokens start).IsLexed := fun token among =>
      Token.isLexed_of_lex lexed token (List.mem_of_mem_drop among)
    exact gives_read known found

/-- The signs and the remainder in `-~(n % 10)` are read back. -/
theorem writable_iff_read_text_remainder :
    let expr : Expr := .unary .neg (.unary .not (.binary .mod (.symbol "n") (.constant 10)))
    expr.Writable ∧ ∃ tokens last, Token.lex expr.text = .ok (tokens ++ [last]) ∧
      last.kind = .endOfStatement ∧
      read (.ofTokens (tokens ++ [last])) =
        .ok expr (.atIndex (tokens ++ [last]) tokens.length) := by
  intro expr
  have written : expr.Writable := ⟨⟨'n', [], rfl, by decide, by simp⟩, 10, by decide, rfl⟩
  exact ⟨written, (writable_iff_read_text expr).2 written⟩

end Expr

end Asm65
