import Asm65.Proofs.Blocks
import Asm65.Proofs.Settling.OperandExpr

/-!
# Where errors are anchored

When something else is expected in an expression or operand expression, the first
token that fits nowhere is reported (`read_anchored`). The tokens before it can be
gone on with to a statement that is read, and with it nothing that follows is.
-/

namespace Asm65

theorem Cursor.span_advance {cursor : Cursor} {n : Nat} {token : Token}
    (found : cursor.rest[n]? = some token) : (cursor.advance n).span = token.span := by
  simp [span, peek?, advance, found]

namespace Reader

variable {α : Type} {reader : Reader α} {tokens : List Token}

/-- Whether some tokens are the first ones of a statement that a reader takes up to its end. -/
def Viable (reader : Reader α) (tokens : List Token) : Prop :=
  ∃ more last value, last.kind = .endOfStatement ∧ reader (.ofTokens (tokens ++ more ++ [last])) =
    .ok value (.atIndex (tokens ++ more ++ [last]) (tokens ++ more).length)

/-- Whether a reader fails at everything that starts with some tokens. -/
def Refuses (reader : Reader α) (tokens : List Token) : Prop :=
  ∀ more value now, reader (.ofTokens (tokens ++ more)) ≠ .ok value now

/-- Whether a reader that expected something else stands at the first token with which it refuses
what it has read, and reports that token. -/
def Anchors (reader : Reader α) (tokens : List Token) : Prop :=
  ∀ what span now, reader (.ofTokens tokens) = .error ⟨.expected what, span⟩ now →
    ∃ i token, now = .atIndex tokens i ∧ tokens[i]? = some token ∧ span = token.span ∧
      Viable reader (tokens.take i) ∧ Refuses reader (tokens.take (i + 1))

theorem Mends.viable (mends : Mends reader tokens) : Viable reader tokens := by
  obtain ⟨more, value, -, taken⟩ := mends
  let last : Token := ⟨.endOfStatement, .empty 0⟩
  refine ⟨more, last, value, rfl, ?_⟩
  have inert : Token.InertFirst [last] := by simp [Token.InertFirst, TokenKind.Inert, last]
  rw [taken _ [last] rfl inert, Cursor.ofTokens, Cursor.atIndex_advance, Nat.zero_add]

theorem Settles.span_eq (settles : Settles reader) {cursor : Cursor} {n : Nat} {what : Expected}
    {span : Span} (failed : reader cursor = .error ⟨.expected what, span⟩ (cursor.advance n)) :
    span = (cursor.advance n).span := by
  cases (settles.error failed rfl).symm.trans failed
  rfl

theorem Settles.refuses (settles : Settles reader) {n : Nat} {what : Expected} {span : Span}
    (failed : reader (.ofTokens tokens) =
      .error ⟨.expected what, span⟩ ((Cursor.ofTokens tokens).advance n))
    (bound : n < tokens.length) : Refuses reader (tokens.take (n + 1)) := by
  intro more value now read
  have same : (Cursor.ofTokens (tokens.take (n + 1) ++ more)).rest.take (n + 1) =
      (Cursor.ofTokens tokens).rest.take (n + 1) :=
    List.take_left' (List.length_take_of_le bound)
  cases (settles.error failed same).symm.trans read

/-- A settled reader that stays in the statement anchors its errors. -/
theorem Settles.anchors (settles : Settles reader)
    (inside : ∀ start : Cursor, start.InStatement (stopOf (reader start)))
    (ends : Token.EndsStatement tokens) : Anchors reader tokens := by
  intro what span now failed
  obtain ⟨n, bound, stop, before⟩ := inside (.ofTokens tokens)
  rw [failed] at stop
  obtain rfl : now = (Cursor.ofTokens tokens).advance n := stop
  have lt : n < tokens.length := by
    obtain ⟨last, found, closed⟩ := Option.map_eq_some_iff.1 ends
    refine Nat.lt_of_not_le fun whole => ?_
    have all : (Cursor.ofTokens tokens).rest.take n = tokens := List.take_of_length_le whole
    rw [all] at before
    exact before last (List.mem_of_getLast? found) closed
  refine ⟨n, tokens[n], ?_, List.getElem?_eq_getElem lt, ?_, (settles.mends failed).viable,
    settles.refuses failed lt⟩
  · rw [Cursor.ofTokens, Cursor.atIndex_advance, Nat.zero_add]
  · rw [settles.span_eq failed]
    exact Cursor.span_advance (List.getElem?_eq_getElem lt)

end Reader

/-- Where an expression or operand expression expects something else in a statement, it reports the
token at the cursor. The tokens before that one can be gone on with to a statement that is read up
to its end, and whatever follows, no token list that starts with them and that token is read. -/
theorem read_anchored (tokens : List Token) (ends : Token.EndsStatement tokens) :
    Expr.read.Anchors tokens ∧ OperandExpr.read.Anchors tokens :=
  ⟨Expr.settles_read.anchors
      (Reader.inStatement_of_respects Expr.settles_read.passes fun _ => Expr.respects_read) ends,
    OperandExpr.settles_read.anchors
      (Reader.inStatement_of_respects OperandExpr.settles_read.passes
        fun _ => OperandExpr.respects_read) ends⟩

/-- In `lo(-(2)+3)` the sign takes the group, and `+` is the first token that fits nowhere. -/
theorem read_anchored_signed_group :
    let tokens : List Token := [⟨.name "lo", ⟨0, 2⟩⟩, ⟨.punct .openParen, ⟨2, 1⟩⟩,
      ⟨.punct .dash, ⟨3, 1⟩⟩, ⟨.punct .openParen, ⟨4, 1⟩⟩, ⟨.number .decimal "2", ⟨5, 1⟩⟩,
      ⟨.punct .closeParen, ⟨6, 1⟩⟩, ⟨.punct .plus, ⟨7, 1⟩⟩, ⟨.number .decimal "3", ⟨8, 1⟩⟩,
      ⟨.punct .closeParen, ⟨9, 1⟩⟩, ⟨.endOfStatement, ⟨10, 0⟩⟩]
    Token.EndsStatement tokens ∧
      OperandExpr.read (.ofTokens tokens) =
        .error ⟨.expected .closeParen, ⟨7, 1⟩⟩ (.atIndex tokens 6) ∧
      OperandExpr.read.Viable (tokens.take 6) ∧ OperandExpr.read.Refuses (tokens.take 7) := by
  intro tokens
  have ends : Token.EndsStatement tokens := by decide
  have failed : OperandExpr.read (.ofTokens tokens) =
      .error ⟨.expected .closeParen, ⟨7, 1⟩⟩ (.atIndex tokens 6) := by cbv
  obtain ⟨i, token, now, -, -, viable, refuses⟩ := (read_anchored tokens ends).2 _ _ _ failed
  obtain rfl : 6 = i := congrArg Cursor.position now
  exact ⟨ends, failed, viable, refuses⟩

end Asm65
