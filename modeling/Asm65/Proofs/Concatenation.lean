import Asm65.Proofs.Lexer
import Asm65.Proofs.Lines

/-!
# Concatenation

Two sources with a newline between them assemble to what the first one
assembles to, followed by what the second one does with its spans further on
(`ofSource_append_newline`). No line changes what another one assembles to.

## Implementation notes

A source that is lexed to its end closes its last statement by itself. With a
newline behind it the closing token is the newline, so the first source counts
with its newline.
-/

namespace Asm65

namespace Token

theorem closeStatement_of_ended {tokens : List Token} (h : EndsStatement tokens) (offset : Nat) :
    closeStatement offset tokens = tokens :=
  if_pos h

theorem endsStatement_append {first second : List Token} (h : second ≠ []) :
    EndsStatement (first ++ second) ↔ EndsStatement second := by
  rw [EndsStatement, EndsStatement, List.getLast?_append_of_ne_nil first h]

theorem closeStatement_append (offset : Nat) (first : List Token) {second : List Token}
    (h : second ≠ []) :
    closeStatement offset (first ++ second) = first ++ closeStatement offset second := by
  simp only [closeStatement, endsStatement_append h]
  split
  · rfl
  · exact List.append_assoc _ _ _

theorem closeStatement_agree {place : Placement} {offset offset' : Nat}
    {tokens tokens' : List Token} (ends : place.Rel (.empty offset) (.empty offset'))
    (agree : List.Forall₂ (Token.Agree place) tokens tokens') :
    List.Forall₂ (Token.Agree place) (closeStatement offset tokens)
      (closeStatement offset' tokens') := by
  simp only [closeStatement, endsStatement_agree agree]
  split
  · exact agree
  · exact List.rel_append agree (.cons ⟨rfl, ends⟩ .nil)

/-- A source with a newline behind it, and with another source behind the newline. The second
source leaves no tokens when it has none but the end of statement that closes it. -/
theorem lex_append_newline {first second : String} {tokens tokens' : List Token}
    (h : lex first = .ok tokens) (h' : lex second = .ok tokens') :
    ∃ read read', lex (first ++ "\n") = .ok read ∧ EndsStatement read ∧
      lex (first ++ "\n" ++ second) = .ok (read ++ read') ∧
      ((∃ span, tokens' = [⟨.endOfStatement, span⟩]) ∧ read' = [] ∨
        List.Forall₂ (Token.Agree (.shift (first.utf8ByteSize + 1))) tokens' read') := by
  obtain ⟨read, lexed, -⟩ := lex_eq_ok h
  obtain ⟨read', lexed', rfl⟩ := lex_eq_ok h'
  obtain ⟨moved, further, agree⟩ := lexed'.shift (first.utf8ByteSize + 1)
  rw [← utf8Length_toList first, ← Nat.add_assoc] at further
  have alone := lexed.append_newline .nil
  have both := lexed.append_newline further
  rw [List.append_cons read] at both
  have closed : EndsStatement
      (read ++ [⟨.endOfStatement, ⟨0 + utf8Length first.toList, 1⟩⟩]) := by
    simp [EndsStatement]
  have text : (first ++ "\n").toList = first.toList ++ ['\n'] := String.toList_append
  have text' : (first ++ "\n" ++ second).toList = first.toList ++ '\n' :: second.toList := by
    rw [String.toList_append, text, List.append_assoc]
    rfl
  rw [← text] at alone
  rw [← text'] at both
  have alone := lex_of_lexed alone
  have both := lex_of_lexed both
  rw [closeStatement_of_ended closed] at alone
  by_cases nothing : moved = []
  · subst nothing
    cases agree
    rw [List.append_nil, closeStatement_of_ended closed] at both
    exact ⟨_, [], alone, closed, by rw [both, List.append_nil], .inl ⟨⟨_, rfl⟩, rfl⟩⟩
  · rw [closeStatement_append _ _ nothing] at both
    refine ⟨_, _, alone, closed, both, .inr ?_⟩
    have length : utf8Length (first ++ "\n" ++ second).toList =
        utf8Length second.toList + (first.utf8ByteSize + 1) := by
      have newline : '\n'.utf8Size = 1 := rfl
      rw [text', utf8Length_append, utf8Length_cons, newline, utf8Length_toList first]
      omega
    rw [length]
    exact closeStatement_agree rfl agree

end Token

namespace Assembly

/-- A blank line gives nothing. -/
theorem ofTokens_blank (table : Table) (config : Config) (span : Span) :
    ofCursor table config (.ofTokens [⟨.endOfStatement, span⟩]) = ∅ := by
  have some_left : (Cursor.ofTokens [⟨.endOfStatement, span⟩]).rest ≠ [] := List.cons_ne_nil _ _
  have ended : (Cursor.ofTokens [⟨.endOfStatement, span⟩]).AtEndOfStatement := by
    intro token here
    cases here
    rfl
  rw [ofCursor_of_rest table config some_left, step, if_pos ended]
  exact ofCursor_of_end table config rfl

/-- Sources with a newline between them are assembled as they would be apart. -/
theorem ofSource_append_newline (table : Table) (config : Config) {first second : String}
    {tokens tokens' : List Token} (h : Token.lex first = .ok tokens)
    (h' : Token.lex second = .ok tokens') :
    (∃ all, Token.lex (first ++ "\n" ++ second) = .ok all) ∧
      ofSource table config (first ++ "\n" ++ second) =
        ofSource table config (first ++ "\n") ++
          (ofSource table config second).mapSpan (Span.shift (first.utf8ByteSize + 1)) := by
  obtain ⟨read, read', alone, ended, both, rest⟩ := Token.lex_append_newline h h'
  have ended' := Token.endsStatement_of_lex h'
  refine ⟨⟨_, both⟩, ?_⟩
  simp only [ofSource, alone, both, h']
  rcases rest with ⟨⟨span, rfl⟩, rfl⟩ | agree
  · rw [List.append_nil, ofTokens_blank]
    exact (append_empty _).symm
  · have moved := ofTokens_agree table config (.inr ended') agree
    rw [ofCursor_append table config (.inr ended) (.inr ((endsStatement_agree agree).1 ended')),
      moved.eq_mapSpan id]

/-- A bad line in front, and a line whose label and operand stand further on than they would
alone. -/
theorem ofSource_append_newline_bad_line :
    ofSource (.ofTemplates [.ofMnemonic "lda" [.literal "#", .value .imm8] 0xA9 ∅]) {}
        (")" ++ "\n" ++ "x: lda #1") =
      ofSource (.ofTemplates [.ofMnemonic "lda" [.literal "#", .value .imm8] 0xA9 ∅]) {}
          (")" ++ "\n") ++
        (ofSource (.ofTemplates [.ofMnemonic "lda" [.literal "#", .value .imm8] 0xA9 ∅]) {}
          "x: lda #1").mapSpan (Span.shift 2) := by
  have h : Token.lex ")" =
      .ok [⟨.punct .closeParen, ⟨0, 1⟩⟩, ⟨.endOfStatement, ⟨1, 0⟩⟩] := by cbv
  have h' : Token.lex "x: lda #1" =
      .ok [⟨.name "x", ⟨0, 1⟩⟩, ⟨.punct .colon, ⟨1, 1⟩⟩, ⟨.name "lda", ⟨3, 3⟩⟩,
        ⟨.punct .hash, ⟨7, 1⟩⟩, ⟨.number .decimal "1", ⟨8, 1⟩⟩, ⟨.endOfStatement, ⟨9, 0⟩⟩] := by
    cbv
  exact (ofSource_append_newline _ _ h h').2

end Assembly

end Asm65
