import Asm65.Proofs.Concatenation
import Asm65.Proofs.Splicing
import Asm65.Proofs.Tiling

/-!
# Spacing

Blanks that are put in between tokens, and comments that are put in at the ends of
lines, leave the kinds of the tokens as they are. So a source with more of them is
assembled to the same statements and diagnostics, at other places
(`Assembly.ofSource_spaced`).

## Implementation notes

`Spaced` goes along both texts at once. Its offsets are those of the first text, where
the tokens say which places are free.
-/

namespace Asm65

open Token (lexeme scan Lexes StartsApart startsApart_cons)

/-- Whether no token holds an offset strictly inside. -/
def Token.IsBetween (tokens : List Token) (offset : Nat) : Prop :=
  ∀ token ∈ tokens, offset ≤ token.span.offset ∨ token.span.stop ≤ offset

instance (tokens : List Token) (offset : Nat) : Decidable (Token.IsBetween tokens offset) :=
  inferInstanceAs (Decidable (∀ _ ∈ _, _))

/-- A text that starts at an offset, and the same text with blanks put in at free offsets and
comments put in in front of newlines and at the end. -/
inductive Spaced (free : Nat → Prop) : Nat → List Char → List Char → Prop
  | done {offset : Nat} : Spaced free offset [] []
  | keep {offset : Nat} {c : Char} {text text' : List Char}
      (tail : Spaced free (offset + c.utf8Size) text text') :
      Spaced free offset (c :: text) (c :: text')
  | blank {offset : Nat} {c : Char} {text text' : List Char} (h : c ∈ [' ', '\t', '\r'])
      (here : free offset) (tail : Spaced free offset text text') :
      Spaced free offset text (c :: text')
  | comment {offset : Nat} {written text text' : List Char} (inside : '\n' ∉ written)
      (ended : ∀ c ∈ text.head?, c = '\n') (tail : Spaced free offset text text') :
      Spaced free offset text (';' :: (written ++ text'))

/-- A token goes on over no newline. -/
theorem Token.newline_not_mem_of_scan {mode : Mode} {c : Char} {rest : List Char}
    {kind : TokenKind} (scanned : (scan mode c rest).1 = .token kind) :
    '\n' ∉ rest.take (scan mode c rest).2 := by
  intro among
  have spelled := lexeme_mem_spellings scanned
  obtain rfl := TokenKind.eq_endOfStatement_of_newline (isLexed_of_scan scanned) spelled
    (List.mem_cons_of_mem c among)
  have alone : c :: rest.take (scan mode c rest).2 = ['\n'] :=
    TokenKind.eq_newline_of_mem_spellings spelled
  rw [(List.cons.inj alone).2] at among
  cases among

/-- No token is lexed from a gap. -/
theorem IsGap.lexes {mode : Token.Mode} {gap after more : List Char} {kinds : List TokenKind}
    (h : IsGap gap after) (tail : Lexes mode after kinds more) :
    Lexes mode (gap ++ after) kinds more := by
  induction h with
  | nil => exact tail
  | @blank c gap after h _ ih =>
    have scanned : scan mode c (gap ++ after) = (.blank, 0) := by fin_cases h <;> rfl
    apply Lexes.blank
    · rw [List.append_eq, scanned]
    · rw [List.append_eq, Token.behind, scanned]
      exact ih tail
  | @comment text after inside ended =>
    have whole : (text ++ after).takeWhile (· ≠ '\n') = text := by
      rw [Token.takeWhile_append_apart fun c next => by simpa using ended c next,
        List.takeWhile_eq_self_iff]
      intro c among
      exact decide_eq_true fun newline => inside (newline ▸ among)
    have scanned : scan mode ';' (text ++ after) = (.blank, text.length) := by
      rw [scan, whole]
    apply Lexes.blank
    · rw [List.append_eq, scanned]
    · rw [List.append_eq, Token.behind, scanned, List.drop_left]
      exact tail

namespace Spaced

variable {free : Nat → Prop} {offset : Nat} {c : Char} {rest text text' after after' : List Char}

/-- Behind the end of a text only a gap can be put in. -/
theorem isGap_of_nil (h : Spaced free offset [] text') : IsGap text' [] := by
  generalize empty : ([] : List Char) = text at h
  induction h with
  | done => exact .nil
  | keep => cases empty
  | blank h _ _ ih => exact .blank h (ih empty)
  | comment inside ended _ ih =>
    exact .comment (List.not_mem_append inside (ih empty).newline_not_mem) ended

/-- In front of a character a gap can be put in. -/
theorem exists_gap (h : Spaced free offset (c :: rest) text') :
    ∃ gap rest', text' = gap ++ c :: rest' ∧ IsGap gap (c :: rest') ∧
      Spaced free (offset + c.utf8Size) rest rest' ∧ (gap = [] ∨ free offset ∨ c = '\n') := by
  generalize whole : c :: rest = text at h
  induction h with
  | done => cases whole
  | keep tail =>
    cases whole
    exact ⟨[], _, rfl, .nil, tail, .inl rfl⟩
  | blank h here _ ih =>
    obtain ⟨gap, rest', rfl, blank, tail, -⟩ := ih whole
    exact ⟨_ :: gap, rest', rfl, .blank h blank, tail, .inr (.inl here)⟩
  | @comment _ written _ _ inside ended _ ih =>
    obtain ⟨gap, rest', rfl, blank, tail, -⟩ := ih whole
    cases whole
    have newline : c = '\n' := ended c rfl
    refine ⟨';' :: (written ++ gap), rest', by simp, ?_, tail, .inr (.inr newline)⟩
    apply IsGap.comment
    · exact List.not_mem_append inside blank.newline_not_mem
    · rintro _ ⟨⟩
      exact newline

/-- Nothing is put in where neither a free offset nor a newline is. -/
theorem exists_append {part : List Char} (h : Spaced free offset (part ++ after) text')
    (taken : ∀ place, offset ≤ place → place < offset + utf8Length part → ¬free place)
    (inside : '\n' ∉ part) :
    ∃ after', text' = part ++ after' ∧ Spaced free (offset + utf8Length part) after after' := by
  induction part generalizing offset text' with
  | nil => exact ⟨text', rfl, h⟩
  | cons c part ih =>
    obtain ⟨first, others⟩ := List.ne_and_not_mem_of_not_mem_cons inside
    have size := c.utf8Size_pos
    rw [utf8Length_cons] at taken ⊢
    obtain ⟨gap, rest', rfl, -, tail, filled⟩ := h.exists_gap
    have none : gap = [] := by
      rcases filled with none | free | newline
      · exact none
      · exact absurd free (taken offset (Nat.le_refl _) (by omega))
      · exact absurd newline.symm first
    subst none
    obtain ⟨after', rfl, last⟩ := ih tail (fun place low high => taken place (by omega) (by omega))
      others
    rw [← Nat.add_assoc]
    exact ⟨after', rfl, last⟩

/-- A comment goes on up to the same newline, or to the end, whatever is put in. -/
theorem exists_comment {written : List Char} (h : Spaced free offset (written ++ after) text')
    (inside : '\n' ∉ written) (ended : ∀ c ∈ after.head?, c = '\n') :
    ∃ written' after', text' = written' ++ after' ∧ '\n' ∉ written' ∧
      (∀ c ∈ after'.head?, c = '\n') ∧ Spaced free (offset + utf8Length written) after after' := by
  induction written generalizing offset text' with
  | nil =>
    cases after with
    | nil =>
      exact ⟨text', [], (List.append_nil _).symm, h.isGap_of_nil.newline_not_mem, ended, .done⟩
    | cons c after =>
      obtain ⟨gap, rest', rfl, blank, tail, -⟩ := h.exists_gap
      exact ⟨gap, c :: rest', rfl, blank.newline_not_mem, ended, .keep tail⟩
  | cons c written ih =>
    obtain ⟨first, others⟩ := List.ne_and_not_mem_of_not_mem_cons inside
    obtain ⟨gap, rest', rfl, blank, tail, -⟩ := h.exists_gap
    obtain ⟨written', after', rfl, unbroken, ended', last⟩ := ih tail others
    refine ⟨gap ++ c :: written', after', by simp, ?_, ended', ?_⟩
    · apply List.not_mem_append blank.newline_not_mem
      exact List.not_mem_cons_of_ne_of_not_mem first unbroken
    · rwa [utf8Length_cons, ← Nat.add_assoc]

/-- What is put in starts apart, and otherwise the first character is kept. -/
theorem startsApart_or_head? (h : Spaced free offset text text') :
    StartsApart text' ∨ ∃ d, text.head? = some d ∧ text'.head? = some d := by
  cases h with
  | done => exact .inl nofun
  | keep => exact .inr ⟨_, rfl, rfl⟩
  | blank h =>
    left
    fin_cases h <;> exact startsApart_cons (by decide) _
  | comment => exact .inl (startsApart_cons (by decide) _)

/-- A token is scanned as before when something is put in behind it. -/
theorem scan_eq {mode : Token.Mode} {kind : TokenKind} {part : List Char}
    (h : Spaced free offset after after') (scanned : (scan mode c (part ++ after)).1 = .token kind)
    (short : (scan mode c (part ++ after)).2 ≤ part.length) :
    scan mode c (part ++ after') = scan mode c (part ++ after) := by
  rcases h.startsApart_or_head? with apart | ⟨d, next, next'⟩
  · have alone := Token.scan_of_length_le short
    rw [alone] at scanned ⊢
    apply Token.scan_append apart
    · rintro rfl
      cases scanned
    · rw [scanned]
      nofun
  · exact Token.scan_of_head?_eq next next' short

/-- A token with nothing put in inside of it is scanned again, and what follows goes on behind
it. -/
theorem behind {mode : Token.Mode} {kind : TokenKind}
    (h : Spaced free (offset + c.utf8Size) rest text')
    (scanned : (scan mode c rest).1 = .token kind)
    (between : ∀ place, free place →
      place ≤ offset ∨ offset + utf8Length (lexeme mode c rest) ≤ place) :
    (scan mode c text').1 = .token kind ∧
      Spaced free (offset + utf8Length (lexeme mode c rest)) (Token.behind mode c rest)
        (Token.behind mode c text') := by
  let part := rest.take (scan mode c rest).2
  have split : part ++ Token.behind mode c rest = rest := List.take_append_drop _ rest
  have length : part.length = (scan mode c rest).2 :=
    List.length_take_of_le (Token.scan_length_le mode c rest)
  have bytes : utf8Length (lexeme mode c rest) = c.utf8Size + utf8Length part := rfl
  have taken (place : Nat) (low : offset + c.utf8Size ≤ place)
      (high : place < offset + c.utf8Size + utf8Length part) : ¬free place := by
    intro free
    have size := c.utf8Size_pos
    have outside := between place free
    omega
  rw [← split] at h
  obtain ⟨after', rfl, tail⟩ := h.exists_append taken (Token.newline_not_mem_of_scan scanned)
  have same : scan mode c (part ++ after') = scan mode c rest := by
    have short := Nat.le_of_eq length.symm
    rw [← split] at scanned short
    rw [tail.scan_eq scanned short, split]
  have left : Token.behind mode c (part ++ after') = after' := by
    rw [Token.behind, same, ← length, List.drop_left]
  rw [same, left, bytes, ← Nat.add_assoc]
  exact ⟨scanned, tail⟩

end Spaced

namespace Token

variable {mode : Mode} {offset : Nat} {text text' : List Char} {tokens : List Token}

/-- Where blanks and comments are put in between tokens, tokens of the same kinds are lexed. -/
theorem Lexed.lexes_spaced {free : Nat → Prop} (h : Lexed mode offset text tokens)
    (spaced : Spaced free offset text text')
    (between : ∀ place, free place → IsBetween tokens place) :
    Lexes mode text' (tokens.map Token.kind) [] := by
  induction h generalizing text' with
  | nil =>
    rw [← List.append_nil text']
    exact spaced.isGap_of_nil.lexes .done
  | @blank mode offset c rest tokens scanned _ ih =>
    obtain ⟨gap, rest', rfl, blank, kept, -⟩ := spaced.exists_gap
    apply blank.lexes
    have whole := lexeme_append_behind mode c rest
    rcases lexeme_of_blank scanned with ⟨space, alone⟩ | ⟨written, comment, inside, ended⟩
    · rw [alone] at whole ih
      have left : behind mode c rest = rest := (List.cons.inj whole).2
      rw [left] at ih
      have one : IsGap [c] rest' := .blank space .nil
      exact one.lexes (ih kept between)
    · rw [comment] at whole ih
      obtain ⟨rfl, split⟩ := List.cons.inj whole
      rw [← split] at kept
      obtain ⟨written', after', rfl, inside', ended', tail⟩ := kept.exists_comment inside ended
      have gap : IsGap (';' :: written') after' := .comment inside' ended'
      rw [Nat.add_assoc] at tail
      exact gap.lexes (ih tail between)
  | @token mode offset c rest kind tokens scanned _ ih =>
    obtain ⟨gap, rest', rfl, blank, kept, -⟩ := spaced.exists_gap
    obtain ⟨scanned', tail⟩ := kept.behind scanned fun place free =>
      (List.forall_mem_cons.1 (between place free)).1
    apply blank.lexes
    apply Lexes.token scanned'
    exact ih tail fun place free => (List.forall_mem_cons.1 (between place free)).2

theorem IsBetween.of_closeStatement {place : Nat}
    (h : IsBetween (closeStatement offset tokens) place) : IsBetween tokens place :=
  fun token among => h token ((prefix_closeStatement offset tokens).subset among)

theorem lex_spaced {source source' : String} (h : lex source = .ok tokens)
    (spaced : Spaced (IsBetween tokens) 0 source.toList source'.toList) :
    ∃ tokens', lex source' = .ok tokens' ∧
      List.Forall₂ (Token.Agree .anywhere) tokens tokens' := by
  obtain ⟨read, lexed, rfl⟩ := lex_eq_ok h
  have kinds := lexed.lexes_spaced spaced fun _ => IsBetween.of_closeStatement
  obtain ⟨read', lexed', same⟩ := kinds.lexed 0
  refine ⟨_, lex_of_lexed lexed', ?_⟩
  exact closeStatement_agree trivial (agree_anywhere_iff.2 same.symm)

end Token

namespace Assembly

/-- Blanks put in where no token is broken, and comments put in at the ends of lines, leave a source
with tokens of the same kinds. It is assembled to the same statements and diagnostics, each with
another span maybe. -/
theorem ofSource_spaced (table : Table) (config : Config) {source source' : String}
    {tokens : List Token} (lexed : Token.lex source = .ok tokens)
    (spaced : Spaced (Token.IsBetween tokens) 0 source.toList source'.toList) :
    (∃ tokens', Token.lex source' = .ok tokens' ∧
        tokens'.map Token.kind = tokens.map Token.kind) ∧
      (ofSource table config source).Agree .anywhere (ofSource table config source') := by
  obtain ⟨tokens', lexed', agree⟩ := Token.lex_spaced lexed spaced
  refine ⟨⟨tokens', lexed', (Token.agree_anywhere_iff.1 agree).symm⟩, ?_⟩
  simp only [ofSource, lexed, lexed']
  exact ofTokens_agree table config (.inr (Token.endsStatement_of_lex lexed)) agree

/-- The `%` behind `7` is the remainder operator in both texts. -/
theorem ofSource_spaced_remainder :
    (∃ tokens', Token.lex " x: lda # 7 %10\r;m\n;e" = .ok tokens' ∧ tokens'.map Token.kind =
        [.name "x", .punct .colon, .name "lda", .punct .hash, .number .decimal "7",
          .punct .percent, .number .decimal "10", .endOfStatement]) ∧
      (ofSource (.ofTemplates [.ofMnemonic "lda" [.literal "#", .value .imm8] 0xA9 ∅]) {}
        "x:lda #7%10\n").Agree .anywhere
          (ofSource (.ofTemplates [.ofMnemonic "lda" [.literal "#", .value .imm8] 0xA9 ∅]) {}
            " x: lda # 7 %10\r;m\n;e") := by
  let tokens : List Token := [⟨.name "x", ⟨0, 1⟩⟩, ⟨.punct .colon, ⟨1, 1⟩⟩, ⟨.name "lda", ⟨2, 3⟩⟩,
    ⟨.punct .hash, ⟨6, 1⟩⟩, ⟨.number .decimal "7", ⟨7, 1⟩⟩, ⟨.punct .percent, ⟨8, 1⟩⟩,
    ⟨.number .decimal "10", ⟨9, 2⟩⟩, ⟨.endOfStatement, ⟨11, 1⟩⟩]
  have lexed : Token.lex "x:lda #7%10\n" = .ok tokens := by cbv
  have between : ∀ place ∈ [0, 2, 7, 8, 11], Token.IsBetween tokens place := by decide
  have spaced : Spaced (Token.IsBetween tokens) 0 "x:lda #7%10\n".toList
      " x: lda # 7 %10\r;m\n;e".toList := by
    change Spaced _ 0 ['x', ':', 'l', 'd', 'a', ' ', '#', '7', '%', '1', '0', '\n']
      [' ', 'x', ':', ' ', 'l', 'd', 'a', ' ', '#', ' ', '7', ' ', '%', '1', '0', '\r', ';', 'm',
        '\n', ';', 'e']
    apply Spaced.blank (by decide) (between 0 (by decide))
    refine .keep (.keep ?_)
    apply Spaced.blank (by decide) (between 2 (by decide))
    refine .keep (.keep (.keep (.keep (.keep ?_))))
    apply Spaced.blank (by decide) (between 7 (by decide))
    refine .keep ?_
    apply Spaced.blank (by decide) (between 8 (by decide))
    refine .keep (.keep (.keep ?_))
    apply Spaced.blank (by decide) (between 11 (by decide))
    apply Spaced.comment (show '\n' ∉ ['m'] by decide) (by simp)
    refine .keep ?_
    exact Spaced.comment (show '\n' ∉ ['e'] by decide) (by simp) .done
  exact ofSource_spaced _ _ lexed spaced

end Assembly

end Asm65
