import Asm65.Proofs.Splicing
import Asm65.Proofs.Tiling

/-!
# Malformed literals

Lexing fails at the first malformed literal, with a diagnostic that covers it. What
stands in front of the literal is lexed, and what stands behind it does not matter
(`Token.lex_eq_error`). The literal lies in one line, unless it is a quote in front of
a newline: what follows a quote belongs to the literal whatever it is.
-/

namespace Asm65.Token

open Text (Radix)

variable {mode : Mode} {offset : Nat} {c : Char} {text before rest more : List Char}
  {kinds : List TokenKind} {diagnostic : Diagnostic}

section Fails

theorem lexFrom_of_malformed (h : (scan mode c rest).1 = .malformed) (offset : Nat) :
    lexFrom mode offset (c :: rest) =
      .error ⟨.malformedNumber, ⟨offset, utf8Length (lexeme mode c rest)⟩⟩ := by
  rw [lexFrom]
  simp only [h]
  rfl

theorem scan_take (mode : Mode) (c : Char) (rest : List Char) :
    scan mode c (rest.take (scan mode c rest).2) = scan mode c rest := by
  have whole := List.take_append_drop (scan mode c rest).2 rest
  have within := List.length_take_of_le (scan_length_le mode c rest)
  have cut : scan mode c (rest.take (scan mode c rest).2 ++ rest.drop (scan mode c rest).2) =
      scan mode c (rest.take (scan mode c rest).2) := by
    apply scan_of_length_le
    rw [whole, within]
  rw [← cut, whole]

/-- A malformed literal is one without what stands behind it. -/
theorem lexFrom_lexeme_of_malformed (h : (scan mode c rest).1 = .malformed) (offset : Nat) :
    lexFrom mode offset (lexeme mode c rest) =
      .error ⟨.malformedNumber, ⟨offset, utf8Length (lexeme mode c rest)⟩⟩ := by
  have alone : (scan mode c (rest.take (scan mode c rest).2)).1 = .malformed := by
    rw [scan_take, h]
  rw [lexeme, lexFrom_of_malformed alone, lexeme, scan_take, List.take_take, Nat.min_self]

/-- Lexing fails where it fails behind its first tokens. -/
theorem Lexes.lexFrom_eq_error (h : Lexes mode (before ++ more) kinds more)
    (failed : lexFrom (kinds.foldl Mode.next mode) (offset + utf8Length before) more =
      .error diagnostic) : lexFrom mode offset (before ++ more) = .error diagnostic := by
  generalize whole : before ++ more = text at h
  induction h generalizing before offset with
  | done =>
    rw [List.append_left_eq_self.1 whole] at failed
    exact failed
  | @blank mode c rest more kinds blank tail ih =>
    obtain ⟨part, rfl, rfl, short⟩ := short_of_suffix whole.symm tail.suffix
    have same := scan_of_length_le short
    rw [← utf8Length_lexeme_add mode c part, ← lexeme_append same, ← Nat.add_assoc] at failed
    rw [lexFrom]
    simp only [blank]
    exact ih failed (behind_append same).symm
  | @token mode c rest more kind kinds scanned tail ih =>
    obtain ⟨part, rfl, rfl, short⟩ := short_of_suffix whole.symm tail.suffix
    have same := scan_of_length_le short
    rw [← utf8Length_lexeme_add mode c part, ← lexeme_append same, ← Nat.add_assoc] at failed
    have later := ih failed (behind_append same).symm
    rw [lexeme, behind] at later
    rw [lexFrom]
    simp only [scanned, Span.stop, later]

/-- Lexing fails behind some tokens, at a malformed literal. -/
theorem exists_malformed (h : lexFrom mode offset text = .error diagnostic) :
    ∃ before c rest kinds, text = before ++ c :: rest ∧ Lexes mode text kinds (c :: rest) ∧
      (scan (kinds.foldl Mode.next mode) c rest).1 = .malformed ∧
      diagnostic = ⟨.malformedNumber, ⟨offset + utf8Length before,
        utf8Length (lexeme (kinds.foldl Mode.next mode) c rest)⟩⟩ := by
  induction left : text.length using Nat.strongRecOn generalizing mode offset text with
  | ind left' ih =>
    subst left
    cases text with
    | nil =>
      rw [lexFrom] at h
      cases h
    | cons c rest =>
      have shorter : (behind mode c rest).length < (c :: rest).length :=
        Nat.lt_succ_of_le (List.drop_sublist _ _).length_le
      have whole := lexeme_append_behind mode c rest
      cases found : (scan mode c rest).1 with
      | blank =>
        rw [lexFrom] at h
        simp only [found] at h
        obtain ⟨before, d, more, kinds, split, lexes, malformed, same⟩ := ih _ shorter h rfl
        refine ⟨lexeme mode c rest ++ before, d, more, kinds, ?_, .blank found lexes, malformed, ?_⟩
        · rw [← whole, List.append_assoc, ← split]
          rfl
        · rw [same, utf8Length_append, ← Nat.add_assoc]
          rfl
      | token kind =>
        rw [lexFrom] at h
        simp only [found] at h
        split at h
        · cases h
        · next failed =>
          cases h
          obtain ⟨before, d, more, kinds, split, lexes, malformed, same⟩ := ih _ shorter failed rfl
          refine ⟨lexeme mode c rest ++ before, d, more, kind :: kinds, ?_, .token found lexes,
            malformed, ?_⟩
          · rw [← whole, List.append_assoc, ← split]
            rfl
          · rw [same, utf8Length_append, ← Nat.add_assoc]
            rfl
      | malformed =>
        rw [lexFrom_of_malformed found] at h
        cases h
        exact ⟨[], c, rest, [], rfl, .done, found, rfl⟩

end Fails

section Newline

theorem newline_not_mem_takeWhile {p : Char → Bool} (h : p '\n' = false) :
    '\n' ∉ text.takeWhile p := by
  intro among
  have inside := List.all_eq_true.1 List.all_takeWhile _ among
  rw [h] at inside
  cases inside

/-- A numeral with the letters glued to it lies in one line. -/
theorem newline_not_mem_take_scanNumeral {radix : Radix} {read : List Char} {skip : Nat}
    (marks : '\n' ∉ rest.take skip) : '\n' ∉ rest.take (scanNumeral radix read skip rest).2 := by
  have digit : radix.isNumeralChar '\n' = false := by cases radix <;> decide
  simp only [scanNumeral, List.take_add, take_takeWhile, List.mem_append, not_or]
  exact ⟨⟨marks, newline_not_mem_takeWhile digit⟩, newline_not_mem_takeWhile (by decide)⟩

theorem newline_not_mem_take_scanDigit : '\n' ∉ rest.take (scanDigit c rest).2 := by
  have marked {mark : Char} (inside : mark ≠ '\n') (first : rest.head? = some mark) :
      '\n' ∉ rest.take 1 := by
    obtain ⟨text, rfl⟩ := List.head?_eq_some_iff.1 first
    simpa using inside.symm
  rw [scanDigit_eq]
  split
  · next mark =>
    apply newline_not_mem_take_scanNumeral
    exact mark.2.elim (marked (by decide)) (marked (by decide))
  split
  · next mark =>
    apply newline_not_mem_take_scanNumeral
    exact mark.2.1.elim (marked (by decide)) (marked (by decide))
  · exact newline_not_mem_take_scanNumeral List.not_mem_nil

/-- Behind a quote one character is read whatever it is, and then none but those of a word. -/
theorem newline_of_scanQuoted (h : (scanQuoted rest).1 = .malformed)
    (newline : '\n' ∈ rest.take (scanQuoted rest).2) :
    ∃ more, rest.take (scanQuoted rest).2 = '\n' :: more ∧ '\n' ∉ more := by
  cases rest with
  | nil => cases newline
  | cons d text =>
    simp only [scanQuoted] at h newline ⊢
    split at h
    · cases h
    · next unclosed =>
      have word : '\n' ∉ text.takeWhile (!Text.isWhitespace ·) :=
        newline_not_mem_takeWhile (by decide)
      simp only [if_neg unclosed, Nat.add_comm 1, List.take_succ_cons, take_takeWhile] at newline ⊢
      obtain rfl | among := List.mem_cons.1 newline
      · exact ⟨_, rfl, word⟩
      · exact absurd among word

/-- A malformed literal lies in one line, unless it is a quote in front of a newline. -/
theorem newline_of_malformed (h : (scan mode c rest).1 = .malformed) :
    '\n' ∈ lexeme mode c rest →
      ∃ more, lexeme mode c rest = '\'' :: '\n' :: more ∧ '\n' ∉ more := by
  have numeral {count : Nat} (start : c ≠ '\n') (inside : '\n' ∉ rest.take count)
      (newline : '\n' ∈ c :: rest.take count) :
      ∃ more, c :: rest.take count = '\'' :: '\n' :: more ∧ '\n' ∉ more :=
    absurd newline (List.not_mem_cons_of_ne_of_not_mem start.symm inside)
  unfold lexeme
  unfold scan at h ⊢
  split at h
  case h_6 => exact numeral (by decide) (newline_not_mem_take_scanNumeral List.not_mem_nil)
  case h_7 =>
    split at h
    · next binary =>
      simp only [if_pos binary]
      exact numeral (by decide) (newline_not_mem_take_scanNumeral List.not_mem_nil)
    · cases h
  case h_8 =>
    intro newline
    have quoted := (List.mem_cons.1 newline).resolve_left (by decide)
    obtain ⟨more, covers, inside⟩ := newline_of_scanQuoted h quoted
    exact ⟨more, congrArg ('\'' :: ·) covers, inside⟩
  case h_9 | h_10 =>
    unfold scanDoubled at h
    split at h <;> cases h
  case h_11 =>
    split at h
    · next digit =>
      simp only [if_pos digit]
      refine numeral ?_ newline_not_mem_take_scanDigit
      rintro rfl
      cases digit
    · split at h
      · cases h
      · split at h <;> cases h
  all_goals cases h

end Newline

/-- Where lexing fails, the text is one that is lexed, the literal, and what is not reached. -/
theorem exists_cut (h : lexFrom mode offset text = .error diagnostic) :
    ∃ before literal after, text = before ++ (literal ++ after) ∧ literal ≠ [] ∧
      diagnostic = ⟨.malformedNumber, ⟨offset + utf8Length before, utf8Length literal⟩⟩ ∧
      (∃ tokens, lexFrom mode offset before = .ok tokens) ∧
      lexFrom mode offset (before ++ literal) = .error diagnostic ∧
      ('\n' ∈ literal → ∃ more, literal = '\'' :: '\n' :: more ∧ '\n' ∉ more) := by
  obtain ⟨before, c, rest, kinds, split, lexes, malformed, rfl⟩ := exists_malformed h
  let literal := lexeme (kinds.foldl Mode.next mode) c rest
  let after := behind (kinds.foldl Mode.next mode) c rest
  have line : literal ++ after = c :: rest := lexeme_append_behind _ c rest
  rw [split, ← line] at lexes
  have front : Lexes mode (before ++ []) kinds [] := by
    apply Lexes.cut
    exact lexes
  have upTo : Lexes mode (before ++ literal) kinds literal := by
    apply Lexes.cut
    exact lexes
  refine ⟨before, literal, after, by rw [split, line], List.cons_ne_nil _ _, rfl, ?_, ?_,
    newline_of_malformed malformed⟩
  · rw [List.append_nil] at front
    obtain ⟨tokens, lexed, -⟩ := front.lexed offset
    exact ⟨tokens, lexFrom_eq_ok_iff.2 lexed⟩
  · apply upTo.lexFrom_eq_error
    exact lexFrom_lexeme_of_malformed malformed _

theorem lex_eq_error_iff {source : String} : lex source = .error diagnostic ↔
    lexFrom .statementStart 0 source.toList = .error diagnostic := by
  unfold lex
  split
  · next lexed => simp [lexed]
  · next failed => rw [failed]

/-- Lexing fails at a literal that is malformed, whatever stands behind it, and no earlier. The
literal is in one line, unless it is a quote in front of a newline. -/
theorem lex_eq_error {source : String} (h : lex source = .error diagnostic) :
    diagnostic.cause = .malformedNumber ∧ ∃ before literal after : String,
      source = before ++ literal ++ after ∧ literal ≠ "" ∧
      diagnostic.span = ⟨before.utf8ByteSize, literal.utf8ByteSize⟩ ∧
      (∃ tokens, lex before = .ok tokens) ∧
      lex (before ++ literal) = .error diagnostic ∧
      ('\n' ∈ literal.toList → ∃ more, literal = "'\n" ++ more ∧ '\n' ∉ more.toList) := by
  obtain ⟨before, literal, after, split, some_text, rfl, ⟨tokens, lexed⟩, fails, newline⟩ :=
    exists_cut (lex_eq_error_iff.1 h)
  refine ⟨rfl, .ofList before, .ofList literal, .ofList after, ?_, ?_, ?_, ?_, ?_, ?_⟩
  · rw [← String.ofList_append, ← String.ofList_append, List.append_assoc, ← split,
      String.ofList_toList]
  · exact fun none => some_text (String.ofList_eq_empty_iff.1 none)
  · rw [utf8ByteSize_ofList, utf8ByteSize_ofList, Nat.zero_add]
  · rw [lexFrom_eq_ok_iff, ← String.toList_ofList (l := before)] at lexed
    exact ⟨_, lex_of_lexed lexed⟩
  · rw [lex_eq_error_iff, String.toList_append, String.toList_ofList, String.toList_ofList]
    exact fails
  · intro among
    rw [String.toList_ofList] at among
    obtain ⟨more, quoted, inside⟩ := newline among
    refine ⟨.ofList more, ?_, by rwa [String.toList_ofList]⟩
    apply String.toList_inj.1
    simp only [String.toList_append, String.toList_ofList]
    exact quoted

/-- Letters are glued to the digits, and the text behind them is not reached. -/
theorem lex_eq_error_glued :
    ∃ before literal after : String, "x: $12g4 '\n" = before ++ literal ++ after ∧ literal ≠ "" ∧
      Span.mk 3 5 = ⟨before.utf8ByteSize, literal.utf8ByteSize⟩ ∧
      (∃ tokens, lex before = .ok tokens) ∧
      lex (before ++ literal) = .error ⟨.malformedNumber, ⟨3, 5⟩⟩ ∧
      ('\n' ∈ literal.toList → ∃ more, literal = "'\n" ++ more ∧ '\n' ∉ more.toList) := by
  have h : lex "x: $12g4 '\n" = .error ⟨.malformedNumber, ⟨3, 5⟩⟩ := by cbv
  exact (lex_eq_error h).2

/-- A quote in front of a newline is malformed with the word that starts the next line. -/
theorem exists_lex_error_newline :
    ∃ before literal after : String, '\n' ∈ literal.toList ∧
      lex (before ++ literal ++ after) =
        .error ⟨.malformedNumber, ⟨before.utf8ByteSize, literal.utf8ByteSize⟩⟩ := by
  refine ⟨"lda #", "'\nrts", " ; next", by decide, ?_⟩
  cbv

end Asm65.Token
