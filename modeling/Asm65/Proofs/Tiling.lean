import Asm65.Proofs.Spelling

/-!
# Tiling

The tokens of a source tile it. Each covers a text that it may be written as,
and between two of them, before the first and behind the last stand nothing but
blanks and comments (`lex_tiles`). The newlines of a source are the ends of
statement that cover a character (`newlines`).
-/

namespace Asm65

open Text (Radix)

/-- Blanks with at most one comment behind them, in front of what follows. A comment runs to a
newline or to the end of the text. -/
inductive IsGap : List Char → List Char → Prop
  | nil {after : List Char} : IsGap [] after
  | blank {c : Char} {gap after : List Char} (h : c ∈ [' ', '\t', '\r']) (tail : IsGap gap after) :
      IsGap (c :: gap) after
  | comment {text after : List Char} (inside : '\n' ∉ text) (ended : ∀ c ∈ after.head?, c = '\n') :
      IsGap (';' :: text) after

theorem IsGap.newline_not_mem {gap after : List Char} (h : IsGap gap after) : '\n' ∉ gap := by
  induction h with
  | nil => exact List.not_mem_nil
  | blank h _ ih =>
    refine List.not_mem_cons_of_ne_of_not_mem ?_ ih
    rintro rfl
    simp at h
  | comment inside _ => exact List.not_mem_cons_of_ne_of_not_mem (by decide) inside

/-- In front of a newline, a text that goes on with it is no gap. -/
theorem IsGap.eq_nil_of_newline {gap after : List Char} (h : IsGap gap after)
    (newline : ∀ c ∈ (gap ++ after).head?, c = '\n') : gap = [] := by
  cases h with
  | nil => rfl
  | blank h _ =>
    cases newline _ rfl
    simp at h
  | comment => cases newline _ rfl

/-- The texts that a token is written as. -/
def TokenKind.spellings : TokenKind → List String
  | endOfStatement => ["\n"]
  | number .binary numeral => ["%" ++ numeral, "0b" ++ numeral, "0B" ++ numeral]
  | number .hexadecimal numeral => ["$" ++ numeral, "0x" ++ numeral, "0X" ++ numeral]
  | kind => [kind.text]

namespace TokenKind

theorem eq_newline_of_mem_spellings {slice : List Char}
    (spelled : String.ofList slice ∈ spellings .endOfStatement) : slice = ['\n'] := by
  rw [← String.toList_ofList (l := slice), List.mem_singleton.1 spelled]
  rfl

theorem newline_not_mem_of_isNumeralText {radix : Radix} {numeral : String}
    (h : IsNumeralText radix numeral) : '\n' ∉ numeral.toList := by
  obtain ⟨c, rest, spelled, -, digits⟩ := h
  intro among
  have name := Token.isNameChar_of_isNumeralChar (digits '\n' (spelled ▸ among))
  cases name

theorem newline_not_mem_of_isNameText {text : String} (h : IsNameText text) :
    '\n' ∉ text.toList := by
  obtain ⟨c, rest, spelled, start, name⟩ := h
  intro among
  rw [spelled] at among
  rcases List.mem_cons.1 among with rfl | among
  · cases start
  · cases name '\n' among

/-- Only an end of statement is written with a newline. -/
theorem eq_endOfStatement_of_newline {kind : TokenKind} {slice : List Char} (lexed : kind.IsLexed)
    (spelled : String.ofList slice ∈ kind.spellings) (newline : '\n' ∈ slice) :
    kind = .endOfStatement := by
  by_contra inside
  have unbroken : ∀ text ∈ kind.spellings, '\n' ∉ text.toList := by
    cases kind with
    | endOfStatement => exact absurd rfl inside
    | name text => simpa [spellings, TokenKind.text] using newline_not_mem_of_isNameText lexed
    | number radix numeral =>
      have digits := newline_not_mem_of_isNumeralText lexed
      cases radix <;> simpa [spellings, TokenKind.text] using digits
    | char c => simpa [spellings, TokenKind.text] using Ne.symm lexed.2
    | punct p => cases p <;> decide
    | unknown c =>
      have other : c ≠ '\n' := by
        rintro rfl
        cases lexed .statementStart []
      simpa [spellings, TokenKind.text] using Ne.symm other
  exact unbroken _ spelled (String.toList_ofList ▸ newline)

end TokenKind

/-- Tokens that cover a text from an offset on, with gaps between them. The last one may be an
end of statement that covers nothing. -/
inductive Tiles : Nat → List Char → List Token → Prop
  | nil {offset : Nat} {gap : List Char} (blank : IsGap gap []) : Tiles offset gap []
  | closing {offset : Nat} {gap : List Char} (blank : IsGap gap []) :
      Tiles offset gap [⟨.endOfStatement, .empty (offset + utf8Length gap)⟩]
  | token {offset : Nat} {gap slice rest : List Char} {kind : TokenKind} {tokens : List Token}
      (blank : IsGap gap (slice ++ rest)) (some_text : slice ≠ [])
      (spelled : String.ofList slice ∈ kind.spellings)
      (tail : Tiles (offset + utf8Length gap + utf8Length slice) rest tokens) :
      Tiles offset (gap ++ (slice ++ rest))
        (⟨kind, ⟨offset + utf8Length gap, utf8Length slice⟩⟩ :: tokens)

namespace Token

section Scan

variable {mode : Mode} {c : Char} {rest : List Char} {kind : TokenKind}

theorem take_takeWhile (p : Char → Bool) (text : List Char) :
    text.take (text.takeWhile p).length = text.takeWhile p :=
  (List.prefix_iff_eq_take.1 (List.takeWhile_prefix p)).symm

theorem drop_takeWhile (p : Char → Bool) (text : List Char) :
    text.drop (text.takeWhile p).length = text.dropWhile p := by
  have whole := List.take_append_drop (text.takeWhile p).length text
  rw [take_takeWhile] at whole
  exact List.append_cancel_left (whole.trans List.takeWhile_append_dropWhile.symm)

/-- A lexeme that leaves no token is a blank or a comment. -/
theorem lexeme_of_blank (h : (scan mode c rest).1 = .blank) :
    c ∈ [' ', '\t', '\r'] ∧ lexeme mode c rest = [c] ∨
      ∃ text, lexeme mode c rest = ';' :: text ∧ '\n' ∉ text ∧
        ∀ d ∈ (behind mode c rest).head?, d = '\n' := by
  have numeral {radix : Radix} {read : List Char} {skip : Nat} {rest : List Char} :
      (scanNumeral radix read skip rest).1 ≠ .blank := by
    simp only [scanNumeral]
    split <;> rintro ⟨⟩
  unfold lexeme behind
  unfold scan at h ⊢
  split at h
  case h_1 | h_2 | h_3 => exact .inl ⟨by simp, rfl⟩
  case h_5 =>
    refine .inr ⟨_, rfl, ?_, ?_⟩
    · rw [take_takeWhile]
      intro newline
      simpa using List.all_eq_true.1 List.all_takeWhile _ newline
    · rw [drop_takeWhile]
      intro d first
      have other := List.head?_dropWhile_not (· ≠ '\n') rest
      rw [first] at other
      simpa using other
  case h_6 => exact absurd h numeral
  case h_7 =>
    split at h
    · exact absurd h numeral
    · cases h
  case h_8 =>
    unfold scanQuoted at h
    split at h
    · cases h
    · split at h <;> cases h
  case h_9 | h_10 =>
    unfold scanDoubled at h
    split at h <;> cases h
  case h_11 =>
    split at h
    · rw [scanDigit_eq] at h
      split at h
      · exact absurd h numeral
      · split at h <;> exact absurd h numeral
    · split at h
      · cases h
      · split at h <;> cases h
  all_goals cases h

/-- What a numeral covers: what was skipped in front of it, and its digits. -/
theorem take_scanNumeral {radix : Radix} {read : List Char} {skip : Nat}
    (h : (scanNumeral radix read skip rest).1 = .token kind) :
    rest.take (scanNumeral radix read skip rest).2 =
      rest.take skip ++ (rest.drop skip).takeWhile radix.isNumeralChar := by
  have alone :
      (rest.drop (skip + ((rest.drop skip).takeWhile radix.isNumeralChar).length)).takeWhile
        isNameChar = [] := by
    simp only [scanNumeral] at h
    split at h
    · cases h
    · next sound => exact not_not.1 fun glued => sound (.inr glued)
  simp only [scanNumeral, alone, List.length_nil, Nat.add_zero]
  rw [List.take_add, take_takeWhile]

/-- A mark in front of the digits of a numeral. -/
theorem ofList_mark_append (mark digits : List Char) :
    String.ofList (mark ++ digits) = String.ofList mark ++ String.ofList digits := by
  rw [← String.toList_inj, String.toList_append]
  simp only [String.toList_ofList]

theorem digits_mem_spellings (h : (scanDigit c rest).1 = .token kind) :
    String.ofList (c :: rest.take (scanDigit c rest).2) ∈ kind.spellings := by
  rw [scanDigit_eq] at h ⊢
  split at h
  · next mark =>
    rw [if_pos mark]
    obtain ⟨rfl, mark⟩ := mark
    obtain ⟨rfl, -⟩ := scanNumeral_eq_token h
    rw [take_scanNumeral h]
    cases rest with
    | nil => simp at mark
    | cons d rest =>
      simp only [List.head?_cons, Option.some.injEq] at mark
      rcases mark with rfl | rfl
      · exact .tail _ (List.mem_cons.2 (.inl (ofList_mark_append ['0', 'x'] _)))
      · exact .tail _ (.tail _ (List.mem_singleton.2 (ofList_mark_append ['0', 'X'] _)))
  · next unmarked =>
    rw [if_neg unmarked]
    split at h
    · next mark =>
      rw [if_pos mark]
      obtain ⟨rfl, mark, -⟩ := mark
      obtain ⟨rfl, -⟩ := scanNumeral_eq_token h
      rw [take_scanNumeral h]
      cases rest with
      | nil => simp at mark
      | cons d rest =>
        simp only [List.head?_cons, Option.some.injEq] at mark
        rcases mark with rfl | rfl
        · exact .tail _ (List.mem_cons.2 (.inl (ofList_mark_append ['0', 'b'] _)))
        · exact .tail _ (.tail _ (List.mem_singleton.2 (ofList_mark_append ['0', 'B'] _)))
    · next unmarked =>
      rw [if_neg unmarked]
      obtain ⟨rfl, -⟩ := scanNumeral_eq_token h
      rw [take_scanNumeral h]
      exact List.mem_singleton.2 rfl

/-- A lexeme that leaves a token is one of its spellings. -/
theorem lexeme_mem_spellings (h : (scan mode c rest).1 = .token kind) :
    String.ofList (lexeme mode c rest) ∈ kind.spellings := by
  unfold lexeme
  unfold scan at h ⊢
  split at h
  case h_4 =>
    cases h
    exact List.mem_singleton.2 rfl
  case h_6 =>
    obtain ⟨rfl, -⟩ := scanNumeral_eq_token h
    simp only [take_scanNumeral h]
    exact List.mem_cons.2 (.inl (ofList_mark_append ['$'] _))
  case h_7 =>
    split at h
    · next binary =>
      obtain ⟨rfl, -⟩ := scanNumeral_eq_token h
      simp only [if_pos binary, take_scanNumeral h]
      exact List.mem_cons.2 (.inl (ofList_mark_append ['%'] _))
    · next remainder =>
      cases h
      simp only [if_neg remainder]
      exact List.mem_singleton.2 rfl
  case h_8 =>
    unfold scanQuoted at h ⊢
    split at h
    · cases h
    · next d more =>
      split at h
      · next quoted =>
        cases h
        obtain _ | ⟨quote, more⟩ := more
        · simp at quoted
        · cases quoted.1
          simp [quoted.2, TokenKind.spellings, TokenKind.text]
      · cases h
  case h_9 | h_10 =>
    unfold scanDoubled at h ⊢
    split at h
    · next doubled =>
      cases h
      obtain _ | ⟨d, more⟩ := rest
      · simp at doubled
      · cases doubled
        exact List.mem_singleton.2 rfl
    · next single =>
      cases h
      simp only [if_neg single]
      exact List.mem_singleton.2 rfl
  case h_11 =>
    split at h
    · next digit =>
      simp only [if_pos digit]
      exact digits_mem_spellings h
    · next digit =>
      split at h
      · next start =>
        cases h
        simp only [if_neg digit, if_pos start, take_takeWhile]
        exact List.mem_singleton.2 rfl
      · next start =>
        split at h
        · next punct known =>
          cases h
          simp only [if_neg digit, if_neg start]
          unfold punctOfChar? at known
          split at known
          case h_17 => cases known
          all_goals
            cases known
            exact List.mem_singleton.2 rfl
        · next nothing =>
          cases h
          simp only [if_neg digit, if_neg start]
          exact List.mem_singleton.2 rfl
  all_goals cases h

end Scan

end Token

/-- Where an element of the whole stands in its two parts. -/
theorem append_eq_append_cons {α : Type} {c : α} {first second before after : List α}
    (h : first ++ second = before ++ c :: after) :
    (∃ inner, first = before ++ c :: inner) ∨
      ∃ inner, before = first ++ inner ∧ second = inner ++ c :: after := by
  obtain ⟨inner, whole, tail⟩ | ⟨inner, whole, tail⟩ := List.append_eq_append_iff.1 h
  · exact .inr ⟨inner, whole, tail⟩
  · cases inner with
    | nil => exact .inr ⟨[], by simpa using whole.symm, tail.symm⟩
    | cons d inner =>
      cases tail
      exact .inl ⟨inner, whole⟩

namespace Tiles

variable {offset : Nat} {text : List Char} {tokens : List Token}

/-- What is skipped in front of a text that tokens cover joins the first gap. -/
theorem skip {skipped rest : List Char}
    (joins : ∀ gap after, gap ++ after = rest → IsGap gap after → IsGap (skipped ++ gap) after)
    (h : Tiles (offset + utf8Length skipped) rest tokens) :
    Tiles offset (skipped ++ rest) tokens := by
  generalize start : offset + utf8Length skipped = start' at h
  cases h with
  | nil blank => exact .nil (joins _ _ (List.append_nil _) blank)
  | @closing _ gap blank =>
    rw [← start, Nat.add_assoc, ← utf8Length_append]
    exact .closing (joins _ _ (List.append_nil _) blank)
  | @token _ gap slice rest kind tokens blank some_text spelled tail =>
    rw [← start, Nat.add_assoc offset, ← utf8Length_append] at tail ⊢
    rw [← List.append_assoc]
    exact .token (joins _ _ rfl blank) some_text spelled tail

/-- Each token stands for a stretch of the text, which is empty only at its end. -/
theorem exists_slice (h : Tiles offset text tokens) {token : Token} (among : token ∈ tokens) :
    ∃ before slice after, text = before ++ (slice ++ after) ∧
      token.span = ⟨offset + utf8Length before, utf8Length slice⟩ ∧
      (slice = [] → token.kind = .endOfStatement ∧ after = [] ∧ tokens.getLast? = some token) := by
  induction h with
  | nil => cases among
  | closing _ =>
    cases List.mem_singleton.1 among
    exact ⟨_, [], [], (List.append_nil _).symm, rfl, fun _ => ⟨rfl, rfl, rfl⟩⟩
  | @token offset gap slice rest kind tokens _ some_text _ _ ih =>
    rcases List.mem_cons.1 among with rfl | among
    · exact ⟨gap, slice, rest, rfl, rfl, fun none => absurd none some_text⟩
    · obtain ⟨before, slice', after, whole, span, last⟩ := ih among
      refine ⟨gap ++ (slice ++ before), slice', after, ?_, ?_, fun none => ?_⟩
      · rw [whole, List.append_assoc, List.append_assoc]
      · rw [span, utf8Length_append, utf8Length_append]
        simp only [Nat.add_assoc]
      · obtain ⟨kind, nothing, last⟩ := last none
        rw [List.getLast?_cons, last]
        exact ⟨kind, nothing, rfl⟩

/-- A newline ends a statement, and nothing else that covers a single byte does. -/
theorem mem_newline_iff (h : Tiles offset text tokens)
    (lexed : ∀ token ∈ tokens, token.kind.IsLexed) (start : Nat) :
    ⟨.endOfStatement, ⟨start, 1⟩⟩ ∈ tokens ↔
      ∃ before after, text = before ++ '\n' :: after ∧ start = offset + utf8Length before := by
  induction h with
  | nil blank =>
    refine iff_of_false List.not_mem_nil ?_
    rintro ⟨before, after, rfl, -⟩
    exact blank.newline_not_mem (List.mem_append_right before (List.mem_cons_self ..))
  | closing blank =>
    refine iff_of_false (by simp [Span.empty]) ?_
    rintro ⟨before, after, rfl, -⟩
    exact blank.newline_not_mem (List.mem_append_right before (List.mem_cons_self ..))
  | @token offset gap slice rest kind tokens blank some_text spelled _ ih =>
    obtain ⟨here, further⟩ := List.forall_mem_cons.1 lexed
    rw [List.mem_cons, ih further]
    constructor
    · rintro (same | ⟨before, after, whole, stands⟩)
      · obtain ⟨rfl, span⟩ := Token.mk.inj same
        obtain ⟨rfl, -⟩ := Span.mk.inj span
        cases TokenKind.eq_newline_of_mem_spellings spelled
        exact ⟨gap, rest, rfl, rfl⟩
      · refine ⟨gap ++ (slice ++ before), after, ?_, ?_⟩
        · rw [whole, List.append_assoc, List.append_assoc]
        · rw [stands, utf8Length_append, utf8Length_append]
          simp only [Nat.add_assoc]
    · rintro ⟨before, after, whole, stands⟩
      obtain ⟨inner, cut⟩ | ⟨before', rfl, behindGap⟩ := append_eq_append_cons whole
      · exact absurd (cut ▸ by simp) blank.newline_not_mem
      obtain ⟨inner, cut⟩ | ⟨before'', rfl, behindSlice⟩ := append_eq_append_cons behindGap
      · cases TokenKind.eq_endOfStatement_of_newline here spelled (cut ▸ by simp)
        cases TokenKind.eq_newline_of_mem_spellings spelled
        obtain ⟨rfl, rfl⟩ : before' = [] ∧ inner = [] := by
          simpa [List.append_eq_singleton_iff] using cut.symm
        rw [stands, List.append_nil]
        exact .inl rfl
      · refine .inr ⟨before'', after, behindSlice, ?_⟩
        simp only [stands, utf8Length_append, Nat.add_assoc]

end Tiles

namespace Token

/-- What is lexed covers the text that it is lexed from, up to its closing end of statement. -/
theorem Lexed.tiles {mode : Mode} {offset : Nat} {text : List Char} {tokens : List Token}
    (h : Lexed mode offset text tokens) {closing : List Token}
    (last : closing = [] ∨ closing = [⟨.endOfStatement, .empty (offset + utf8Length text)⟩]) :
    Tiles offset text (tokens ++ closing) := by
  induction h with
  | nil =>
    rcases last with rfl | rfl
    · exact .nil .nil
    · exact .closing .nil
  | @blank mode offset c rest tokens h _ ih =>
    rw [← utf8Length_lexeme_add mode c rest, ← Nat.add_assoc] at last
    rw [← lexeme_append_behind mode c rest]
    refine .skip ?_ (ih last)
    rintro gap after whole blank
    rcases lexeme_of_blank h with ⟨space, alone⟩ | ⟨text, comment, inside, ended⟩
    · rw [alone]
      exact .blank space blank
    · rw [← whole] at ended
      cases blank.eq_nil_of_newline ended
      rw [comment, List.append_nil]
      exact .comment inside ended
  | @token mode offset c rest kind tokens h _ ih =>
    rw [← utf8Length_lexeme_add mode c rest, ← Nat.add_assoc] at last
    rw [← lexeme_append_behind mode c rest]
    have gap : IsGap [] (lexeme mode c rest ++ behind mode c rest) := .nil
    exact .token gap (List.cons_ne_nil _ _) (lexeme_mem_spellings h) (ih last)

/-- The tokens of a source cover it from its start, with nothing but blanks and comments between
them. All lie on character boundaries, one behind the other, and cover a character, but for an
end of statement that closes the source. The newlines are the ends of statement that cover one. -/
theorem lex_tiles {source : String} {tokens : List Token} (h : lex source = .ok tokens) :
    Tiles 0 source.toList tokens ∧ EndsStatement tokens ∧
      tokens.Pairwise (fun token later => token.span.stop ≤ later.span.offset) ∧
      (∀ token ∈ tokens,
        (⟨token.span.offset⟩ : String.Pos.Raw).IsValid source ∧
        (⟨token.span.stop⟩ : String.Pos.Raw).IsValid source ∧
        (token.span.length = 0 → tokens.getLast? = some token ∧
          token = ⟨.endOfStatement, .empty source.utf8ByteSize⟩)) ∧
      ∀ offset, ⟨.endOfStatement, ⟨offset, 1⟩⟩ ∈ tokens ↔
        ∃ before after, source.toList = before ++ '\n' :: after ∧ offset = utf8Length before := by
  have tiles : Tiles 0 source.toList tokens := by
    obtain ⟨read, lexed, rfl⟩ := lex_eq_ok h
    unfold closeStatement
    split
    · rw [← List.append_nil read]
      exact lexed.tiles (.inl rfl)
    · refine lexed.tiles (.inr ?_)
      rw [Nat.zero_add]
  refine ⟨tiles, endsStatement_of_lex h, ordered_of_lex h, ?_, ?_⟩
  · intro token among
    obtain ⟨before, slice, after, whole, span, last⟩ := tiles.exists_slice among
    rw [Nat.zero_add] at span
    simp only [String.Pos.Raw.isValid_iff_exists_append]
    refine ⟨⟨.ofList before, .ofList (slice ++ after), ?_, ?_⟩,
      ⟨.ofList (before ++ slice), .ofList after, ?_, ?_⟩, ?_⟩
    · rw [← String.ofList_append, ← whole, String.ofList_toList]
    · rw [span, String.rawEndPos, utf8ByteSize_ofList]
    · rw [← String.ofList_append, List.append_assoc, ← whole, String.ofList_toList]
    · rw [span, String.rawEndPos, utf8ByteSize_ofList, utf8Length_append]
      rfl
    · rw [span]
      intro nothing
      have slice_nil : slice = [] := by
        cases slice with
        | nil => rfl
        | cons c slice =>
          have := c.utf8Size_pos
          simp only [utf8Length_cons] at nothing
          omega
      obtain ⟨ended, rfl, closing⟩ := last slice_nil
      refine ⟨closing, ?_⟩
      rw [slice_nil] at whole span
      rw [← utf8Length_toList, whole, List.append_nil, List.append_nil, Span.empty]
      cases token
      exact congrArg₂ Token.mk ended span
  · intro offset
    rw [tiles.mem_newline_iff (isLexed_of_lex h)]
    simp only [Nat.zero_add]

theorem lex_tiles_hexadecimal_comment_unknown :
    Tiles 0 "0xF ;€\n\té".toList
        [⟨.number .hexadecimal "F", ⟨0, 3⟩⟩, ⟨.endOfStatement, ⟨8, 1⟩⟩, ⟨.unknown 'é', ⟨10, 2⟩⟩,
          ⟨.endOfStatement, ⟨12, 0⟩⟩] ∧
      ∃ before after, "0xF ;€\n\té".toList = before ++ '\n' :: after ∧ 8 = utf8Length before := by
  have h : lex "0xF ;€\n\té" =
      .ok [⟨.number .hexadecimal "F", ⟨0, 3⟩⟩, ⟨.endOfStatement, ⟨8, 1⟩⟩, ⟨.unknown 'é', ⟨10, 2⟩⟩,
        ⟨.endOfStatement, ⟨12, 0⟩⟩] := by
    cbv
  obtain ⟨tiles, -, -, -, newlines⟩ := lex_tiles h
  exact ⟨tiles, (newlines 8).1 (by simp)⟩

end Token

end Asm65
