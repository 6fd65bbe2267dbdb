import Asm65.Proofs.LetterCase
import Asm65.Proofs.Tiling

/-!
# Lexing in lower case

A source without a quote has the same tokens in lower case, except for their
letter case, or is malformed at the same place (`lex_toLower`).
-/

namespace Asm65.Token

open Text (Radix apply_toLower)

/-- A lexeme in lower case. -/
def Lexeme.toLower : Lexeme → Lexeme
  | token kind => token kind.toLower
  | blank => blank
  | malformed => malformed

theorem isNameStart_toLower : ∀ c : Char, isNameStart c.toLower = isNameStart c :=
  apply_toLower _ (by decide)

theorem isNameChar_toLower : ∀ c : Char, isNameChar c.toLower = isNameChar c :=
  apply_toLower _ (by decide)

theorem next_toLower (mode : Mode) (kind : TokenKind) :
    mode.next kind.toLower = mode.next kind := by
  cases kind <;> cases mode <;> rfl

section Scan

variable {rest : List Char}

theorem takeWhile_toLower {p : Char → Bool} (h : ∀ c : Char, p c.toLower = p c)
    (text : List Char) :
    (text.map Char.toLower).takeWhile p = (text.takeWhile p).map Char.toLower := by
  rw [List.takeWhile_map]
  congr 2
  exact funext h

/-- Only a letter is changed by lower case. -/
theorem toLower_of_not_isNameStart {c : Char} (h : ¬isNameStart c) : c.toLower = c := by
  have letters : Text.upperLetters.all isNameStart := by decide
  exact (Text.toLower_eq_or_mem c).resolve_right fun letter =>
    h (List.all_eq_true.1 letters c letter)

theorem head?_toLower_iff {d : Char} (other : d.isLower = false) (kept : d.toLower = d)
    (text : List Char) : (text.map Char.toLower).head? = some d ↔ text.head? = some d := by
  cases text with
  | nil => rfl
  | cons c rest =>
    simp only [List.map_cons, List.head?_cons, Option.some.injEq, Text.toLower_eq_iff other kept]

/-- A mark is the same in both cases. -/
theorem head?_toLower_or_iff {mark mark' : Char}
    (h : ∀ c : Char, decide (c.toLower = mark ∨ c.toLower = mark') = decide (c = mark ∨ c = mark'))
    (text : List Char) :
    (text.map Char.toLower).head? = some mark ∨ (text.map Char.toLower).head? = some mark' ↔
      text.head? = some mark ∨ text.head? = some mark' := by
  cases text with
  | nil => rfl
  | cons c rest =>
    simp only [List.map_cons, List.head?_cons, Option.some.injEq]
    exact decide_eq_decide.1 (h c)

theorem startsBinary_toLower (text : List Char) :
    startsBinary (text.map Char.toLower) = startsBinary text := by
  simp only [startsBinary, head?_toLower_iff (d := '0') rfl rfl,
    head?_toLower_iff (d := '1') rfl rfl]

theorem scanNumeral_toLower (radix : Radix) (read : List Char) (skip : Nat) (rest : List Char) :
    scanNumeral radix (read.map Char.toLower) skip (rest.map Char.toLower) =
      ((scanNumeral radix read skip rest).1.toLower, (scanNumeral radix read skip rest).2) := by
  simp only [scanNumeral, ← List.map_drop, takeWhile_toLower (Text.isNumeralChar_toLower radix),
    takeWhile_toLower isNameChar_toLower, List.length_map, ← List.map_append, ne_eq,
    List.map_eq_nil_iff]
  split
  · rfl
  · simp only [Lexeme.toLower, TokenKind.toLower, Text.toLower_ofList]

theorem scanDigit_toLower {c : Char} (kept : c.toLower = c) :
    scanDigit c (rest.map Char.toLower) =
      ((scanDigit c rest).1.toLower, (scanDigit c rest).2) := by
  have hexadecimal := head?_toLower_or_iff
    (apply_toLower (fun c => decide (c = 'x' ∨ c = 'X')) (by decide)) rest
  have binary := head?_toLower_or_iff
    (apply_toLower (fun c => decide (c = 'b' ∨ c = 'B')) (by decide)) rest
  have read : [c].map Char.toLower = [c] := by rw [List.map_singleton, kept]
  rw [scanDigit_eq, scanDigit_eq]
  simp only [hexadecimal, binary, ← List.map_tail, startsBinary_toLower]
  split
  · exact scanNumeral_toLower .hexadecimal [] 1 rest
  · split
    · exact scanNumeral_toLower .binary [] 1 rest
    · have whole := scanNumeral_toLower .decimal [c] 0 rest
      rwa [read] at whole

theorem scanDoubled_toLower {c : Char} {single double : Punct} (other : c.isLower = false)
    (kept : c.toLower = c) : scanDoubled c single double (rest.map Char.toLower) =
      ((scanDoubled c single double rest).1.toLower, (scanDoubled c single double rest).2) := by
  simp only [scanDoubled, head?_toLower_iff other kept]
  split <;> rfl

/-- A lexeme covers as many characters in lower case. The quote is left out, since the character
behind it has a value that lower case changes. -/
theorem scan_toLower (mode : Mode) {c : Char} (h : c ≠ '\'') (rest : List Char) :
    scan mode c.toLower (rest.map Char.toLower) =
      ((scan mode c rest).1.toLower, (scan mode c rest).2) := by
  by_cases start : isNameStart c
  · have start' : isNameStart c.toLower := (isNameStart_toLower c).trans start
    rw [scan_of_isNameStart start, scan_of_isNameStart start', takeWhile_toLower isNameChar_toLower,
      List.length_map, ← List.map_cons, ← Text.toLower_ofList]
    rfl
  -- All other characters are the same in lower case, so only what follows them changes.
  · have kept := toLower_of_not_isNameStart start
    rw [kept]
    unfold scan
    split
    case h_5 =>
      have inside : ∀ c : Char, decide (c.toLower ≠ '\n') = decide (c ≠ '\n') :=
        apply_toLower (fun c => decide (c ≠ '\n')) (by decide)
      rw [takeWhile_toLower (p := fun c => decide (c ≠ '\n')) inside, List.length_map]
      rfl
    case h_6 => exact scanNumeral_toLower .hexadecimal [] 0 rest
    case h_7 =>
      simp only [startsBinary_toLower]
      split
      · exact scanNumeral_toLower .binary [] 0 rest
      · rfl
    case h_8 => exact absurd rfl h
    case h_9 | h_10 => exact scanDoubled_toLower rfl rfl
    case h_11 =>
      by_cases digit : c.isDigit
      · rw [if_pos digit, if_pos digit]
        exact scanDigit_toLower kept
      · rw [if_neg digit, if_neg digit, if_neg start, if_neg start]
        cases punctOfChar? c with
        | some punct => rfl
        | none => simp only [Lexeme.toLower, TokenKind.toLower, kept]
    all_goals rfl

end Scan

theorem lexFrom_toLower (mode : Mode) (offset : Nat) {text : List Char} (h : '\'' ∉ text) :
    lexFrom mode offset (text.map Char.toLower) =
      (lexFrom mode offset text).map (List.map Token.toLower) := by
  induction left : text.length using Nat.strongRecOn generalizing mode offset text with
  | ind left' ih =>
    subst left
    cases text with
    | nil =>
      rw [List.map_nil, lexFrom]
      rfl
    | cons c rest =>
      have unquoted : c ≠ '\'' := fun same => h (same ▸ List.mem_cons_self)
      have shorter : (rest.drop (scan mode c rest).2).length < (c :: rest).length :=
        Nat.lt_succ_of_le (List.drop_sublist _ _).length_le
      have behind (mode' : Mode) (offset' : Nat) :=
        ih _ shorter mode' offset'
          (fun quoted => h (List.mem_cons_of_mem c (List.mem_of_mem_drop quoted))) rfl
      rw [List.map_cons, lexFrom, lexFrom]
      simp only [scan_toLower mode unquoted, ← List.map_take, ← List.map_drop, ← List.map_cons,
        Text.utf8Length_toLower]
      cases (scan mode c rest).1 with
      | blank => exact behind mode _
      | token kind =>
        simp only [Lexeme.toLower, next_toLower, behind]
        cases lexFrom (mode.next kind) _ _ <;> rfl
      | malformed => rfl

theorem endsStatement_toLower_iff {tokens : List Token} :
    EndsStatement (tokens.map Token.toLower) ↔ EndsStatement tokens := by
  simp only [EndsStatement, List.getLast?_map]
  cases tokens.getLast? with
  | none => rfl
  | some token => simpa using TokenKind.toLower_eq_endOfStatement_iff

theorem closeStatement_toLower (offset : Nat) (tokens : List Token) :
    closeStatement offset (tokens.map Token.toLower) =
      (closeStatement offset tokens).map Token.toLower := by
  simp only [closeStatement, endsStatement_toLower_iff]
  split
  · rfl
  · rw [List.map_append]
    rfl

theorem eq_quote_of_scan {mode : Mode} {c d : Char} {rest : List Char}
    (h : (scan mode c rest).1 = .token (.char d)) : c = '\'' := by
  have spelled := List.mem_singleton.1 (lexeme_mem_spellings h)
  exact (List.cons.inj (String.ofList_injective spelled)).1

/-- A text without a quote has no quoted character. -/
theorem Lexed.unquoted {mode : Mode} {offset : Nat} {text : List Char} {tokens : List Token}
    (lexed : Lexed mode offset text tokens) (h : '\'' ∉ text) :
    ∀ token ∈ tokens, ∀ c, token.kind ≠ .char c := by
  induction lexed with
  | nil => nofun
  | blank _ _ ih =>
    exact ih fun quoted => h (List.mem_cons_of_mem _ (List.mem_of_mem_drop quoted))
  | token found _ ih =>
    refine List.forall_mem_cons.2 ⟨?_, ?_⟩
    · rintro c rfl
      exact h (eq_quote_of_scan found ▸ List.mem_cons_self)
    · exact ih fun quoted => h (List.mem_cons_of_mem _ (List.mem_of_mem_drop quoted))

theorem unquoted_of_lex {source : String} {tokens : List Token} (h : lex source = .ok tokens)
    (none : '\'' ∉ source.toList) : ∀ token ∈ tokens, ∀ c, token.kind ≠ .char c := by
  obtain ⟨read, lexed, rfl⟩ := lex_eq_ok h
  have inside := lexed.unquoted none
  unfold closeStatement
  split
  · exact inside
  · exact List.forall_mem_append.2 ⟨inside, by simp⟩

/-- A source in lower case has its tokens in lower case, if no character in it is quoted. -/
theorem lex_toLower {source : String} (h : '\'' ∉ source.toList) :
    lex source.toLower = (lex source).map (List.map Token.toLower) := by
  simp only [lex, Text.toList_toLower, lexFrom_toLower _ _ h, Text.utf8Length_toLower]
  cases lexFrom .statementStart 0 source.toList with
  | error diagnostic => rfl
  | ok tokens => exact congrArg Except.ok (closeStatement_toLower _ tokens)

/-- Two sources without a quote that differ in letter case are malformed at the same place, or
have tokens that differ in letter case at most. -/
theorem lex_sameIgnoringCase {source source' : String}
    (same : Text.SameIgnoringCase source source') (h : '\'' ∉ source.toList) :
    (∃ diagnostic, lex source = .error diagnostic ∧ lex source' = .error diagnostic) ∨
      ∃ tokens tokens', lex source = .ok tokens ∧ lex source' = .ok tokens' ∧
        tokens.map Token.toLower = tokens'.map Token.toLower := by
  have lexers := lex_toLower h
  rw [same, lex_toLower (mt (same.mem_iff rfl rfl).2 h)] at lexers
  cases lexed : lex source with
  | error diagnostic =>
    cases lexed' : lex source' with
    | error diagnostic' =>
      rw [lexed, lexed'] at lexers
      cases lexers
      exact .inl ⟨diagnostic, rfl, rfl⟩
    | ok =>
      rw [lexed, lexed'] at lexers
      cases lexers
  | ok tokens =>
    cases lexed' : lex source' with
    | error =>
      rw [lexed, lexed'] at lexers
      cases lexers
    | ok tokens' =>
      rw [lexed, lexed'] at lexers
      injection lexers with lower
      exact .inr ⟨tokens, tokens', rfl, rfl, lower.symm⟩

end Asm65.Token
