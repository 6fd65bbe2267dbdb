import Asm65.Proofs.Placement

/-!
# Lexing a text in pieces

What a lexeme is does not depend on what follows it, as long as a character
follows that can continue none (`scan_append`). A newline is such a character,
and the only one that ends a comment. So the tokens of two texts with a newline
between them are those of the first, an end of statement, and those of the
second further on (`lexFrom_append_newline`).
-/

namespace Asm65.Token

open Text (Radix)

/-- Characters that continue no lexeme but a comment. -/
def IsBoundary (c : Char) : Prop :=
  isNameChar c = false ∧ c ∉ ['<', '>', '\'']

instance (c : Char) : Decidable (IsBoundary c) :=
  inferInstanceAs (Decidable (_ ∧ _))

/-- Whether a text is empty or starts with a boundary. -/
def StartsApart (text : List Char) : Prop :=
  ∀ c ∈ text.head?, IsBoundary c

theorem isNameChar_of_isDigit {radix : Radix} {c : Char} (h : radix.isDigit c) :
    isNameChar c := by
  have f : 'f'.val.toNat ≤ 'z'.val.toNat := by decide
  have f' : 'F'.val.toNat ≤ 'Z'.val.toNat := by decide
  cases radix with
  | binary =>
    simp only [Radix.isDigit, Bool.or_eq_true, decide_eq_true_eq] at h
    rcases h with rfl | rfl <;> rfl
  | decimal =>
    simp only [Radix.isDigit] at h
    simp [isNameChar, Char.isAlphanum, h]
  | hexadecimal =>
    simp only [Radix.isDigit, Bool.or_eq_true, Bool.and_eq_true, decide_eq_true_eq, Char.le_def,
      UInt32.le_iff_toNat_le] at h
    simp only [isNameChar, Char.isAlphanum, Char.isAlpha, Char.isUpper, Char.isLower, ge_iff_le,
      Bool.or_eq_true, Bool.and_eq_true, decide_eq_true_eq, UInt32.le_iff_toNat_le]
    rcases h with (digit | ⟨low, high⟩) | ⟨low, high⟩
    · exact .inl (.inl (.inl (.inr digit)))
    · exact .inl (.inl (.inl (.inl (.inr ⟨low, Nat.le_trans high f⟩))))
    · exact .inl (.inl (.inl (.inl (.inl ⟨low, Nat.le_trans high f'⟩))))

theorem isNameChar_of_isNumeralChar {radix : Radix} {c : Char} (h : radix.isNumeralChar c) :
    isNameChar c := by
  simp only [Radix.isNumeralChar, Bool.or_eq_true, decide_eq_true_eq] at h
  rcases h with digit | rfl
  · exact isNameChar_of_isDigit digit
  · rfl

/-- The numeral a digit starts, by the one or two characters behind the digit. -/
theorem scanDigit_eq (c : Char) (rest : List Char) :
    scanDigit c rest =
      if c = '0' ∧ (rest.head? = some 'x' ∨ rest.head? = some 'X') then
        scanNumeral .hexadecimal [] 1 rest
      else if c = '0' ∧ (rest.head? = some 'b' ∨ rest.head? = some 'B') ∧
          startsBinary rest.tail then
        scanNumeral .binary [] 1 rest
      else scanNumeral .decimal [c] 0 rest := by
  unfold scanDigit
  split
  · rfl
  · rfl
  · simp [startsBinary]
  · simp [startsBinary]
  · next hex hex' binary binary' =>
    rw [if_neg, if_neg]
    · rintro ⟨rfl, mark, digit⟩
      obtain _ | ⟨d, _ | ⟨e, text⟩⟩ := rest
      · simp at mark
      · simp [startsBinary] at digit
      · simp only [List.head?_cons, Option.some.injEq] at mark
        rcases mark with rfl | rfl
        · exact binary _ _ rfl rfl
        · exact binary' _ _ rfl rfl
    · rintro ⟨rfl, mark⟩
      obtain _ | ⟨d, text⟩ := rest
      · simp at mark
      · simp only [List.head?_cons, Option.some.injEq] at mark
        rcases mark with rfl | rfl
        · exact hex _ rfl rfl
        · exact hex' _ rfl rfl

section Append

variable {rest more : List Char}

theorem takeWhile_append_apart {p : Char → Bool} (h : ∀ c ∈ more.head?, p c = false)
    (text : List Char) : (text ++ more).takeWhile p = text.takeWhile p := by
  induction text with
  | nil =>
    cases more with
    | nil => rfl
    | cons c more => simp [h c rfl]
  | cons c text ih => simp only [List.cons_append, List.takeWhile_cons, ih]

theorem scanNumeral_append (apart : StartsApart more) {radix : Radix} {read : List Char}
    {skip : Nat} (inside : skip ≤ rest.length) :
    scanNumeral radix read skip (rest ++ more) = scanNumeral radix read skip rest := by
  have name (c : Char) (h : c ∈ more.head?) : isNameChar c = false := (apart c h).1
  have numeral (c : Char) (h : c ∈ more.head?) : radix.isNumeralChar c = false :=
    Bool.eq_false_iff.2 fun digit => by
      simpa [name c h] using isNameChar_of_isNumeralChar digit
  have digits := takeWhile_append_apart numeral (rest.drop skip)
  rw [← List.drop_append_of_le_length inside] at digits
  have within : skip + ((rest.drop skip).takeWhile radix.isNumeralChar).length ≤ rest.length := by
    have short := (List.takeWhile_prefix radix.isNumeralChar (l := rest.drop skip)).length_le
    rw [List.length_drop] at short
    omega
  simp only [scanNumeral, digits, List.drop_append_of_le_length within,
    takeWhile_append_apart name]

theorem head?_append_eq_some_iff {c : Char} (apart : StartsApart more) (h : ¬IsBoundary c) :
    (rest ++ more).head? = some c ↔ rest.head? = some c := by
  cases rest with
  | nil =>
    constructor
    · intro found
      exact absurd (apart c found) h
    · nofun
  | cons => rfl

theorem startsBinary_append (apart : StartsApart more) :
    startsBinary (rest ++ more) = startsBinary rest := by
  simp only [startsBinary, head?_append_eq_some_iff apart (show ¬IsBoundary '0' by decide),
    head?_append_eq_some_iff apart (show ¬IsBoundary '1' by decide)]

theorem scanDigit_append (apart : StartsApart more) (c : Char) :
    scanDigit c (rest ++ more) = scanDigit c rest := by
  have decimal : scanNumeral .decimal [c] 0 (rest ++ more) = scanNumeral .decimal [c] 0 rest :=
    scanNumeral_append apart (Nat.zero_le _)
  have marked (mark : Char) (h : ¬IsBoundary mark) :
      (rest ++ more).head? = some mark ↔ rest.head? = some mark :=
    head?_append_eq_some_iff apart h
  simp only [scanDigit_eq, marked 'x' (by decide), marked 'X' (by decide), marked 'b' (by decide),
    marked 'B' (by decide), decimal]
  cases rest with
  | nil => simp
  | cons d text =>
    have one : 1 ≤ (d :: text).length := Nat.succ_le_succ (Nat.zero_le _)
    have binary : startsBinary (d :: text ++ more).tail = startsBinary (d :: text).tail :=
      startsBinary_append apart
    rw [binary, scanNumeral_append apart one, scanNumeral_append apart one]

theorem scanQuoted_append (h : (scanQuoted rest).1 ≠ .malformed) :
    scanQuoted (rest ++ more) = scanQuoted rest := by
  obtain _ | ⟨c, _ | ⟨d, text⟩⟩ := rest
  · exact absurd rfl h
  · simp [scanQuoted] at h
  · simp only [scanQuoted, List.cons_append] at h ⊢
    by_cases quoted : (d :: text).head? = some '\'' ∧ c ≠ '\'' ∧ c ≠ '\n'
    · have quoted' : (d :: (text ++ more)).head? = some '\'' ∧ c ≠ '\'' ∧ c ≠ '\n' := quoted
      rw [if_pos quoted, if_pos quoted']
    · rw [if_neg quoted] at h
      exact absurd rfl h

theorem scanDoubled_append (apart : StartsApart more) {c : Char} (h : ¬IsBoundary c)
    (single double : Punct) :
    scanDoubled c single double (rest ++ more) = scanDoubled c single double rest := by
  simp only [scanDoubled, head?_append_eq_some_iff apart h]

/-- Nothing but a comment goes on where a boundary stands. -/
theorem scan_append (apart : StartsApart more) {mode : Mode} {c : Char}
    (comment : c = ';' → more.head? = some '\n') (h : (scan mode c rest).1 ≠ .malformed) :
    scan mode c (rest ++ more) = scan mode c rest := by
  have name := takeWhile_append_apart (fun c among => (apart c among).1) rest
  revert h
  unfold scan
  split
  case h_5 =>
    intro _
    have newline (c : Char) (found : c ∈ more.head?) : decide (c ≠ '\n') = false := by
      rw [comment rfl, Option.mem_some_iff] at found
      simp [← found]
    rw [takeWhile_append_apart newline]
  case h_6 =>
    intro _
    exact scanNumeral_append apart (Nat.zero_le _)
  case h_7 =>
    intro _
    rw [startsBinary_append apart, scanNumeral_append apart (Nat.zero_le _)]
  case h_8 => exact scanQuoted_append
  case h_9 | h_10 =>
    intro _
    exact scanDoubled_append apart (by decide) _ _
  case h_11 =>
    intro _
    simp only [scanDigit_append apart, name]
  all_goals exact fun _ => rfl

end Append

section Length

theorem length_takeWhile_le (p : Char → Bool) (text : List Char) :
    (text.takeWhile p).length ≤ text.length :=
  (List.takeWhile_prefix p).length_le

theorem scanNumeral_length_le {radix : Radix} {read rest : List Char} {skip : Nat}
    (inside : skip ≤ rest.length) : (scanNumeral radix read skip rest).2 ≤ rest.length := by
  have digits := length_takeWhile_le radix.isNumeralChar (rest.drop skip)
  have tail := length_takeWhile_le isNameChar
    (rest.drop (skip + ((rest.drop skip).takeWhile radix.isNumeralChar).length))
  simp only [List.length_drop] at digits tail
  simp only [scanNumeral]
  omega

theorem scanDigit_length_le (c : Char) (rest : List Char) :
    (scanDigit c rest).2 ≤ rest.length := by
  have marked {mark : Char} (h : rest.head? = some mark) : 1 ≤ rest.length := by
    cases rest with
    | nil => cases h
    | cons => exact Nat.succ_le_succ (Nat.zero_le _)
  rw [scanDigit_eq]
  split
  · next mark => exact scanNumeral_length_le (mark.2.elim marked marked)
  · split
    · next mark => exact scanNumeral_length_le (mark.2.1.elim marked marked)
    · exact scanNumeral_length_le (Nat.zero_le _)

theorem scanQuoted_length_le (rest : List Char) : (scanQuoted rest).2 ≤ rest.length := by
  obtain _ | ⟨c, _ | ⟨d, text⟩⟩ := rest
  · exact Nat.le_refl 0
  · simp [scanQuoted]
  · have malformed := length_takeWhile_le (!Text.isWhitespace ·) (d :: text)
    simp only [scanQuoted]
    split
    · simp
    · simp only [List.length_cons] at malformed ⊢
      omega

theorem scanDoubled_length_le (c : Char) (single double : Punct) (rest : List Char) :
    (scanDoubled c single double rest).2 ≤ rest.length := by
  cases rest with
  | nil => simp [scanDoubled]
  | cons d text =>
    unfold scanDoubled
    split
    · exact Nat.succ_le_succ (Nat.zero_le _)
    · exact Nat.zero_le _

/-- A lexeme ends before the text does. -/
theorem scan_length_le (mode : Mode) (c : Char) (rest : List Char) :
    (scan mode c rest).2 ≤ rest.length := by
  unfold scan
  split
  case h_5 => exact length_takeWhile_le _ _
  case h_6 => exact scanNumeral_length_le (Nat.zero_le _)
  case h_7 =>
    split
    · exact scanNumeral_length_le (Nat.zero_le _)
    · exact Nat.zero_le _
  case h_8 => exact scanQuoted_length_le rest
  case h_9 | h_10 => exact scanDoubled_length_le _ _ _ _
  case h_11 =>
    split
    · exact scanDigit_length_le _ _
    · split
      · exact length_takeWhile_le _ _
      · split <;> exact Nat.zero_le _
  all_goals exact Nat.zero_le _

end Length

/-- The characters of the lexeme that starts with `c`. -/
def lexeme (mode : Mode) (c : Char) (rest : List Char) : List Char :=
  c :: rest.take (scan mode c rest).2

/-- The characters behind that lexeme. -/
def behind (mode : Mode) (c : Char) (rest : List Char) : List Char :=
  rest.drop (scan mode c rest).2

theorem lexeme_append_behind (mode : Mode) (c : Char) (rest : List Char) :
    lexeme mode c rest ++ behind mode c rest = c :: rest :=
  congrArg (c :: ·) (List.take_append_drop _ rest)

theorem utf8Length_lexeme_add (mode : Mode) (c : Char) (rest : List Char) :
    utf8Length (lexeme mode c rest) + utf8Length (behind mode c rest) = utf8Length (c :: rest) := by
  rw [← utf8Length_append, lexeme_append_behind]

theorem lexeme_append {mode : Mode} {c : Char} {rest more : List Char}
    (same : scan mode c (rest ++ more) = scan mode c rest) :
    lexeme mode c (rest ++ more) = lexeme mode c rest := by
  simp only [lexeme, same, List.take_append_of_le_length (scan_length_le mode c rest)]

theorem behind_append {mode : Mode} {c : Char} {rest more : List Char}
    (same : scan mode c (rest ++ more) = scan mode c rest) :
    behind mode c (rest ++ more) = behind mode c rest ++ more := by
  simp only [behind, same, List.drop_append_of_le_length (scan_length_le mode c rest)]

/-- The tokens of a text that starts at an offset, lexeme by lexeme. -/
inductive Lexed : Mode → Nat → List Char → List Token → Prop
  | nil {mode : Mode} {offset : Nat} : Lexed mode offset [] []
  | blank {mode : Mode} {offset : Nat} {c : Char} {rest : List Char} {tokens : List Token}
      (h : (scan mode c rest).1 = .blank)
      (tail : Lexed mode (offset + utf8Length (lexeme mode c rest)) (behind mode c rest) tokens) :
      Lexed mode offset (c :: rest) tokens
  | token {mode : Mode} {offset : Nat} {c : Char} {rest : List Char} {kind : TokenKind}
      {tokens : List Token} (h : (scan mode c rest).1 = .token kind)
      (tail : Lexed (mode.next kind) (offset + utf8Length (lexeme mode c rest))
        (behind mode c rest) tokens) :
      Lexed mode offset (c :: rest) (⟨kind, ⟨offset, utf8Length (lexeme mode c rest)⟩⟩ :: tokens)

theorem lexFrom_eq_ok_iff {mode : Mode} {offset : Nat} {text : List Char} {tokens : List Token} :
    lexFrom mode offset text = .ok tokens ↔ Lexed mode offset text tokens := by
  constructor
  · intro h
    induction left : text.length using Nat.strongRecOn generalizing mode offset text tokens with
    | ind left' ih =>
      subst left
      cases text with
      | nil =>
        rw [lexFrom] at h
        cases h
        exact .nil
      | cons c rest =>
        have shorter : (behind mode c rest).length < (c :: rest).length :=
          Nat.lt_succ_of_le (List.drop_sublist _ _).length_le
        rw [lexFrom] at h
        cases found : (scan mode c rest).1 with
        | blank =>
          simp only [found] at h
          exact .blank found (ih _ shorter h rfl)
        | token kind =>
          simp only [found] at h
          split at h
          · next lexed =>
            cases h
            exact .token found (ih _ shorter lexed rfl)
          · cases h
        | malformed =>
          simp only [found] at h
          cases h
  · intro h
    induction h with
    | nil => rw [lexFrom]
    | blank h _ ih =>
      rw [lexFrom]
      simp only [h]
      exact ih
    | token h _ ih =>
      rw [lexFrom]
      simp only [h]
      rw [lexeme, behind] at ih
      simp only [Span.stop, ih]
      rfl

namespace Lexed

variable {mode : Mode} {offset : Nat} {text : List Char} {tokens : List Token}

/-- The same tokens stand further on when the text starts further on. -/
theorem shift (h : Lexed mode offset text tokens) (count : Nat) :
    ∃ tokens', Lexed mode (offset + count) text tokens' ∧
      List.Forall₂ (Token.Agree (.shift count)) tokens tokens' := by
  induction h with
  | nil => exact ⟨[], .nil, .nil⟩
  | blank h _ ih =>
    obtain ⟨tokens', lexed, agree⟩ := ih
    rw [Nat.add_right_comm] at lexed
    exact ⟨tokens', .blank h lexed, agree⟩
  | token h _ ih =>
    obtain ⟨tokens', lexed, agree⟩ := ih
    rw [Nat.add_right_comm] at lexed
    exact ⟨_ :: tokens', .token h lexed, .cons ⟨rfl, rfl⟩ agree⟩

/-- A newline ends the statement, and what follows is lexed as if it stood first. -/
theorem append_newline {more : List Char} {tokens' : List Token}
    (h : Lexed mode offset text tokens)
    (h' : Lexed .statementStart (offset + utf8Length text + 1) more tokens') :
    Lexed mode offset (text ++ '\n' :: more)
      (tokens ++ ⟨.endOfStatement, ⟨offset + utf8Length text, 1⟩⟩ :: tokens') := by
  have apart : StartsApart ('\n' :: more) := by
    intro c found
    cases found
    decide
  induction h with
  | nil => exact .token rfl h'
  | @blank mode offset c rest tokens h tail ih =>
    have same := scan_append apart (fun _ => rfl) (by rw [h]; nofun)
    rw [← utf8Length_lexeme_add mode c rest, ← Nat.add_assoc] at h' ⊢
    rw [List.cons_append]
    refine .blank (same.symm ▸ h) ?_
    rw [lexeme_append same, behind_append same]
    exact ih h'
  | @token mode offset c rest kind tokens h tail ih =>
    have same := scan_append apart (fun _ => rfl) (by rw [h]; nofun)
    rw [← utf8Length_lexeme_add mode c rest, ← Nat.add_assoc] at h' ⊢
    rw [List.cons_append, List.cons_append, ← lexeme_append same]
    refine .token (same.symm ▸ h) ?_
    rw [lexeme_append same, behind_append same]
    exact ih h'

/-- The tokens lie where the text does. -/
theorem inside (h : Lexed mode offset text tokens) :
    ∀ token ∈ tokens, token.span.Inside offset (offset + utf8Length text) := by
  induction h with
  | nil => simp
  | @blank mode offset c rest tokens _ _ ih =>
    have whole := utf8Length_lexeme_add mode c rest
    intro token among
    obtain ⟨after, before⟩ := ih token among
    exact ⟨by omega, by omega⟩
  | @token mode offset c rest kind tokens _ _ ih =>
    have whole := utf8Length_lexeme_add mode c rest
    intro token among
    rcases List.mem_cons.1 among with rfl | among
    · exact ⟨Nat.le_refl _, by simp only [Span.stop]; omega⟩
    · obtain ⟨after, before⟩ := ih token among
      exact ⟨by omega, by omega⟩

/-- The tokens stand one behind the other. -/
theorem ordered (h : Lexed mode offset text tokens) :
    tokens.Pairwise fun token later => token.span.stop ≤ later.span.offset := by
  induction h with
  | nil => exact .nil
  | blank _ _ ih => exact ih
  | token _ tail ih =>
    refine List.pairwise_cons.2 ⟨?_, ih⟩
    intro later among
    exact (tail.inside later among).1

end Lexed

theorem lex_eq_ok {source : String} {tokens : List Token} (h : lex source = .ok tokens) :
    ∃ read, Lexed .statementStart 0 source.toList read ∧
      tokens = closeStatement (utf8Length source.toList) read := by
  unfold lex at h
  split at h
  · next read found =>
    cases h
    exact ⟨read, lexFrom_eq_ok_iff.1 found, rfl⟩
  · cases h

theorem lex_of_lexed {source : String} {read : List Token}
    (h : Lexed .statementStart 0 source.toList read) :
    lex source = .ok (closeStatement (utf8Length source.toList) read) := by
  rw [lex, lexFrom_eq_ok_iff.2 h]

theorem endsStatement_of_lex {source : String} {tokens : List Token}
    (h : lex source = .ok tokens) : EndsStatement tokens := by
  obtain ⟨read, -, rfl⟩ := lex_eq_ok h
  exact endsStatement_closeStatement _ read

theorem ordered_of_lex {source : String} {tokens : List Token} (h : lex source = .ok tokens) :
    tokens.Pairwise fun token later => token.span.stop ≤ later.span.offset := by
  obtain ⟨read, lexed, rfl⟩ := lex_eq_ok h
  unfold closeStatement
  split
  · exact lexed.ordered
  · refine List.pairwise_append.2 ⟨lexed.ordered, List.pairwise_singleton _ _, ?_⟩
    intro token among later last
    rw [List.mem_singleton] at last
    have before := (lexed.inside token among).2
    rw [Nat.zero_add] at before
    rw [last]
    exact before

end Asm65.Token
