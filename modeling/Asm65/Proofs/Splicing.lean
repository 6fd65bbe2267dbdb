import Asm65.Proofs.TokenText

/-!
# Texts with another end

A lexeme is found without what stands behind it (`Token.scan_of_length_le`), so the
first tokens of a text stay when something else is put behind them
(`Token.Lexes.splice`), or nothing (`Token.Lexes.cut`). Of what stands behind it, a
lexeme depends on the first character at most (`Token.scan_of_head?_eq`). A token of a
text splits it in what is lexed before the token, the lexeme of the token, and what is
lexed behind it (`Token.Lexed.split`).
-/

namespace Asm65.Token

open Text (Radix)

variable {mode : Mode} {rest more more' : List Char}

section Cut

variable {p : Char → Bool}

theorem takeWhile_of_length_le
    (short : ((rest ++ more).takeWhile p).length ≤ rest.length) :
    (rest ++ more).takeWhile p = rest.takeWhile p := by
  rw [List.takeWhile_append] at short ⊢
  split at short
  · next all =>
    have whole := (List.takeWhile_prefix p).eq_of_length all
    rw [List.length_append] at short
    have none : more.takeWhile p = [] := List.eq_nil_of_length_eq_zero (by omega)
    rw [if_pos all, none, List.append_nil, whole]
  · next part => rw [if_neg part]

/-- A run that ends in a text although it could go on behind it ends there in any case. -/
theorem takeWhile_splice {c : Char} (next : more.head? = some c) (goes : p c)
    (short : ((rest ++ more).takeWhile p).length ≤ rest.length) :
    (rest ++ more').takeWhile p = rest.takeWhile p := by
  rw [List.takeWhile_append] at short ⊢
  split at short
  · obtain ⟨text, rfl⟩ := List.head?_eq_some_iff.1 next
    rw [List.takeWhile_cons_of_pos goes, List.length_append, List.length_cons] at short
    omega
  · next part => rw [if_neg part]

theorem takeWhile_drop_of_length_le {skip : Nat}
    (short : skip + (((rest ++ more).drop skip).takeWhile p).length ≤ rest.length) :
    ((rest ++ more).drop skip).takeWhile p = (rest.drop skip).takeWhile p := by
  rw [List.drop_append_of_le_length (by omega)] at short ⊢
  refine takeWhile_of_length_le ?_
  rw [List.length_drop]
  omega

theorem scanNumeral_of_length_le {radix : Radix} {read : List Char} {skip : Nat}
    (short : (scanNumeral radix read skip (rest ++ more)).2 ≤ rest.length) :
    scanNumeral radix read skip (rest ++ more) = scanNumeral radix read skip rest := by
  simp only [scanNumeral] at short
  have digits := takeWhile_drop_of_length_le (Nat.le_trans (Nat.le_add_right _ _) short)
  rw [digits] at short
  have tail := takeWhile_drop_of_length_le short
  simp only [scanNumeral, digits, tail]

theorem lt_scanNumeral {radix : Radix} {read : List Char} {skip : Nat} {c : Char}
    (next : (rest.drop skip).head? = some c) (digit : radix.isNumeralChar c) :
    skip < (scanNumeral radix read skip rest).2 := by
  obtain ⟨text, split⟩ := List.head?_eq_some_iff.1 next
  simp only [scanNumeral, split, List.takeWhile_cons_of_pos digit, List.length_cons]
  omega

theorem le_scanNumeral {radix : Radix} {read : List Char} {skip : Nat} :
    skip ≤ (scanNumeral radix read skip rest).2 := by
  simp only [scanNumeral]
  omega

theorem startsBinary_append_right (h : startsBinary rest) : startsBinary (rest ++ more) := by
  cases rest with
  | nil => cases h
  | cons => exact h

/-- A binary numeral that does not reach behind a text has its first digit there. -/
theorem startsBinary_of_length_le {read : List Char} {skip : Nat}
    (starts : startsBinary ((rest ++ more).drop skip))
    (short : (scanNumeral .binary read skip (rest ++ more)).2 ≤ rest.length) :
    startsBinary (rest.drop skip) := by
  have inside := Nat.le_trans le_scanNumeral short
  have digit : skip < (scanNumeral .binary read skip (rest ++ more)).2 := by
    simp only [startsBinary, Bool.or_eq_true, decide_eq_true_eq] at starts
    rcases starts with zero | one
    · exact lt_scanNumeral zero rfl
    · exact lt_scanNumeral one rfl
  rw [List.drop_append_of_le_length inside] at starts
  cases left : rest.drop skip with
  | nil =>
    have none := List.drop_eq_nil_iff.1 left
    omega
  | cons c text =>
    rw [left] at starts
    exact starts

theorem scanDigit_of_length_le {c : Char}
    (short : (scanDigit c (rest ++ more)).2 ≤ rest.length) :
    scanDigit c (rest ++ more) = scanDigit c rest := by
  rw [scanDigit_eq c (rest ++ more)] at short ⊢
  rw [scanDigit_eq c rest]
  cases rest with
  | nil =>
    -- A radix mark would be one character too many.
    have marked (radix : Radix) : ¬(scanNumeral radix [] 1 ([] ++ more)).2 ≤ 0 :=
      Nat.not_le.2 le_scanNumeral
    split at short
    · exact absurd short (marked _)
    split at short
    · exact absurd short (marked _)
    · next hex binary =>
      rw [if_neg hex, if_neg binary, if_neg (by simp), if_neg (by simp)]
      exact scanNumeral_of_length_le short
  | cons d text =>
    by_cases hex : c = '0' ∧ ((d :: text).head? = some 'x' ∨ (d :: text).head? = some 'X')
    · have hex' : c = '0' ∧ ((d :: text ++ more).head? = some 'x' ∨
          (d :: text ++ more).head? = some 'X') := hex
      rw [if_pos hex'] at short
      rw [if_pos hex, if_pos hex', scanNumeral_of_length_le short]
    have hex' : ¬(c = '0' ∧ ((d :: text ++ more).head? = some 'x' ∨
        (d :: text ++ more).head? = some 'X')) := hex
    rw [if_neg hex'] at short
    rw [if_neg hex, if_neg hex']
    split at short
    · next binary =>
      have starts : startsBinary ((d :: text).drop 1) :=
        startsBinary_of_length_le binary.2.2 short
      rw [if_pos binary, if_pos ⟨binary.1, binary.2.1, starts⟩, scanNumeral_of_length_le short]
    · next other =>
      rw [if_neg other, if_neg fun binary => other
        ⟨binary.1, binary.2.1, startsBinary_append_right binary.2.2⟩]
      exact scanNumeral_of_length_le short

theorem scanQuoted_of_length_le (short : (scanQuoted (rest ++ more)).2 ≤ rest.length) :
    scanQuoted (rest ++ more) = scanQuoted rest := by
  cases rest with
  | nil =>
    cases more with
    | nil => rfl
    | cons c more =>
      simp only [scanQuoted, List.nil_append] at short
      split at short <;> simp at short
  | cons c text =>
    simp only [scanQuoted, List.cons_append] at short ⊢
    split at short
    · next closed =>
      cases text with
      | nil => simp at short
      | cons d text =>
        have closed' : (d :: text).head? = some '\'' ∧ c ≠ '\'' ∧ c ≠ '\n' := closed
        rw [if_pos closed, if_pos closed']
    · next unclosed =>
      have blank : (text ++ more).takeWhile (!Text.isWhitespace ·) =
          text.takeWhile (!Text.isWhitespace ·) := by
        refine takeWhile_of_length_le ?_
        rw [List.length_cons] at short
        omega
      have unclosed' : ¬(text.head? = some '\'' ∧ c ≠ '\'' ∧ c ≠ '\n') := by
        cases text with
        | nil => simp
        | cons d text => exact unclosed
      rw [if_neg unclosed, if_neg unclosed', blank]

theorem scanDoubled_of_length_le {c : Char} {single double : Punct}
    (short : (scanDoubled c single double (rest ++ more)).2 ≤ rest.length) :
    scanDoubled c single double (rest ++ more) = scanDoubled c single double rest := by
  cases rest with
  | nil =>
    unfold scanDoubled at short ⊢
    split at short
    · cases short
    · next other => rw [if_neg other, if_neg (by simp)]
  | cons d text => rfl

/-- A lexeme that does not reach behind a text is found without what stands there. -/
theorem scan_of_length_le {c : Char} (short : (scan mode c (rest ++ more)).2 ≤ rest.length) :
    scan mode c (rest ++ more) = scan mode c rest := by
  revert short
  unfold scan
  split
  case h_5 =>
    intro short
    rw [takeWhile_of_length_le short]
  case h_6 => exact scanNumeral_of_length_le
  case h_7 =>
    intro short
    by_cases binary : mode ≠ .operandEnded ∧ startsBinary (rest ++ more)
    · rw [if_pos binary] at short
      have starts : startsBinary (rest.drop 0) := startsBinary_of_length_le binary.2 short
      rw [if_pos binary, if_pos ⟨binary.1, starts⟩, scanNumeral_of_length_le short]
    · rw [if_neg binary, if_neg fun binary' => binary
        ⟨binary'.1, startsBinary_append_right binary'.2⟩]
  case h_8 => exact scanQuoted_of_length_le
  case h_9 | h_10 => exact scanDoubled_of_length_le
  case h_11 =>
    split
    · exact scanDigit_of_length_le
    split
    · intro short
      dsimp only at short ⊢
      rw [takeWhile_of_length_le short]
    · exact fun _ => rfl
  all_goals exact fun _ => rfl

end Cut

section Extended

variable {p : Char → Bool}

/-- A run that ends before a text does ends there whatever follows the text. -/
theorem takeWhile_append_of_lt (ends : (rest.takeWhile p).length < rest.length) :
    (rest ++ more).takeWhile p = rest.takeWhile p := by
  rw [List.takeWhile_append, if_neg (Nat.ne_of_lt ends)]

theorem takeWhile_drop_append_of_lt {skip : Nat}
    (ends : skip + ((rest.drop skip).takeWhile p).length < rest.length) :
    ((rest ++ more).drop skip).takeWhile p = (rest.drop skip).takeWhile p := by
  rw [List.drop_append_of_le_length (by omega)]
  apply takeWhile_append_of_lt
  rw [List.length_drop]
  omega

theorem scanNumeral_append_of_lt {radix : Radix} {read : List Char} {skip : Nat}
    (ends : (scanNumeral radix read skip rest).2 < rest.length) :
    scanNumeral radix read skip (rest ++ more) = scanNumeral radix read skip rest := by
  simp only [scanNumeral] at ends
  have digits : ((rest ++ more).drop skip).takeWhile radix.isNumeralChar =
      (rest.drop skip).takeWhile radix.isNumeralChar :=
    takeWhile_drop_append_of_lt (Nat.lt_of_le_of_lt (Nat.le_add_right _ _) ends)
  simp only [scanNumeral, digits, takeWhile_drop_append_of_lt ends]

theorem scanDigit_append_of_lt {c : Char} (ends : (scanDigit c rest).2 < rest.length) :
    scanDigit c (rest ++ more) = scanDigit c rest := by
  obtain _ | ⟨d, _ | ⟨e, text⟩⟩ := rest
  · exact absurd ends (Nat.not_lt_zero _)
  · -- The last character of the text is not part of the numeral, so it is no radix mark.
    have unmarked (mark : Char) (marks : mark ∈ ['x', 'X', 'b', 'B']) :
        ¬(c = '0' ∧ d = mark) := by
      rintro ⟨rfl, rfl⟩
      fin_cases marks <;> exact absurd ends (by decide)
    simp only [scanDigit_eq, List.cons_append, List.nil_append, List.head?_cons, Option.some.injEq,
      and_or_left, unmarked 'x' (by decide), unmarked 'X' (by decide), ← and_assoc,
      unmarked 'b' (by decide), unmarked 'B' (by decide), or_self, false_and, if_false] at ends ⊢
    exact scanNumeral_append_of_lt ends
  · rw [scanDigit_eq] at ends
    rw [scanDigit_eq c (d :: e :: text ++ more), scanDigit_eq c (d :: e :: text)]
    have head : (d :: e :: text ++ more).head? = (d :: e :: text).head? := rfl
    have second :
        startsBinary (d :: e :: text ++ more).tail = startsBinary (d :: e :: text).tail := rfl
    rw [head, second]
    split at ends
    · next hex => rw [if_pos hex, if_pos hex, scanNumeral_append_of_lt ends]
    · next hex =>
      rw [if_neg hex, if_neg hex]
      split at ends
      · next binary => rw [if_pos binary, if_pos binary, scanNumeral_append_of_lt ends]
      · next binary => rw [if_neg binary, if_neg binary, scanNumeral_append_of_lt ends]

theorem scanQuoted_append_of_lt (ends : (scanQuoted rest).2 < rest.length) :
    scanQuoted (rest ++ more) = scanQuoted rest := by
  obtain _ | ⟨c, _ | ⟨d, text⟩⟩ := rest
  · exact absurd ends (Nat.not_lt_zero _)
  · exact absurd ends (Nat.lt_irrefl 1)
  · have head : (d :: (text ++ more)).head? = (d :: text).head? := rfl
    simp only [scanQuoted, List.cons_append, head] at ends ⊢
    split at ends
    · next closed => rw [if_pos closed, if_pos closed]
    · next unclosed =>
      rw [if_neg unclosed, if_neg unclosed, ← List.cons_append, takeWhile_append_of_lt]
      rw [List.length_cons (a := c)] at ends
      omega

theorem scanDoubled_append_of_lt {c : Char} {single double : Punct}
    (ends : (scanDoubled c single double rest).2 < rest.length) :
    scanDoubled c single double (rest ++ more) = scanDoubled c single double rest := by
  cases rest with
  | nil => exact absurd ends (Nat.not_lt_zero _)
  | cons => rfl

/-- A lexeme with a character behind it that does not go on with it stays whatever follows. -/
theorem scan_append_of_lt {c : Char} (ends : (scan mode c rest).2 < rest.length) :
    scan mode c (rest ++ more) = scan mode c rest := by
  have binary : startsBinary (rest ++ more) = startsBinary rest := by
    cases rest with
    | nil => exact absurd ends (Nat.not_lt_zero _)
    | cons => rfl
  revert ends
  unfold scan
  split
  case h_5 =>
    intro ends
    rw [takeWhile_append_of_lt ends]
  case h_6 => exact scanNumeral_append_of_lt
  case h_7 =>
    rw [binary]
    split
    · exact scanNumeral_append_of_lt
    · exact fun _ => rfl
  case h_8 => exact scanQuoted_append_of_lt
  case h_9 | h_10 => exact scanDoubled_append_of_lt
  case h_11 =>
    split
    · exact scanDigit_append_of_lt
    split
    · intro ends
      dsimp only at ends ⊢
      rw [takeWhile_append_of_lt ends]
    · exact fun _ => rfl
  all_goals exact fun _ => rfl

/-- Of what stands behind it, a lexeme depends on the first character at most. -/
theorem scan_of_head?_eq {c d : Char} (next : more.head? = some d) (next' : more'.head? = some d)
    (short : (scan mode c (rest ++ more)).2 ≤ rest.length) :
    scan mode c (rest ++ more') = scan mode c (rest ++ more) := by
  obtain ⟨text, rfl⟩ := List.head?_eq_some_iff.1 next
  obtain ⟨text', rfl⟩ := List.head?_eq_some_iff.1 next'
  have one : (rest ++ [d]).length = rest.length + 1 := List.length_append
  rw [List.append_cons] at short
  rw [List.append_cons, List.append_cons rest d text]
  have found := scan_of_length_le (Nat.le_trans short (by omega))
  rw [found] at short ⊢
  apply scan_append_of_lt
  omega

end Extended

/-- A lexeme that ends in a text stays when something else follows the text. A comment ends there
because no newline follows. -/
theorem scan_splice (apart : StartsApart more') {d : Char} (next : more.head? = some d)
    (line : d ≠ '\n') {c : Char} (known : (scan mode c (rest ++ more)).1 ≠ .malformed)
    (short : (scan mode c (rest ++ more)).2 ≤ rest.length) :
    scan mode c (rest ++ more') = scan mode c rest := by
  by_cases comment : c = ';'
  · subst comment
    have same : (rest ++ more').takeWhile (· ≠ '\n') = rest.takeWhile (· ≠ '\n') :=
      takeWhile_splice next (decide_eq_true line) short
    simp only [scan, same]
  · rw [scan_of_length_le short] at known
    exact scan_append apart (fun same => absurd same comment) known

namespace Lexes

variable {kinds : List TokenKind} {text before : List Char}

theorem suffix (h : Lexes mode text kinds more) : more <:+ text := by
  induction h with
  | done => exact List.suffix_rfl
  | blank _ _ ih | token _ _ ih =>
    exact ih.trans ((List.drop_suffix _ _).trans (List.suffix_cons _ _))

/-- The first lexeme of a text does not reach into the end that more lexemes lead to. -/
theorem short_of_suffix {c : Char} (whole : c :: rest = before ++ more)
    (left : more <:+ behind mode c rest) :
    ∃ tail, before = c :: tail ∧ rest = tail ++ more ∧
      (scan mode c (tail ++ more)).2 ≤ tail.length := by
  have bound := left.length_le
  have inside := scan_length_le mode c rest
  have length := congrArg List.length whole
  rw [behind, List.length_drop] at bound
  rw [List.length_cons, List.length_append] at length
  cases before with
  | nil =>
    rw [List.length_nil] at length
    omega
  | cons d tail =>
    obtain ⟨rfl, same⟩ := List.cons.inj whole
    rw [List.length_cons] at length
    refine ⟨tail, rfl, same, ?_⟩
    rw [← List.append_eq, ← same]
    omega

/-- What is lexed before the end of a text stays with another end, if each lexeme does. -/
theorem replace (h : Lexes mode (before ++ more) kinds more)
    (kept : ∀ {mode c} {part : List Char}, (scan mode c (part ++ more)).1 ≠ .malformed →
      (scan mode c (part ++ more)).2 ≤ part.length →
      scan mode c (part ++ more') = scan mode c part) :
    Lexes mode (before ++ more') kinds more' := by
  generalize whole : before ++ more = text at h
  induction h generalizing before with
  | done =>
    rw [List.append_left_eq_self.1 whole]
    exact .done
  | blank blank tail ih =>
    obtain ⟨rest, rfl, rfl, short⟩ := short_of_suffix whole.symm tail.suffix
    have same := scan_of_length_le short
    have same' := kept (by rw [blank]; nofun) short
    refine .blank (by rw [List.append_eq, same', ← same]; exact blank) ?_
    rw [List.append_eq, behind_append same']
    exact ih kept (behind_append same).symm
  | token scanned tail ih =>
    obtain ⟨rest, rfl, rfl, short⟩ := short_of_suffix whole.symm tail.suffix
    have same := scan_of_length_le short
    have same' := kept (by rw [scanned]; nofun) short
    refine .token (by rw [List.append_eq, same', ← same]; exact scanned) ?_
    rw [List.append_eq, behind_append same']
    exact ih kept (behind_append same).symm

/-- What is lexed before the end of a text stays when the end is another one. -/
theorem splice (h : Lexes mode (before ++ more) kinds more) (apart : StartsApart more') {d : Char}
    (next : more.head? = some d) (line : d ≠ '\n') :
    Lexes mode (before ++ more') kinds more' :=
  h.replace (scan_splice apart next line)

/-- What is lexed before a place is lexed there too when the text is cut further on. -/
theorem cut {middle : List Char}
    (h : Lexes mode (before ++ (middle ++ more)) kinds (middle ++ more)) :
    Lexes mode (before ++ middle) kinds middle := by
  apply h.replace
  intro mode c part _ short
  have within : part.length ≤ (part ++ middle).length := by simp
  calc
    scan mode c (part ++ middle) = scan mode c (part ++ middle ++ more) := by
      symm
      apply scan_of_length_le
      rw [List.append_assoc]
      exact Nat.le_trans short within
    _ = scan mode c part := by
      rw [List.append_assoc]
      exact scan_of_length_le short

end Lexes

namespace Lexed

variable {offset : Nat} {text before tail : List Char} {token : Token} {front back : List Token}

theorem eq_nil_of_utf8Length {text : List Char} (h : utf8Length text = 0) : text = [] := by
  cases text with
  | nil => rfl
  | cons c text =>
    have size := c.utf8Size_pos
    rw [utf8Length_cons] at h
    omega

/-- The lexeme before a token is a part of the text before it. -/
theorem exists_of_le {c : Char} (whole : c :: rest = before ++ tail)
    (le : utf8Length (lexeme mode c rest) ≤ utf8Length before) :
    ∃ between, before = lexeme mode c rest ++ between ∧ behind mode c rest = between ++ tail := by
  rw [← lexeme_append_behind mode c rest] at whole
  rcases List.append_eq_append_iff.1 whole with ⟨between, rfl, left⟩ | ⟨between, all, left⟩
  · exact ⟨between, rfl, left⟩
  · rw [all, utf8Length_append] at le
    have none : utf8Length between = 0 := by omega
    obtain rfl := eq_nil_of_utf8Length none
    exact ⟨[], by simpa using all.symm, by simpa using left.symm⟩

/-- Where a token stands, the text is what is lexed before the token, the lexeme of the token, and
what is lexed behind it. -/
theorem split (h : Lexed mode offset (before ++ tail) (front ++ token :: back))
    (here : token.span.offset = offset + utf8Length before) :
    let mode' := (front.map Token.kind).foldl Mode.next mode
    Lexes mode (before ++ tail) (front.map Token.kind) tail ∧
      ∃ c rest, tail = c :: rest ∧ (scan mode' c rest).1 = .token token.kind ∧
        Lexes (mode'.next token.kind) (behind mode' c rest) (back.map Token.kind) [] := by
  generalize whole : before ++ tail = text, tokens : front ++ token :: back = all at h
  induction h generalizing front before with
  | nil => simp at tokens
  | @blank mode offset c rest _ blank inner ih =>
    subst tokens
    have after := (inner.inside token List.mem_append_cons_self).1
    have le : utf8Length (lexeme mode c rest) ≤ utf8Length before := by omega
    obtain ⟨between, rfl, left⟩ := exists_of_le whole.symm le
    rw [utf8Length_append, ← Nat.add_assoc] at here
    obtain ⟨first, second⟩ := ih here left.symm rfl
    exact ⟨.blank blank first, second⟩
  | @token mode offset c rest kind _ scanned inner ih =>
    cases front with
    | nil =>
      obtain ⟨rfl, rfl⟩ := List.cons.inj tokens
      obtain rfl : before = [] := eq_nil_of_utf8Length (by simpa using here)
      rw [List.nil_append] at whole
      subst whole
      exact ⟨.done, c, rest, rfl, scanned, inner.lexes⟩
    | cons head front =>
      obtain ⟨rfl, rfl⟩ := List.cons.inj tokens
      have after := (inner.inside token List.mem_append_cons_self).1
      have le : utf8Length (lexeme mode c rest) ≤ utf8Length before := by omega
      obtain ⟨between, rfl, left⟩ := exists_of_le whole.symm le
      rw [utf8Length_append, ← Nat.add_assoc] at here
      obtain ⟨first, second⟩ := ih here left.symm rfl
      exact ⟨.token scanned first, second⟩

end Lexed

end Asm65.Token
