import Asm65.Proofs.Lexer
import Mathlib

/-!
# Spelling

Which tokens a text can hold (`TokenKind.IsLexed`), and that each of them is
read back from the text it is shown as (`scan_text`).

## Implementation notes

A binary numeral is shown with `%`, which is an operator after an operand, so
it is read back only where an operand may stand.
-/

namespace Asm65

open Text (Radix)

/-- Only a lower case letter is the lower case of another character. -/
theorem Text.eq_of_toLower_eq {c d : Char} (h : c.toLower = d) (other : d.isLower = false) :
    c = d := by
  unfold Char.toLower at h
  split at h
  · next upper =>
    have low := UInt32.le_iff_toNat_le.1 upper.1
    have high := UInt32.le_iff_toNat_le.1 upper.2
    have sum := UInt32.toNat_add c.val ('a'.val - 'A'.val)
    have atA : ('A'.val).toNat = 65 := rfl
    have atZ : ('Z'.val).toNat = 90 := rfl
    have fromA : ('a'.val).toNat = 97 := rfl
    have toZ : ('z'.val).toNat = 122 := rfl
    have gap : ('a'.val - 'A'.val).toNat = 32 := rfl
    have lower : d.isLower = true := by
      rw [← h]
      simp only [Char.isLower, ge_iff_le, Bool.and_eq_true, decide_eq_true_eq,
        UInt32.le_iff_toNat_le]
      omega
    rw [lower] at other
    cases other
  · exact h

theorem Text.isLower_toLower_or_eq (c : Char) : c.toLower.isLower ∨ c = c.toLower := by
  by_cases lower : c.toLower.isLower
  · exact .inl lower
  · exact .inr (eq_of_toLower_eq rfl (Bool.eq_false_iff.2 lower))

/-- What a text is looked up as stands beside it in the table. -/
theorem Text.mem_of_lookup {α : Type} {entries : List (String × α)} {key : String} {value : α}
    (found : entries.lookup key = some value) : (key, value) ∈ entries := by
  obtain ⟨before, behind, whole, -⟩ := List.lookup_eq_some_iff.1 found
  rw [whole]
  exact List.mem_append_right before List.mem_cons_self

/-- The digits that a numeral of a radix may start with. A hexadecimal one follows a mark, so
that its first character may be a separator too. -/
def Text.Radix.Leads : Radix → Char → Prop
  | .binary, c => c = '0' ∨ c = '1'
  | .decimal, c => c.isDigit
  | .hexadecimal, _ => True

namespace TokenKind

/-- Whether a text is spelled like a name. -/
def IsNameText (text : String) : Prop :=
  ∃ c rest, text.toList = c :: rest ∧ Token.isNameStart c ∧ ∀ d ∈ rest, Token.isNameChar d

/-- Whether a text is spelled like a numeral without its radix mark. -/
def IsNumeralText (radix : Radix) (text : String) : Prop :=
  ∃ c rest, text.toList = c :: rest ∧ radix.Leads c ∧ ∀ d ∈ c :: rest, radix.isNumeralChar d

/-- The tokens that a text can hold. -/
def IsLexed : TokenKind → Prop
  | endOfStatement | punct _ => True
  | name text => IsNameText text
  | number radix numeral => IsNumeralText radix numeral
  | char c => c ≠ '\'' ∧ c ≠ '\n'
  | unknown c => ∀ mode rest, Token.scan mode c rest = (.token (unknown c), 0)

end TokenKind

namespace Token

theorem scanNumeral_eq_token {radix : Radix} {read rest : List Char} {skip : Nat}
    {kind : TokenKind} (h : (scanNumeral radix read skip rest).1 = .token kind) :
    kind = .number radix (String.ofList (read ++ (rest.drop skip).takeWhile radix.isNumeralChar)) ∧
      read ++ (rest.drop skip).takeWhile radix.isNumeralChar ≠ [] := by
  simp only [scanNumeral] at h
  split at h
  · cases h
  · next sound =>
    cases h
    exact ⟨rfl, fun empty => sound (.inl empty)⟩

/-- A numeral is spelled like one when its first character is right. -/
theorem isLexed_of_scanNumeral {radix : Radix} {read rest : List Char} {skip : Nat}
    {kind : TokenKind} (h : (scanNumeral radix read skip rest).1 = .token kind)
    (inside : ∀ d ∈ read, radix.isNumeralChar d)
    (leads : ∀ c ∈ (read ++ (rest.drop skip).takeWhile radix.isNumeralChar).head?,
      radix.Leads c) : kind.IsLexed := by
  obtain ⟨rfl, some_digit⟩ := scanNumeral_eq_token h
  have digits : ∀ d ∈ read ++ (rest.drop skip).takeWhile radix.isNumeralChar,
      radix.isNumeralChar d := by
    intro d among
    rcases List.mem_append.1 among with among | among
    · exact inside d among
    · exact List.all_eq_true.1 List.all_takeWhile d among
  generalize read ++ (rest.drop skip).takeWhile radix.isNumeralChar = text at *
  cases text with
  | nil => exact absurd rfl some_digit
  | cons c more => exact ⟨c, more, String.toList_ofList, leads c rfl, digits⟩

theorem leads_of_startsBinary {rest : List Char} (h : startsBinary rest) :
    ∀ c ∈ (rest.takeWhile Radix.binary.isNumeralChar).head?, Radix.binary.Leads c := by
  intro c found
  cases rest with
  | nil => cases found
  | cons d rest =>
    simp only [startsBinary, List.head?_cons, Option.some.injEq, Bool.or_eq_true,
      decide_eq_true_eq] at h
    rcases h with rfl | rfl
    · exact .inl (Option.some.inj found).symm
    · exact .inr (Option.some.inj found).symm

theorem isLexed_of_scanDigit {c : Char} {rest : List Char} {kind : TokenKind} (digit : c.isDigit)
    (h : (scanDigit c rest).1 = .token kind) : kind.IsLexed := by
  rw [scanDigit_eq] at h
  split at h
  · exact isLexed_of_scanNumeral h (by simp) fun _ _ => trivial
  · split at h
    · next mark =>
      refine isLexed_of_scanNumeral h (by simp) ?_
      rw [List.drop_one]
      exact leads_of_startsBinary mark.2.2
    · apply isLexed_of_scanNumeral h
      · intro d among
        rw [List.mem_singleton] at among
        simp [Radix.isNumeralChar, Radix.isDigit, among, digit]
      · intro d found
        cases found
        exact digit

/-- What is lexed is spelled like a token. -/
theorem isLexed_of_scan {mode : Mode} {c : Char} {rest : List Char} {kind : TokenKind}
    (h : (scan mode c rest).1 = .token kind) : kind.IsLexed := by
  unfold scan at h
  split at h
  case h_4 =>
    cases h
    trivial
  case h_6 => exact isLexed_of_scanNumeral h (by simp) fun _ _ => trivial
  case h_7 =>
    split at h
    · next binary =>
      exact isLexed_of_scanNumeral h (by simp) (leads_of_startsBinary binary.2)
    · cases h
      trivial
  case h_8 =>
    unfold scanQuoted at h
    split at h
    · cases h
    · split at h
      · next quoted =>
        cases h
        exact quoted.2
      · cases h
  case h_9 | h_10 =>
    unfold scanDoubled at h
    split at h <;>
    · cases h
      trivial
  case h_11 =>
    split at h
    · next digit => exact isLexed_of_scanDigit digit h
    · next digit =>
      split at h
      · next start =>
        cases h
        exact ⟨c, _, String.toList_ofList, start,
          fun d among => List.all_eq_true.1 List.all_takeWhile d among⟩
      · next start =>
        split at h
        · cases h
          trivial
        · next nothing =>
          cases h
          intro mode' rest'
          unfold scan
          split
          case h_11 => simp only [if_neg digit, if_neg start, nothing]
          all_goals contradiction
  all_goals cases h

theorem Lexed.isLexed {mode : Mode} {offset : Nat} {text : List Char} {tokens : List Token}
    (h : Lexed mode offset text tokens) : ∀ token ∈ tokens, token.kind.IsLexed := by
  induction h with
  | nil => simp
  | blank _ _ ih => exact ih
  | token h _ ih =>
    intro token among
    rcases List.mem_cons.1 among with rfl | among
    · exact isLexed_of_scan h
    · exact ih token among

theorem isLexed_of_lex {source : String} {tokens : List Token} (h : lex source = .ok tokens) :
    ∀ token ∈ tokens, token.kind.IsLexed := by
  obtain ⟨read, lexed, rfl⟩ := lex_eq_ok h
  unfold closeStatement
  split
  · exact lexed.isLexed
  · intro token among
    rcases List.mem_append.1 among with among | among
    · exact lexed.isLexed token among
    · rw [List.mem_singleton] at among
      rw [among]
      trivial

theorem isDigit_eq_false_of_isNameStart {c : Char} (h : isNameStart c) : c.isDigit = false := by
  simp only [isNameStart, Bool.or_eq_true, decide_eq_true_eq] at h
  rcases h with (alpha | rfl) | rfl
  · have between : '9'.val.toNat < 'A'.val.toNat ∧ 'A'.val.toNat < 'a'.val.toNat := by decide
    simp only [Char.isAlpha, Char.isUpper, Char.isLower, ge_iff_le, Bool.or_eq_true,
      Bool.and_eq_true, decide_eq_true_eq, UInt32.le_iff_toNat_le] at alpha
    simp only [Char.isDigit, Bool.and_eq_false_iff, decide_eq_false_iff_not, ge_iff_le,
      UInt32.le_iff_toNat_le]
    omega
  · rfl
  · rfl

theorem scan_of_isNameStart {c : Char} (h : isNameStart c) (mode : Mode) (rest : List Char) :
    scan mode c rest = (.token (.name (String.ofList (c :: rest.takeWhile isNameChar))),
      (rest.takeWhile isNameChar).length) := by
  have digit := isDigit_eq_false_of_isNameStart h
  unfold scan
  split
  case h_11 => simp only [digit, h, Bool.false_eq_true, if_false, if_true]
  all_goals exact absurd h (by decide)

theorem scan_of_isDigit {c : Char} (h : c.isDigit) (mode : Mode) (rest : List Char) :
    scan mode c rest = scanDigit c rest := by
  unfold scan
  split
  case h_11 => exact if_pos h
  all_goals exact absurd h (by decide)

/-- Characters of a numeral, with a boundary behind them, are a numeral. -/
theorem scanNumeral_self {radix : Radix} {read digits more : List Char} (apart : StartsApart more)
    (some_digit : read ++ digits ≠ []) (numeral : ∀ d ∈ digits, radix.isNumeralChar d) :
    scanNumeral radix read 0 (digits ++ more) =
      (.token (.number radix (String.ofList (read ++ digits))), digits.length) := by
  have whole : digits.takeWhile radix.isNumeralChar = digits :=
    List.takeWhile_eq_self_iff.2 numeral
  rw [scanNumeral_append apart (Nat.zero_le _)]
  simp [scanNumeral, whole, some_digit]

theorem scan_decimal {c : Char} {digits more : List Char} (apart : StartsApart more)
    (digit : c.isDigit) (numeral : ∀ d ∈ digits, Radix.decimal.isNumeralChar d) (mode : Mode) :
    scan mode c (digits ++ more) =
      (.token (.number .decimal (String.ofList (c :: digits))), digits.length) := by
  have unmarked (mark : Char) (h : Radix.decimal.isNumeralChar mark = false)
      (h' : ¬IsBoundary mark) : (digits ++ more).head? ≠ some mark := by
    rw [Ne, head?_append_eq_some_iff apart h']
    intro found
    rw [numeral mark (List.mem_of_mem_head? found)] at h
    cases h
  rw [scan_of_isDigit digit, scanDigit_eq]
  simp only [unmarked 'x' (by decide) (by decide), unmarked 'X' (by decide) (by decide),
    unmarked 'b' (by decide) (by decide), unmarked 'B' (by decide) (by decide), or_self, and_false,
    false_and, if_false]
  exact scanNumeral_self apart (List.cons_ne_nil c digits) numeral

/-- Operators that are lexed without a look at what follows. -/
def StandsAlone (p : Punct) : Prop :=
  p ≠ .less ∧ p ≠ .greater ∧ p ≠ .percent

theorem scan_punct_of_standsAlone {p : Punct} (alone : StandsAlone p) (mode : Mode)
    (more : List Char) : ∃ c rest, p.text.toList = c :: rest ∧
      scan mode c (rest ++ more) = (.token (.punct p), rest.length) := by
  cases p with
  | less | greater | percent => simp [StandsAlone] at alone
  | _ => exact ⟨_, _, rfl, rfl⟩

/-- The text of an operator is lexed as that operator where a boundary follows, in any mode. -/
theorem scan_punct (p : Punct) (mode : Mode) {more : List Char} (apart : StartsApart more) :
    ∃ c rest, p.text.toList = c :: rest ∧
      scan mode c (rest ++ more) = (.token (.punct p), rest.length) := by
  have unmarked (mark : Char) (h : ¬IsBoundary mark) : more.head? ≠ some mark :=
    fun found => h (apart mark found)
  by_cases alone : StandsAlone p
  · exact scan_punct_of_standsAlone alone mode more
  · cases p with
    | percent =>
      refine ⟨'%', [], rfl, if_neg fun binary => ?_⟩
      simp [startsBinary, unmarked '0' (by decide), unmarked '1' (by decide)] at binary
    | less => exact ⟨'<', [], rfl, if_neg (unmarked _ (by decide))⟩
    | greater => exact ⟨'>', [], rfl, if_neg (unmarked _ (by decide))⟩
    | _ => simp [StandsAlone] at alone

/-- The text of a token is lexed as that token where a boundary follows. -/
theorem scan_text {kind : TokenKind} (h : kind.IsLexed) (inside : kind ≠ .endOfStatement)
    {mode : Mode} (operand : ∀ numeral, kind = .number .binary numeral → mode ≠ .operandEnded)
    {more : List Char} (apart : StartsApart more) :
    ∃ c rest, kind.text.toList = c :: rest ∧
      scan mode c (rest ++ more) = (.token kind, rest.length) := by
  cases kind with
  | endOfStatement => exact absurd rfl inside
  | name text =>
    obtain ⟨c, rest, spelled, start, name⟩ := h
    refine ⟨c, rest, spelled, ?_⟩
    have whole : (rest ++ more).takeWhile isNameChar = rest := by
      rw [takeWhile_append_apart fun c among => (apart c among).1]
      exact List.takeWhile_eq_self_iff.2 name
    rw [scan_of_isNameStart start, whole, ← spelled, String.ofList_toList]
  | number radix numeral =>
    obtain ⟨c, rest, spelled, leads, digits⟩ := h
    have same : String.ofList (c :: rest) = numeral := by rw [← spelled, String.ofList_toList]
    cases radix with
    | binary =>
      refine ⟨'%', c :: rest, by rw [TokenKind.text, String.toList_append, spelled]; rfl, ?_⟩
      have binary : startsBinary (c :: rest ++ more) := by
        rcases leads with rfl | rfl <;> rfl
      have some_digit : [] ++ c :: rest ≠ [] := List.cons_ne_nil c rest
      have read := scanNumeral_self apart some_digit digits
      rw [List.nil_append, same] at read
      rw [← read]
      exact if_pos ⟨operand _ rfl, binary⟩
    | decimal =>
      refine ⟨c, rest, spelled, ?_⟩
      rw [scan_decimal apart leads (fun d among => digits d (List.mem_cons_of_mem c among)), same]
    | hexadecimal =>
      refine ⟨'$', c :: rest, by rw [TokenKind.text, String.toList_append, spelled]; rfl, ?_⟩
      have some_digit : [] ++ c :: rest ≠ [] := List.cons_ne_nil c rest
      have read := scanNumeral_self apart some_digit digits
      rw [List.nil_append, same] at read
      exact read
  | char c => exact ⟨'\'', [c, '\''], String.toList_ofList, if_pos ⟨rfl, h⟩⟩
  | punct p => exact scan_punct p mode apart
  | unknown c => exact ⟨c, [], String.toList_ofList, h mode _⟩

end Token

namespace TokenKind

/-- Lower case leaves everything but letters as it is, so a name stays a name. -/
theorem IsNameText.toLower {text : String} (h : IsNameText text) :
    IsNameText text.toLower := by
  obtain ⟨c, rest, spelled, start, name⟩ := h
  refine ⟨c.toLower, rest.map Char.toLower, ?_, ?_, ?_⟩
  · rw [Text.toList_toLower, spelled, List.map_cons]
  · rcases Text.isLower_toLower_or_eq c with lower | same
    · simp [Token.isNameStart, Char.isAlpha, lower]
    · rw [← same]
      exact start
  · intro d among
    obtain ⟨e, among', rfl⟩ := List.mem_map.1 among
    rcases Text.isLower_toLower_or_eq e with lower | same
    · simp [Token.isNameChar, Char.isAlphanum, Char.isAlpha, lower]
    · rw [← same]
      exact name e among'

/-- Tokens that a text can hold are told apart by the text they are shown as. -/
theorem eq_of_text_eq {kind kind' : TokenKind} (lexed : kind.IsLexed) (lexed' : kind'.IsLexed)
    (inside : kind ≠ .endOfStatement) (inside' : kind' ≠ .endOfStatement)
    (h : kind.text = kind'.text) : kind = kind' := by
  have apart : Token.StartsApart [] := nofun
  have expected (kind : TokenKind) (numeral : String) (_ : kind = .number .binary numeral) :
      Token.Mode.operandExpected ≠ .operandEnded := nofun
  obtain ⟨c, rest, spelled, scanned⟩ := Token.scan_text lexed inside (expected kind) apart
  obtain ⟨c', rest', spelled', scanned'⟩ := Token.scan_text lexed' inside' (expected kind') apart
  rw [h, spelled'] at spelled
  cases spelled
  rw [scanned] at scanned'
  exact Token.Lexeme.token.inj (Prod.mk.inj scanned').1

theorem text_eq_punct_iff {kind : TokenKind} {p : Punct} (lexed : kind.IsLexed)
    (inside : kind ≠ .endOfStatement) : kind.text = p.text ↔ kind = .punct p := by
  have punct : (TokenKind.punct p).IsLexed := trivial
  constructor
  · intro same
    exact eq_of_text_eq lexed punct inside nofun same
  · rintro rfl
    rfl

/-- An operator is told apart even when letter case is ignored, since it holds no letter. -/
theorem eq_punct_of_sameIgnoringCase {kind : TokenKind} {p : Punct} (lexed : kind.IsLexed)
    (inside : kind ≠ .endOfStatement) (h : Text.SameIgnoringCase kind.text p.text) :
    kind = .punct p := by
  have plain : p.text.toList.all (!·.isLower) := by cases p <;> decide
  have lower : p.text.toLower = p.text := by cases p <;> cbv
  have same : kind.text.toList.map Char.toLower = p.text.toList := by
    have h : kind.text.toLower = p.text.toLower := h
    rw [lower] at h
    rw [← h, Text.toList_toLower]
  have unchanged : kind.text.toList.map Char.toLower = kind.text.toList.map id := by
    refine List.map_congr_left fun c among => ?_
    have other := List.all_eq_true.1 plain _ (same ▸ List.mem_map_of_mem among)
    rw [Bool.not_eq_true'] at other
    exact (Text.eq_of_toLower_eq rfl other).symm
  have text : kind.text = p.text := by
    rw [← String.toList_inj, ← same, unchanged, List.map_id]
  exact (text_eq_punct_iff lexed inside).1 text

end TokenKind

end Asm65
