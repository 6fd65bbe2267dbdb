import Asm65.Expr.Reader
import Asm65.Proofs.LetterCase
import Asm65.Proofs.MalformedLiterals

/-!
# The values of literals

A numeral denotes the number that its digits are the positional notation of
(`Text.denoted`). A number token has that number as its value when it is below 2^32,
and none otherwise, and a literal is reported as out of range only then
(`Token.numbers_of_lex`). The exception is a hexadecimal numeral of separators alone:
it passes for digits behind a radix mark, and has no value either.
-/

namespace Asm65

open Text (Radix)

namespace Text

/-- The sixteen digits, each at the place that is its number. -/
def digitsInOrder : List Char :=
  ['0', '1', '2', '3', '4', '5', '6', '7', '8', '9', 'a', 'b', 'c', 'd', 'e', 'f']

/-- The number that a digit stands for, in either letter case. -/
def digitOrdinal (c : Char) : Nat :=
  digitsInOrder.idxOf c.toLower

/-- The number that the digits of a numeral denote. -/
def denoted (radix : Radix) (numeral : String) : Nat :=
  Nat.ofDigits radix.base ((numeralDigits numeral).reverse.map digitOrdinal)

variable {radix : Radix} {numeral : String} {c : Char}

theorem mem_of_isDigit (h : Radix.hexadecimal.isDigit c) :
    c ∈ digitsInOrder ++ ['A', 'B', 'C', 'D', 'E', 'F'] := by
  have bounds : (48 ≤ c.toNat ∧ c.toNat ≤ 57) ∨ (97 ≤ c.toNat ∧ c.toNat ≤ 102) ∨
      (65 ≤ c.toNat ∧ c.toNat ≤ 70) := by
    simp only [Radix.isDigit, Char.isDigit, Bool.or_eq_true, Bool.and_eq_true, decide_eq_true_eq,
      ge_iff_le, Char.le_def, UInt32.le_iff_toNat_le, or_assoc] at h
    exact h
  rw [← Char.ofNat_toNat c]
  generalize c.toNat = n at bounds
  rcases bounds with ⟨low, high⟩ | ⟨low, high⟩ | ⟨low, high⟩ <;> interval_cases n <;> decide

theorem Radix.isDigit_hexadecimal (h : radix.isDigit c) : Radix.hexadecimal.isDigit c := by
  cases radix with
  | binary =>
    simp only [isDigit, Bool.or_eq_true, decide_eq_true_eq] at h
    rcases h with rfl | rfl <;> rfl
  | decimal =>
    have digit : c.isDigit = true := h
    simp [isDigit, digit]
  | hexadecimal => exact h

theorem digitValue_eq_digitOrdinal (h : radix.isDigit c) : digitValue c = digitOrdinal c := by
  have each : (digitsInOrder ++ ['A', 'B', 'C', 'D', 'E', 'F']).all fun d =>
      digitValue d = digitOrdinal d := by decide
  exact of_decide_eq_true
    (List.all_eq_true.1 each c (mem_of_isDigit (Radix.isDigit_hexadecimal h)))

theorem positionalValue_eq_ofDigits {digits : List Char} (h : ∀ c ∈ digits, radix.isDigit c) :
    positionalValue radix.base digits =
      Nat.ofDigits radix.base (digits.reverse.map digitOrdinal) := by
  induction digits using List.reverseRecOn with
  | nil => rfl
  | append_singleton digits c ih =>
    obtain ⟨before, last⟩ := List.forall_mem_append.1 h
    have digit := digitValue_eq_digitOrdinal (last c (List.mem_singleton_self c))
    calc
      positionalValue radix.base (digits ++ [c]) =
          positionalValue radix.base digits * radix.base + digitValue c := by
        simp only [positionalValue, List.foldl_append, List.foldl_cons, List.foldl_nil]
      _ = digitOrdinal c +
          radix.base * Nat.ofDigits radix.base (digits.reverse.map digitOrdinal) := by
        rw [ih before, digit, Nat.add_comm, Nat.mul_comm]
      _ = Nat.ofDigits radix.base ((digits ++ [c]).reverse.map digitOrdinal) := by
        rw [List.reverse_append, List.reverse_singleton, List.singleton_append, List.map_cons,
          Nat.ofDigits_cons]

/-- A numeral of digits and separators has a value when it has a digit. -/
theorem numeralValue?_eq (h : ∀ c ∈ numeralDigits numeral, radix.isDigit c) :
    numeralValue? radix numeral =
      if numeralDigits numeral = [] then none else some (denoted radix numeral) := by
  rw [numeralValue?_of_isDigit h, positionalValue_eq_ofDigits h, denoted]

end Text

namespace TokenKind

open Text (numeralDigits denoted)

variable {radix : Radix} {numeral : String}

theorem isDigit_of_isNumeralText (h : IsNumeralText radix numeral) :
    ∀ c ∈ numeralDigits numeral, radix.isDigit c := by
  obtain ⟨first, rest, spelled, -, inside⟩ := h
  intro c among
  obtain ⟨among, digit⟩ := List.mem_filter.1 among
  have either := inside c (spelled ▸ among)
  simp only [Radix.isNumeralChar, Bool.or_eq_true, decide_eq_true_eq] at either
  exact either.resolve_right (of_decide_eq_true digit)

/-- Only a hexadecimal numeral may be without a digit. -/
theorem eq_hexadecimal_of_isNumeralText (h : IsNumeralText radix numeral)
    (separators : numeralDigits numeral = []) : radix = .hexadecimal := by
  obtain ⟨first, rest, spelled, leads, -⟩ := h
  obtain rfl : first = '_' := by
    by_contra digit
    have kept : first ∈ numeralDigits numeral :=
      List.mem_filter.2 ⟨spelled ▸ List.mem_cons_self, decide_eq_true digit⟩
    rw [separators] at kept
    cases kept
  cases radix with
  | binary => exact leads.elim nofun nofun
  | decimal => cases leads
  | hexadecimal => rfl

theorem value?_number (h : IsNumeralText radix numeral) :
    (number radix numeral).value? =
      if numeralDigits numeral ≠ [] ∧ denoted radix numeral < 2 ^ 32 then
        some (denoted radix numeral)
      else none := by
  rw [value?, Text.numeralValue?_eq (isDigit_of_isNumeralText h)]
  by_cases separators : numeralDigits numeral = []
  · rw [if_pos separators, if_neg fun sound => sound.1 separators, Option.filter_none]
  · rw [if_neg separators, Option.filter_some]
    simp [separators]

end TokenKind

namespace Expr

variable {state : State}

/-- Only a number without a value is out of range. -/
theorem run_eq_literalRange {stop position : Nat} {tokens : List Token} {span : Span}
    {now : Cursor} (h : run stop state position tokens = .error ⟨.literalRange, span⟩ now) :
    ∃ radix numeral, ⟨.number radix numeral, span⟩ ∈ tokens ∧
      (TokenKind.number radix numeral).value? = none := by
  have finished {state : State} {cursor : Cursor} :
      run.finish state cursor ≠ .error ⟨.literalRange, span⟩ now := by
    intro failed
    obtain ⟨what, same⟩ := exists_expected_of_finish failed
    cases same
  induction tokens generalizing state position with
  | nil => exact absurd h finished
  | cons token rest ih =>
    unfold run at h
    cases moved : state.step token.kind with
    | shift next =>
      rw [moved] at h
      obtain ⟨radix, numeral, among, missing⟩ := ih h
      exact ⟨radix, numeral, List.mem_cons_of_mem token among, missing⟩
    | outOfRange =>
      obtain ⟨radix, numeral, number, missing⟩ := State.exists_number_of_outOfRange moved
      rw [moved] at h
      cases h
      rw [number] at missing
      exact ⟨radix, numeral, number ▸ List.mem_cons_self, missing⟩
    | stop =>
      rw [moved] at h
      exact absurd h finished

end Expr

namespace Token

open Text (numeralDigits denoted)

variable {mode : Mode} {c : Char} {mark rest : List Char}

/-- A radix mark in front of something that its numeral cannot start with. -/
def IsBareMark (mark rest : List Char) : Prop :=
  (mark ∈ [['$'], ['0', 'x'], ['0', 'X']] ∧
      ∀ c ∈ rest.head?, Radix.hexadecimal.isNumeralChar c = false) ∨
    (mark ∈ [['0', 'b'], ['0', 'B']] ∧ startsBinary rest = false)

theorem scanNumeral_of_bare {radix : Radix} {skip : Nat}
    (bare : ∀ c ∈ (rest.drop skip).head?, radix.isNumeralChar c = false) :
    (scanNumeral radix [] skip rest).1 = .malformed := by
  have none : (rest.drop skip).takeWhile radix.isNumeralChar = [] := by
    cases left : rest.drop skip with
    | nil => rfl
    | cons c more =>
      rw [left] at bare
      exact List.takeWhile_cons_of_neg (Bool.eq_false_iff.1 (bare c rfl))
  simp only [scanNumeral, none, List.append_nil, true_or, if_true]

theorem malformed_of_isBareMark (mode : Mode) (h : IsBareMark mark rest) :
    ∃ c tail, mark = c :: tail ∧ (scan mode c (tail ++ rest)).1 = .malformed := by
  rcases h with ⟨among, bare⟩ | ⟨among, bare⟩
  · fin_cases among
    · exact ⟨'$', [], rfl, scanNumeral_of_bare bare⟩
    · exact ⟨'0', ['x'], rfl, scanNumeral_of_bare bare⟩
    · exact ⟨'0', ['X'], rfl, scanNumeral_of_bare bare⟩
  · -- The `0` is a decimal numeral then, to which the rest of the mark is glued.
    have glued {letter : Char} (name : isNameChar letter)
        (digit : Radix.decimal.isNumeralChar letter = false) :
        (scanNumeral .decimal ['0'] 0 (letter :: rest)).1 = .malformed := by
      have none := List.takeWhile_cons_of_neg (l := rest) (Bool.eq_false_iff.1 digit)
      have tail := List.takeWhile_cons_of_pos (l := rest) name
      simp [scanNumeral, none, tail]
    fin_cases among
    · refine ⟨'0', ['b'], rfl, ?_⟩
      change (scanDigit '0' ('b' :: rest)).1 = .malformed
      simp only [scanDigit_eq, List.tail_cons, bare]
      exact glued (by decide) (by decide)
    · refine ⟨'0', ['B'], rfl, ?_⟩
      change (scanDigit '0' ('B' :: rest)).1 = .malformed
      simp only [scanDigit_eq, List.tail_cons, bare]
      exact glued (by decide) (by decide)

/-- Lexing fails where it comes to a radix mark without a digit. -/
theorem lex_eq_error_of_isBareMark {source : String} {before : List Char} {kinds : List TokenKind}
    (whole : source.toList = before ++ (mark ++ rest))
    (reached : Lexes .statementStart source.toList kinds (mark ++ rest))
    (bare : IsBareMark mark rest) :
    ∃ length, lex source = .error ⟨.malformedNumber, ⟨utf8Length before, length⟩⟩ := by
  obtain ⟨c, tail, rfl, malformed⟩ :=
    malformed_of_isBareMark (kinds.foldl Mode.next .statementStart) bare
  rw [whole] at reached
  have failed := reached.lexFrom_eq_error (lexFrom_of_malformed malformed (0 + utf8Length before))
  rw [← whole, Nat.zero_add] at failed
  exact ⟨_, lex_eq_error_iff.2 failed⟩

/-- What the numbers of a source denote. A radix mark without a digit stops the lexer. Each number
token has the value that its digits denote if that is below 2^32, and none otherwise. A literal is
reported as out of range only if it is 2^32 or more, unless its digits are separators alone. -/
theorem numbers_of_lex (source : String) :
    (∀ before mark rest kinds, source.toList = before ++ (mark ++ rest) →
      Lexes .statementStart source.toList kinds (mark ++ rest) → IsBareMark mark rest →
        ∃ length, lex source = .error ⟨.malformedNumber, ⟨utf8Length before, length⟩⟩) ∧
    ∀ tokens, lex source = .ok tokens →
      (∀ radix numeral span, ⟨.number radix numeral, span⟩ ∈ tokens →
        numeral ≠ "" ∧ (∀ c ∈ numeralDigits numeral, radix.isDigit c) ∧
        (numeralDigits numeral = [] → radix = .hexadecimal) ∧
        (TokenKind.number radix numeral).value? =
          if numeralDigits numeral ≠ [] ∧ denoted radix numeral < 2 ^ 32 then
            some (denoted radix numeral)
          else none) ∧
      ∀ start span now, Expr.read (.atIndex tokens start) = .error ⟨.literalRange, span⟩ now →
        ∃ radix numeral, ⟨.number radix numeral, span⟩ ∈ tokens ∧
          (numeralDigits numeral = [] ∨ 2 ^ 32 ≤ denoted radix numeral) := by
  refine ⟨fun _ _ _ _ => lex_eq_error_of_isBareMark, fun tokens lexed => ?_⟩
  have spelled {radix : Radix} {numeral : String} {span : Span}
      (among : ⟨.number radix numeral, span⟩ ∈ tokens) :
      TokenKind.IsNumeralText radix numeral := by
    have known : (TokenKind.number radix numeral).IsLexed := isLexed_of_lex lexed _ among
    exact known
  constructor
  · intro radix numeral span among
    have numeric := spelled among
    refine ⟨?_, TokenKind.isDigit_of_isNumeralText numeric,
      TokenKind.eq_hexadecimal_of_isNumeralText numeric, TokenKind.value?_number numeric⟩
    rintro rfl
    obtain ⟨c, rest, empty, -⟩ := numeric
    cases empty
  · intro start span now failed
    obtain ⟨radix, numeral, among, missing⟩ := Expr.run_eq_literalRange failed
    have among := List.mem_of_mem_drop among
    refine ⟨radix, numeral, among, ?_⟩
    by_contra sound
    rw [not_or, Nat.not_le] at sound
    rw [TokenKind.value?_number (spelled among), if_pos sound] at missing
    cases missing

/-- A mark in front of a comma, a value with a separator in it, and one that is too large. -/
theorem numbers_of_lex_overflow :
    (∃ length, lex "x: 0B,1" = .error ⟨.malformedNumber, ⟨3, length⟩⟩) ∧
      ∃ tokens, lex "lda $fF_ff+4294967296" = .ok tokens ∧
        (TokenKind.number .hexadecimal "fF_ff").value? = some 65535 ∧
        ∃ now, Expr.read (.atIndex tokens 1) = .error ⟨.literalRange, ⟨11, 10⟩⟩ now ∧
          ∃ radix numeral, ⟨.number radix numeral, ⟨11, 10⟩⟩ ∈ tokens ∧
            (numeralDigits numeral = [] ∨ 2 ^ 32 ≤ denoted radix numeral) := by
  constructor
  · have reached : Lexes .statementStart ['x', ':', ' ', '0', 'B', ',', '1']
        [.name "x", .punct .colon] ['0', 'B', ',', '1'] :=
      .token rfl (.token rfl (.blank rfl .done))
    have bare : IsBareMark ['0', 'B'] [',', '1'] := .inr ⟨by simp, rfl⟩
    exact (numbers_of_lex "x: 0B,1").1 ['x', ':', ' '] ['0', 'B'] [',', '1'] _ rfl reached bare
  · let tokens : List Token := [⟨.name "lda", ⟨0, 3⟩⟩, ⟨.number .hexadecimal "fF_ff", ⟨4, 6⟩⟩,
      ⟨.punct .plus, ⟨10, 1⟩⟩, ⟨.number .decimal "4294967296", ⟨11, 10⟩⟩,
      ⟨.endOfStatement, ⟨21, 0⟩⟩]
    have lexed : lex "lda $fF_ff+4294967296" = .ok tokens := by cbv
    have failed : Expr.read (.atIndex tokens 1) =
        .error ⟨.literalRange, ⟨11, 10⟩⟩ (.atIndex tokens 4) := by cbv
    obtain ⟨values, ranges⟩ := (numbers_of_lex "lda $fF_ff+4294967296").2 tokens lexed
    obtain ⟨-, -, -, value⟩ := values .hexadecimal "fF_ff" ⟨4, 6⟩ (by simp [tokens])
    refine ⟨tokens, lexed, ?_, _, failed, ranges 1 _ _ failed⟩
    rw [value]
    decide

/-- In `$_` a separator passes for a digit, and the numeral is reported as out of range. -/
theorem exists_number_of_separators :
    ∃ tokens span now, lex "lda $_" = .ok tokens ∧
      ⟨.number .hexadecimal "_", span⟩ ∈ tokens ∧ numeralDigits "_" = [] ∧
      Expr.read (.atIndex tokens 1) = .error ⟨.literalRange, span⟩ now := by
  let tokens : List Token := [⟨.name "lda", ⟨0, 3⟩⟩, ⟨.number .hexadecimal "_", ⟨4, 2⟩⟩,
    ⟨.endOfStatement, ⟨6, 0⟩⟩]
  refine ⟨tokens, ⟨4, 2⟩, .atIndex tokens 2, ?_, by simp [tokens], by decide, ?_⟩
  · cbv
  · cbv

end Token

end Asm65
