import Asm65.Proofs.Splicing
import Asm65.Proofs.Tiling

/-!
# Binary literals in another spelling

A binary literal with a mark of two characters is lexed like one with `%`, except
behind the end of an operand. There `%` is the remainder operator, and the digits
are a decimal literal (`Token.lex_percent`). Everything before and behind the
literal is lexed as before.
-/

namespace Asm65.Token

open Text (Radix)

variable {mode : Mode} {offset : Nat} {digits after : List Char} {front back kinds : List TokenKind}
  {kind : TokenKind}

/-- The tokens of `%` with binary digits behind it. -/
def percentKinds (mode : Mode) (numeral : String) : List TokenKind :=
  if mode = .operandEnded then [.punct .percent, .number .decimal numeral]
  else [.number .binary numeral]

/-- Binary digits that nothing goes on behind. -/
structure AreBinary (digits after : List Char) : Prop where
  starts : startsBinary digits
  all : ∀ c ∈ digits, Radix.binary.isNumeralChar c
  apart : ∀ c ∈ after.head?, isNameChar c = false

theorem isNumeralChar_of_binary {radix : Radix} {c : Char} (h : Radix.binary.isNumeralChar c) :
    radix.isNumeralChar c := by
  simp only [Radix.isNumeralChar, Radix.isDigit, Bool.or_eq_true, decide_eq_true_eq] at h
  rcases h with (rfl | rfl) | rfl <;> cases radix <;> rfl

/-- The whole numeral is taken in every radix. -/
theorem AreBinary.takeWhile (h : AreBinary digits after) (radix : Radix) {rest : List Char}
    (part : rest <:+ digits) : (rest ++ after).takeWhile radix.isNumeralChar = rest := by
  have behind (c : Char) (next : c ∈ after.head?) : radix.isNumeralChar c = false :=
    Bool.eq_false_iff.2 fun digit => by
      simpa [h.apart c next] using isNameChar_of_isNumeralChar digit
  rw [takeWhile_append_apart behind, List.takeWhile_eq_self_iff]
  exact fun c among => isNumeralChar_of_binary (h.all c (part.mem among))

theorem AreBinary.takeWhile_name (h : AreBinary digits after) :
    after.takeWhile isNameChar = [] := by
  cases after with
  | nil => rfl
  | cons c after => exact List.takeWhile_cons_of_neg (by simp [h.apart c rfl])

theorem AreBinary.scanNumeral (h : AreBinary digits after) (radix : Radix) (read : List Char)
    {rest : List Char} (part : rest <:+ digits) (some_read : read ++ rest ≠ []) :
    scanNumeral radix read 0 (rest ++ after) =
      (.token (.number radix (String.ofList (read ++ rest))), rest.length) := by
  simp only [Token.scanNumeral, List.drop_zero, h.takeWhile radix part, Nat.zero_add,
    List.drop_left, h.takeWhile_name]
  simp [some_read]

/-- No radix mark follows the first of the digits. -/
theorem AreBinary.head?_ne (h : AreBinary digits after) {rest : List Char} (part : rest <:+ digits)
    {mark : Char} (name : isNameChar mark) (other : Radix.binary.isNumeralChar mark = false) :
    (rest ++ after).head? ≠ some mark := by
  intro found
  cases rest with
  | nil =>
    rw [h.apart mark found] at name
    cases name
  | cons c rest =>
    obtain rfl := Option.some.inj found
    rw [h.all c (part.mem List.mem_cons_self)] at other
    cases other

/-- Where an operand may stand, the digits behind `%` are a binary literal. -/
theorem AreBinary.scan_expected (h : AreBinary digits after) (expected : mode ≠ .operandEnded) :
    scan mode '%' (digits ++ after) =
      (.token (.number .binary (String.ofList digits)), digits.length) := by
  have some_digit : digits ≠ [] := by
    rintro rfl
    cases h.starts
  have starts : startsBinary (digits ++ after) := startsBinary_append_right h.starts
  rw [scan, if_pos ⟨expected, starts⟩]
  exact h.scanNumeral .binary [] List.suffix_rfl some_digit

/-- Behind `%` as an operator, they are a decimal one. -/
theorem AreBinary.scan_digits (h : AreBinary digits after) (mode : Mode) :
    ∃ c rest, digits = c :: rest ∧ scan mode c (rest ++ after) =
      (.token (.number .decimal (String.ofList digits)), rest.length) := by
  cases digits with
  | nil => cases h.starts
  | cons c rest =>
    have part : rest <:+ c :: rest := List.suffix_cons c rest
    have digit : c.isDigit := by
      have starts := h.starts
      simp only [startsBinary, List.head?_cons, Option.some.injEq, Bool.or_eq_true,
        decide_eq_true_eq] at starts
      rcases starts with rfl | rfl <;> rfl
    have unmarked (mark : Char) (name : isNameChar mark)
        (other : Radix.binary.isNumeralChar mark = false) : (rest ++ after).head? ≠ some mark :=
      h.head?_ne part name other
    refine ⟨c, rest, rfl, ?_⟩
    rw [scan_of_isDigit digit, scanDigit_eq]
    simp only [unmarked 'x' rfl rfl, unmarked 'X' rfl rfl, unmarked 'b' rfl rfl,
      unmarked 'B' rfl rfl, or_self, and_false, false_and, if_false]
    exact h.scanNumeral .decimal [c] part (List.cons_ne_nil c rest)

/-- With `%` before them, the digits are lexed up to what follows. -/
theorem AreBinary.lexes_percent (h : AreBinary digits after) (mode : Mode) :
    Lexes mode ('%' :: digits ++ after) (percentKinds mode (String.ofList digits)) after := by
  by_cases ended : mode = .operandEnded
  · subst ended
    obtain ⟨c, rest, rfl, scanned⟩ := h.scan_digits .operandExpected
    have remainder :
        (scan .operandEnded '%' (c :: rest ++ after)).1 = .token (.punct .percent) := by
      simp [scan]
    exact .token remainder (Lexes.of_scan scanned)
  · rw [percentKinds, if_neg ended]
    exact Lexes.of_scan (h.scan_expected ended)

theorem areBinary_of_scanNumeral {mark : Char} (starts : startsBinary (digits ++ after))
    (h : (Token.scanNumeral .binary [] 1 (mark :: (digits ++ after))).1 =
      .token (.number .binary (String.ofList digits))) :
    AreBinary digits after ∧
      (Token.scanNumeral .binary [] 1 (mark :: (digits ++ after))).2 = digits.length + 1 := by
  have run : (digits ++ after).takeWhile Radix.binary.isNumeralChar = digits := by
    obtain ⟨same, -⟩ := scanNumeral_eq_token h
    exact (String.ofList_injective (TokenKind.number.inj same).2).symm
  have left : (mark :: (digits ++ after)).drop (1 + digits.length) = after := by
    rw [Nat.add_comm, List.drop_succ_cons, List.drop_left]
  simp only [Token.scanNumeral, List.drop_succ_cons, List.drop_zero, run, left] at h ⊢
  split at h
  · cases h
  next sound =>
  have none : after.takeWhile isNameChar = [] := not_not.1 fun glued => sound (.inr glued)
  refine ⟨⟨?_, ?_, ?_⟩, by rw [none, List.length_nil, Nat.add_zero, Nat.add_comm]⟩
  · cases digits with
    | nil => exact absurd (.inl rfl) sound
    | cons => exact starts
  · intro c among
    rw [← run] at among
    exact List.mem_takeWhile_imp among
  · intro c next
    obtain ⟨text, rfl⟩ := List.head?_eq_some_iff.1 next
    refine Bool.eq_false_iff.2 fun name => ?_
    rw [List.takeWhile_cons_of_pos name] at none
    cases none

/-- A literal with a mark of two characters holds binary digits up to what follows. -/
theorem areBinary_of_scan {mark : Char} (binary : mark = 'b' ∨ mark = 'B')
    (h : (scan mode '0' (mark :: (digits ++ after))).1 =
      .token (.number .binary (String.ofList digits))) :
    AreBinary digits after ∧ behind mode '0' (mark :: (digits ++ after)) = after := by
  have unmarked (c : Char) (other : c ≠ 'b' ∧ c ≠ 'B') : ¬mark = c := by
    rintro rfl
    exact binary.elim other.1 other.2
  rw [behind, scan_of_isDigit rfl, scanDigit_eq] at *
  simp only [List.head?_cons, Option.some.injEq, unmarked 'x' (by decide),
    unmarked 'X' (by decide), or_self, and_false, if_false, binary, List.tail_cons, true_and] at h ⊢
  split at h
  · next starts =>
    obtain ⟨digits, length⟩ := areBinary_of_scanNumeral starts h
    rw [if_pos starts, length, List.drop_succ_cons, List.drop_left]
    exact ⟨digits, rfl⟩
  · cases (scanNumeral_eq_token h).1

theorem foldl_percentKinds (mode : Mode) (numeral : String) :
    (percentKinds mode numeral).foldl Mode.next mode = .operandEnded := by
  unfold percentKinds
  split
  · rfl
  · cases mode <;> rfl

/-- What closes tokens that do not end a statement. -/
def closing (kinds : List TokenKind) : List TokenKind :=
  if kinds.getLast? = some .endOfStatement then [] else [.endOfStatement]

theorem closing_append (inside : kind ≠ .endOfStatement) :
    closing (front ++ kind :: back) = closing back := by
  rcases List.eq_nil_or_concat back with rfl | ⟨between, last, rfl⟩
  · simp [closing, inside]
  · have split : front ++ kind :: between.concat last = (front ++ kind :: between) ++ [last] := by
      simp
    rw [split, closing, closing, List.getLast?_concat, List.concat_eq_append, List.getLast?_concat]

theorem closing_percentKinds (front back : List TokenKind) (mode : Mode) (numeral : String) :
    closing (front ++ percentKinds mode numeral ++ back) = closing back := by
  unfold percentKinds
  split
  · rw [List.append_cons front, List.append_assoc]
    exact closing_append nofun
  · rw [List.append_assoc]
    exact closing_append nofun

theorem map_closeStatement (offset : Nat) (tokens : List Token) :
    (closeStatement offset tokens).map Token.kind =
      tokens.map Token.kind ++ closing (tokens.map Token.kind) := by
  by_cases ended : EndsStatement tokens
  · have last : (tokens.map Token.kind).getLast? = some .endOfStatement :=
      List.getLast?_map.trans ended
    rw [closeStatement, if_pos ended, closing, if_pos last, List.append_nil]
  · have other : ¬(tokens.map Token.kind).getLast? = some .endOfStatement :=
      fun last => ended (List.getLast?_map.symm.trans last)
    rw [closeStatement, if_neg ended, closing, if_neg other, List.map_append]
    rfl

theorem exists_of_closeStatement {tokens front back : List Token} {token : Token}
    (h : closeStatement offset tokens = front ++ token :: back)
    (inside : token.kind ≠ .endOfStatement) :
    ∃ own, tokens = front ++ token :: own ∧
      back.map Token.kind = own.map Token.kind ++ closing (own.map Token.kind) := by
  have kinds := map_closeStatement offset tokens
  rw [h] at kinds
  have found : ∃ own, tokens = front ++ token :: own := by
    unfold closeStatement at h
    split at h
    · exact ⟨back, h⟩
    · rcases append_eq_append_cons h with found | ⟨inner, rfl, last⟩
      · exact found
      · cases inner with
        | nil =>
          cases last
          exact absurd rfl inside
        | cons => simp at last
  obtain ⟨own, rfl⟩ := found
  refine ⟨own, rfl, ?_⟩
  simp only [List.map_append, List.map_cons, closing_append inside, List.append_assoc,
    List.cons_append] at kinds
  exact (List.cons.inj (List.append_cancel_left kinds)).2

/-- With `%` for the mark of a binary literal, the tokens before and behind it stay. -/
theorem lex_percent {before mark numeral behind : String} (binary : mark = "0b" ∨ mark = "0B")
    {front back : List Token} {literal : Token}
    (lexed : lex (before ++ mark ++ numeral ++ behind) = .ok (front ++ literal :: back))
    (kind : literal.kind = .number .binary numeral)
    (place : literal.span.offset = before.utf8ByteSize) :
    ∃ tokens, lex (before ++ "%" ++ numeral ++ behind) = .ok tokens ∧
      tokens.map Token.kind = front.map Token.kind ++
        percentKinds ((front.map Token.kind).foldl Mode.next .statementStart) numeral ++
        back.map Token.kind := by
  obtain ⟨read, whole, closed⟩ := lex_eq_ok lexed
  obtain ⟨own, rfl, rest⟩ := exists_of_closeStatement closed.symm (kind ▸ nofun)
  obtain ⟨c, rfl, marked⟩ : ∃ c, mark = String.ofList ['0', c] ∧ (c = 'b' ∨ c = 'B') := by
    rcases binary with rfl | rfl
    · exact ⟨'b', rfl, .inl rfl⟩
    · exact ⟨'B', rfl, .inr rfl⟩
  obtain ⟨digits, rfl⟩ : ∃ digits, numeral = String.ofList digits :=
    ⟨numeral.toList, String.ofList_toList.symm⟩
  have text : (before ++ String.ofList ['0', c] ++ String.ofList digits ++ behind).toList =
      before.toList ++ '0' :: c :: (digits ++ behind.toList) := by
    simp [String.toList_append]
  have text' : (before ++ "%" ++ String.ofList digits ++ behind).toList =
      before.toList ++ ('%' :: digits ++ behind.toList) := by
    simp [String.toList_append]
  rw [text] at whole
  obtain ⟨first, _, _, tail, scanned, last⟩ :=
    whole.split (by rw [place, Nat.zero_add, utf8Length_toList])
  obtain ⟨rfl, rfl⟩ := List.cons.inj tail
  rw [kind] at scanned
  obtain ⟨areBinary, left⟩ := areBinary_of_scan marked scanned
  rw [left, kind] at last
  have apart : StartsApart ('%' :: digits ++ behind.toList) := startsApart_cons (by decide) _
  have before' := first.splice apart rfl (by decide)
  have literal' := areBinary.lexes_percent ((front.map Token.kind).foldl Mode.next .statementStart)
  have behind' : Lexes .operandEnded behind.toList (own.map Token.kind) [] := by
    revert last
    cases (front.map Token.kind).foldl Mode.next .statementStart <;> exact id
  rw [← foldl_percentKinds _ (String.ofList digits)] at behind'
  obtain ⟨tokens, lexed', kinds⟩ := (before'.append (literal'.append behind')).lexed 0
  rw [← text'] at lexed'
  refine ⟨closeStatement _ tokens, lex_of_lexed lexed', ?_⟩
  rw [map_closeStatement, kinds, ← List.append_assoc, closing_percentKinds, rest]
  simp only [List.append_assoc]

end Asm65.Token
