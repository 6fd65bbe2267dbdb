import Asm65.Proofs.Grammar
import Asm65.Proofs.Settling

/-!
# Addresses written as text

The directive that writes an address as text takes an expression for the address, a
comma, and an expression for the number of characters, up to the end of the
statement. An address with a value is written if its decimal text fits, and the
bytes before the first zero byte are that text. An address without a value is
left to the linker (`AddressText.read_iff_spelled`).

## Implementation notes

The bytes are read back by `AddressText.shown?`, which knows nothing of how they are
written: it takes the bytes before the first zero byte for a signed decimal number.
-/

namespace Asm65

namespace Text

/-- The number that decimal digits stand for. There is none without a digit, or with another
character among them. -/
def decimalValue? (digits : List Char) : Option Nat :=
  if digits ≠ [] ∧ ∀ c ∈ digits, c.isDigit then some (positionalValue 10 digits) else none

/-- The integer that a decimal text stands for, with `-` before a negative one. -/
def signedValue? : List Char → Option Int
  | '-' :: digits => (decimalValue? digits).map fun n : Nat => -(n : Int)
  | digits => (decimalValue? digits).map fun n : Nat => (n : Int)

theorem isDigit_of_mem_decimal {n : Nat} {c : Char} (among : c ∈ (decimal n).toList) :
    c.isDigit := by
  rw [decimal, String.toList_ofList] at among
  exact isDigit_of_mem_toDigits c among

theorem decimalValue?_decimal (n : Nat) : decimalValue? (decimal n).toList = some n := by
  have digits : (decimal n).toList ≠ [] ∧ ∀ c ∈ (decimal n).toList, c.isDigit := by
    refine ⟨?_, fun c => isDigit_of_mem_decimal⟩
    rw [decimal, String.toList_ofList]
    exact Nat.toDigits_ne_nil
  rw [decimalValue?, if_pos digits, decimal, String.toList_ofList, positionalValue_toDigits]

theorem toList_signedDecimal (n : Int) :
    (signedDecimal n).toList =
      if n < 0 then '-' :: (decimal n.natAbs).toList else (decimal n.natAbs).toList := by
  unfold signedDecimal
  split
  · rw [String.toList_append]
    rfl
  · rfl

theorem signedValue?_signedDecimal (n : Int) : signedValue? (signedDecimal n).toList = some n := by
  rw [toList_signedDecimal]
  split
  · next negative =>
    rw [signedValue?, decimalValue?_decimal, Option.map_some, Option.some_inj]
    omega
  · next positive =>
    have unsigned : ∀ digits, (decimal n.natAbs).toList ≠ '-' :: digits := by
      intro digits same
      have dash := isDigit_of_mem_decimal (same ▸ List.mem_cons_self)
      cases dash
    rw [signedValue?.eq_2 _ unsigned, decimalValue?_decimal, Option.map_some, Option.some_inj]
    omega

/-- A decimal text holds visible characters of one byte only. -/
theorem toNat_of_mem_signedDecimal {n : Int} {c : Char} (among : c ∈ (signedDecimal n).toList) :
    0 < c.toNat ∧ c.toNat < 128 := by
  have digit {c : Char} (h : c.isDigit) : 0 < c.toNat ∧ c.toNat < 128 := by
    simp only [Char.isDigit, Bool.and_eq_true, decide_eq_true_eq, ge_iff_le,
      UInt32.le_iff_toNat_le] at h
    have bounds : 0 < '0'.val.toNat ∧ '9'.val.toNat < 128 := by decide
    change 0 < c.val.toNat ∧ c.val.toNat < 128
    omega
  rw [toList_signedDecimal] at among
  split at among
  · rcases List.mem_cons.1 among with rfl | among
    · decide
    · exact digit (isDigit_of_mem_decimal among)
  · exact digit (isDigit_of_mem_decimal among)

theorem utf8Length_eq_length {text : List Char} (ascii : ∀ c ∈ text, c.toNat < 128) :
    utf8Length text = text.length := by
  induction text with
  | nil => rfl
  | cons c text ih =>
    obtain ⟨first, others⟩ := List.forall_mem_cons.1 ascii
    have one : c.utf8Size = 1 := Char.utf8Size_eq_one_iff.2 (Nat.le_of_lt_succ first)
    rw [utf8Length_cons, one, ih others, List.length_cons, Nat.add_comm]

theorem utf8ByteSize_signedDecimal (n : Int) :
    (signedDecimal n).utf8ByteSize = (signedDecimal n).toList.length := by
  rw [← utf8Length_toList]
  exact utf8Length_eq_length fun c among => (toNat_of_mem_signedDecimal among).2

end Text

/-- The kinds of the tokens before the end of the statement. -/
def Cursor.statementKinds (cursor : Cursor) : List TokenKind :=
  (cursor.rest.takeWhile fun token => token.kind ≠ .endOfStatement).map Token.kind

theorem Cursor.exists_statement (cursor : Cursor) :
    ∃ tokens more, cursor.rest = tokens ++ more ∧ cursor.statementKinds = tokens.map Token.kind ∧
      ∀ token ∈ more.head?, token.kind = .endOfStatement := by
  refine ⟨_, _, List.takeWhile_append_dropWhile.symm, rfl, fun token next => ?_⟩
  have outside := List.head?_dropWhile_not (fun token : Token => token.kind ≠ .endOfStatement)
    cursor.rest
  rw [Option.mem_def.1 next] at outside
  simpa using outside

theorem Cursor.statementKinds_of_append {cursor after : Cursor} {tokens : List Token}
    (here : cursor.rest = tokens ++ after.rest)
    (inside : .endOfStatement ∉ tokens.map Token.kind) (ended : after.AtEndOfStatement) :
    cursor.statementKinds = tokens.map Token.kind := by
  have tokensInside : ∀ token ∈ tokens, decide (token.kind ≠ .endOfStatement) = true := by
    intro token among
    refine decide_eq_true fun same => inside ?_
    exact same ▸ List.mem_map_of_mem among
  have closed : after.rest.takeWhile (fun token => token.kind ≠ .endOfStatement) = [] := by
    cases here' : after.rest with
    | nil => rfl
    | cons token rest =>
      have last : token.kind = .endOfStatement := ended token (by rw [peek?, here']; rfl)
      exact List.takeWhile_cons_of_neg (by simp [last])
  rw [statementKinds, here, List.takeWhile_append_of_pos tokensInside, closed, List.append_nil]

namespace AddressText

open Grammar

/-- The tokens of an address, a comma and a count of one to eight characters. -/
inductive Spelled : List TokenKind → Expr → Nat → Prop
  | operands {before behind : List TokenKind} {address count : Expr} {number : Int64} {chars : Nat}
      (first : Derives 1 before address) (second : Derives 1 behind count)
      (known : count.value? = some number) (same : number.toInt = chars)
      (inside : 1 ≤ chars ∧ chars ≤ 8) :
      Spelled (before ++ .punct .comma :: behind) address chars

theorem Spelled.endOfStatement_not_mem {kinds : List TokenKind} {address : Expr} {chars : Nat}
    (h : Spelled kinds address chars) : .endOfStatement ∉ kinds := by
  obtain ⟨first, second, -, -, -⟩ := h
  intro among
  rcases List.mem_append.1 among with before | rest
  · exact (first.statement_of_mem before).1 rfl
  · cases rest with
    | tail _ behind => exact (second.statement_of_mem behind).1 rfl

/-- The number that the bytes before the first zero byte show. -/
def shown? (written : List UInt8) : Option Int :=
  Text.signedValue? ((written.takeWhile (· ≠ 0)).map fun byte => Char.ofNat byte.toNat)

variable {start after : Cursor} {address : Expr} {chars : Nat}

theorem charCount?_eq_some_iff {count : Int64} :
    charCount? count = some chars ↔ count.toInt = chars ∧ 1 ≤ chars ∧ chars ≤ 8 := by
  unfold charCount?
  split
  · rw [Option.some_inj]
    omega
  · simp only [reduceCtorEq, false_iff]
    omega

section Bytes

variable {n : Int}

/-- No byte of a decimal text is zero, and each one is that of its character. -/
theorem byte_of_mem_signedDecimal {c : Char} (among : c ∈ (Text.signedDecimal n).toList) :
    UInt8.ofNat c.toNat ≠ 0 ∧ Char.ofNat (UInt8.ofNat c.toNat).toNat = c := by
  obtain ⟨visible, ascii⟩ := Text.toNat_of_mem_signedDecimal among
  have small : (UInt8.ofNat c.toNat).toNat = c.toNat :=
    UInt8.toNat_ofNat_of_lt (Nat.lt_trans ascii (by decide))
  constructor
  · intro zero
    rw [zero] at small
    exact absurd small (Nat.ne_of_lt visible)
  · rw [small, Char.ofNat_toNat]

theorem bytes_ne_zero : ∀ byte ∈ (Text.signedDecimal n).toList.map fun c => UInt8.ofNat c.toNat,
    decide (byte ≠ 0) = true := by
  simp only [List.forall_mem_map, decide_eq_true_eq]
  exact fun c among => (byte_of_mem_signedDecimal among).1

theorem shown?_pad (chars : Nat) (n : Int) :
    shown? (pad chars (Text.signedDecimal n).toList) = some n := by
  have back : (Text.signedDecimal n).toList.map
      ((fun byte : UInt8 => Char.ofNat byte.toNat) ∘ fun c => UInt8.ofNat c.toNat) =
        (Text.signedDecimal n).toList :=
    (List.map_congr_left fun c among => (byte_of_mem_signedDecimal among).2).trans
      (List.map_id' _)
  rw [shown?, pad, List.takeWhile_append_of_pos bytes_ne_zero, List.takeWhile_replicate]
  simp only [ne_eq, not_true_eq_false, decide_false, Bool.false_eq_true, if_false, List.append_nil,
    List.map_map]
  rw [back, Text.signedValue?_signedDecimal]

theorem dropWhile_pad (chars : Nat) (n : Int) :
    (pad chars (Text.signedDecimal n).toList).dropWhile (· ≠ 0) =
      List.replicate (chars + 1 - (Text.signedDecimal n).toList.length) 0 := by
  rw [pad, List.dropWhile_append_of_pos bytes_ne_zero, List.dropWhile_replicate]
  rfl

end Bytes

theorem ofAddress?_eq_bytes_iff {written : List UInt8} {span span' : Span} :
    ofAddress? address chars span = some (.bytes written span') ↔
      ∃ value, address.value? = some value ∧
        (Text.signedDecimal value.toInt).utf8ByteSize ≤ chars ∧
        written = pad chars (Text.signedDecimal value.toInt).toList ∧ span' = span := by
  simp only [Text.utf8ByteSize_signedDecimal]
  unfold ofAddress?
  cases address.value? with
  | none => simp
  | some value => grind

theorem ofAddress?_eq_deferred_iff {found : OperandExpr} {chars' : Nat} {span span' : Span} :
    ofAddress? address chars span = some (.deferred found chars' span') ↔
      address.value? = none ∧ found = .modified .addressText address false ∧ chars' = chars ∧
        span' = span := by
  unfold ofAddress?
  cases address.value? with
  | none => grind
  | some value => grind

section Reading

theorem readCount_eq_ok_iff {counted : Option Int64 × Span} :
    readCount start = .ok counted after ↔
      ∃ count, Expr.read start = .ok count after ∧
        counted = (count.value?, start.spanSince after) := by
  unfold readCount
  cases Expr.read start with
  | ok count stop => grind
  | error diagnostic stop => simp

theorem ofParts_eq_ok_iff {afterAddress stop : Cursor} {counted : Option Int64 × Span}
    {text : AddressText} :
    ofParts start afterAddress address counted after = .ok text stop ↔
      ∃ number chars, counted.1 = some number ∧ charCount? number = some chars ∧
        after.AtEndOfStatement ∧ ofAddress? address chars (start.spanSince after) = some text ∧
        stop = after := by
  obtain ⟨count, countSpan⟩ := counted
  cases count with
  | none => simp [ofParts]
  | some number =>
    unfold ofParts
    dsimp only
    cases counted : charCount? number with
    | none => simp [counted]
    | some chars => grind

theorem read_eq_ofParts {afterAddress afterComma : Cursor} {counted : Option Int64 × Span}
    (first : Expr.read start = .ok address afterAddress)
    (comma : Reader.expect (.punct .comma) .charCount afterAddress = .ok () afterComma)
    (second : readCount afterComma = .ok counted after) :
    read start = ofParts start afterAddress address counted after := by
  simp only [read, first, comma, second]

theorem exists_spelled_of_read {text : AddressText} (h : read start = .ok text after) :
    ∃ address chars span, Spelled start.statementKinds address chars ∧
      ofAddress? address chars span = some text := by
  unfold read at h
  split at h
  · cases h
  next address afterAddress first =>
  split at h
  · cases h
  next afterComma comma =>
  split at h
  · cases h
  next counted stop second =>
  obtain ⟨number, chars, known, inside, ended, made, rfl⟩ := ofParts_eq_ok_iff.1 h
  obtain ⟨count, second', rfl⟩ := readCount_eq_ok_iff.1 second
  obtain ⟨before, here, derived⟩ := Expr.exists_append_of_read first
  obtain ⟨behind, here', derived'⟩ := Expr.exists_append_of_read second'
  obtain ⟨token, isComma, next⟩ := Reader.exists_cons_of_expect comma
  obtain ⟨same, few⟩ := charCount?_eq_some_iff.1 inside
  have whole : start.rest = (before ++ token :: behind) ++ after.rest := by
    rw [here, next, here', List.append_assoc, List.cons_append]
  have spelled := Spelled.operands derived derived' known same few
  rw [← isComma, ← List.map_cons, ← List.map_append] at spelled
  refine ⟨address, chars, _, ?_, made⟩
  rw [Cursor.statementKinds_of_append whole spelled.endOfStatement_not_mem ended]
  exact spelled

/-- The operands of the directive are read one after the other, up to the end of the statement. -/
theorem exists_read_of_spelled (spelled : Spelled start.statementKinds address chars) :
    ∃ afterAddress afterComma after number countSpan,
      Expr.read start = .ok address afterAddress ∧
      Reader.expect (.punct .comma) .charCount afterAddress = .ok () afterComma ∧
      readCount afterComma = .ok (some number, countSpan) after ∧
      charCount? number = some chars ∧ after.AtEndOfStatement := by
  obtain ⟨tokens, more, here, same, ended⟩ := start.exists_statement
  generalize start.statementKinds = kinds at spelled same
  obtain ⟨first, second, known, number, inside⟩ := spelled
  obtain ⟨before, rest, rfl, rfl, same'⟩ := List.map_eq_append_iff.1 same.symm
  obtain ⟨comma, behind, rfl, isComma, rfl⟩ := List.map_eq_cons_iff.1 same'
  have whole : start.rest = before ++ (comma :: (behind ++ more)) := by
    rw [here, List.append_assoc, List.cons_append]
  have comma_apart : ∀ token ∈ (comma :: (behind ++ more)).head?, ∀ op : BinaryOp,
      token.kind ≠ .punct op.punct := by
    rintro _ ⟨⟩ op
    rw [isComma]
    cases op <;> nofun
  have end_apart : ∀ token ∈ more.head?, ∀ op : BinaryOp, token.kind ≠ .punct op.punct := by
    intro token next op
    rw [ended token next]
    nofun
  have read_address := Expr.read_of_apart whole first comma_apart
  have here' := Cursor.rest_advance whole
  have starts : (start.advance before.length).Starts [.punct .comma] := by
    rw [Cursor.Starts, here', List.map_cons, isComma]
    exact ⟨_, rfl⟩
  have read_comma := Reader.expect_of_starts starts .charCount
  have here'' : ((start.advance before.length).advance 1).rest = behind ++ more := by
    rw [Cursor.advance, here']
    rfl
  have read_count := Expr.read_of_apart here'' second end_apart
  have stands := Cursor.rest_advance here''
  have at_end : (((start.advance before.length).advance 1).advance
      behind.length).AtEndOfStatement := by
    rw [Cursor.AtEndOfStatement, Cursor.peek?, stands]
    exact ended
  exact ⟨_, _, _, _, _, read_address, read_comma,
    readCount_eq_ok_iff.2 ⟨_, read_count, by rw [known]⟩,
    charCount?_eq_some_iff.2 ⟨number, inside⟩, at_end⟩

/-- What is read depends on the address and the count, but for its span. -/
theorem read_of_spelled (spelled : Spelled start.statementKinds address chars) :
    ∃ span, ∀ text, (∃ after, read start = .ok text after) ↔
      ofAddress? address chars span = some text := by
  obtain ⟨_, _, stop, number, countSpan, first, comma, second, counted, ended⟩ :=
    exists_read_of_spelled spelled
  refine ⟨start.spanSince stop, fun text => ?_⟩
  simp only [read_eq_ofParts first comma second, ofParts_eq_ok_iff]
  constructor
  · rintro ⟨_, _, _, ⟨⟩, counted', -, made, rfl⟩
    cases counted.symm.trans counted'
    exact made
  · intro made
    exact ⟨stop, number, chars, rfl, counted, ended, made, rfl⟩

end Reading

/-- The directive writes an address exactly if the operands up to the end of the statement are the
address, a comma and a count from one to eight, and the decimal text of its value fits. The bytes
are one more than counted. They show the value before the first zero byte, and from there on they
are zero. An address without a value is left to the linker, for as many bytes. -/
theorem read_iff_spelled (tokens : List Token) (start : Nat) :
    let kinds := (Cursor.atIndex tokens start).statementKinds
    ((∃ written span after, read (.atIndex tokens start) = .ok (.bytes written span) after) ↔
      ∃ address chars value, Spelled kinds address chars ∧ address.value? = some value ∧
        (Text.signedDecimal value.toInt).utf8ByteSize ≤ chars) ∧
    (∀ address chars value written span after, Spelled kinds address chars →
      address.value? = some value →
      read (.atIndex tokens start) = .ok (.bytes written span) after →
      written.length = chars + 1 ∧ shown? written = some value.toInt ∧ 0 ∈ written ∧
        ∀ byte ∈ written.dropWhile (· ≠ 0), byte = 0) ∧
    ((∃ found chars span after,
        read (.atIndex tokens start) = .ok (.deferred found chars span) after) ↔
      ∃ address chars, Spelled kinds address chars ∧ address.value? = none) ∧
    ∀ address chars found chars' span after, Spelled kinds address chars →
      read (.atIndex tokens start) = .ok (.deferred found chars' span) after →
      found = .modified .addressText address false ∧
        (deferred found chars' span).size = chars + 1 := by
  intro kinds
  refine ⟨⟨?_, ?_⟩, ?_, ⟨?_, ?_⟩, ?_⟩
  · rintro ⟨written, span, after, found⟩
    obtain ⟨address, chars, _, spelled, made⟩ := exists_spelled_of_read found
    obtain ⟨value, known, fits, -, -⟩ := ofAddress?_eq_bytes_iff.1 made
    exact ⟨address, chars, value, spelled, known, fits⟩
  · rintro ⟨address, chars, value, spelled, known, fits⟩
    obtain ⟨span, reads⟩ := read_of_spelled spelled
    obtain ⟨after, found⟩ := (reads _).2 (ofAddress?_eq_bytes_iff.2 ⟨value, known, fits, rfl, rfl⟩)
    exact ⟨_, _, after, found⟩
  · intro address chars value written span after spelled known found
    obtain ⟨span, reads⟩ := read_of_spelled spelled
    obtain ⟨value', known', fits, rfl, -⟩ := ofAddress?_eq_bytes_iff.1 ((reads _).1 ⟨after, found⟩)
    cases known.symm.trans known'
    rw [Text.utf8ByteSize_signedDecimal] at fits
    refine ⟨length_pad fits, shown?_pad chars _, ?_, ?_⟩
    · exact List.mem_append_right _ (List.mem_replicate.2 ⟨by omega, rfl⟩)
    · intro byte among
      rw [dropWhile_pad] at among
      exact List.eq_of_mem_replicate among
  · rintro ⟨found, chars, span, after, read⟩
    obtain ⟨address, chars, _, spelled, made⟩ := exists_spelled_of_read read
    exact ⟨address, _, spelled, (ofAddress?_eq_deferred_iff.1 made).1⟩
  · rintro ⟨address, chars, spelled, unknown⟩
    obtain ⟨span, reads⟩ := read_of_spelled spelled
    obtain ⟨after, found⟩ := (reads _).2 (ofAddress?_eq_deferred_iff.2 ⟨unknown, rfl, rfl, rfl⟩)
    exact ⟨_, _, _, after, found⟩
  · intro address chars found chars' span after spelled read
    obtain ⟨span, reads⟩ := read_of_spelled spelled
    obtain ⟨-, rfl, rfl, -⟩ := ofAddress?_eq_deferred_iff.1 ((reads _).1 ⟨after, read⟩)
    exact ⟨rfl, rfl⟩

/-- The operands `-42, 3`. -/
theorem read_iff_spelled_negative :
    let tokens : List Token :=
      [⟨.punct .dash, ⟨0, 1⟩⟩, ⟨.number .decimal "42", ⟨1, 2⟩⟩, ⟨.punct .comma, ⟨3, 1⟩⟩,
        ⟨.number .decimal "3", ⟨5, 1⟩⟩, ⟨.endOfStatement, ⟨6, 0⟩⟩]
    Spelled (Cursor.atIndex tokens 0).statementKinds (.unary .neg (.constant 42)) 3 ∧
      ∃ written span after, read (.atIndex tokens 0) = .ok (.bytes written span) after ∧
        written.length = 4 ∧ shown? written = some (-42) := by
  intro tokens
  have spelled :
      Spelled (Cursor.atIndex tokens 0).statementKinds (.unary .neg (.constant 42)) 3 := by
    have address : Derives 7 [.punct .dash, .number .decimal "42"] (.unary .neg (.constant 42)) :=
      .unary .neg ((Derives.literal (n := 42) (by decide)).mono (by decide))
    have count : Derives 8 [.number .decimal "3"] (.constant 3) :=
      .literal (n := 3) (by decide)
    exact .operands (address.mono (by decide)) (count.mono (by decide)) rfl (by decide) (by decide)
  obtain ⟨written_iff, shows, -, -⟩ := read_iff_spelled tokens 0
  obtain ⟨written, span, after, found⟩ := written_iff.2 ⟨_, _, -42, spelled, rfl, by decide⟩
  obtain ⟨length, value, -, -⟩ := shows _ _ _ _ _ _ spelled rfl found
  exact ⟨spelled, written, span, after, found, length, value⟩

end AddressText

end Asm65
