import Asm65.Proofs.Tiling
import Mathlib

/-!
# Lexing by offsets

Lexing again, now over offsets into the source: the text of a token is a slice
of it (`slice`), the length of a malformed literal a difference. Both may be
undefined, a slice when an offset lies inside a character, or beyond the end, or
its offsets are in the wrong order (`slice_eq_some_iff`). On no source is one of
them undefined, and the tokens are those of `Token.lex` (`lex_eq_some`).

## Implementation notes

A step that passes nothing is undefined too (`lexFrom`): the recursion ends, and a
lexer that stood still is told from one that stops.
-/

namespace Asm65.Checked

open Text (Radix)
open Token (Mode Lexeme isNameStart isNameChar punctOfChar? startsBinary)

theorem pos?_eq_some_iff {source : String} {offset : String.Pos.Raw} {place : source.Pos} :
    source.pos? offset = some place ↔ place.offset = offset := by
  unfold String.pos? String.Slice.pos?
  split
  · next valid =>
    simp only [Option.map_some, Option.some.injEq]
    constructor
    · rintro rfl
      rfl
    · rintro rfl
      exact String.Pos.ext rfl
  · next invalid =>
    refine iff_of_false nofun ?_
    rintro rfl
    exact invalid (String.Pos.Raw.isValidForSlice_eq_true_iff.2 place.toSlice.isValidForSlice)

/-- The text between two offsets, both on character boundaries and the second not before the
first. -/
def slice (source : String) (start stop : Nat) : Option String := do
  let first ← source.pos? ⟨start⟩
  let last ← source.pos? ⟨stop⟩
  let found ← source.slice? first last
  return found.copy

theorem slice_eq_some_iff {source piece : String} {start stop : Nat} :
    slice source start stop = some piece ↔ ∃ before after, source = before ++ (piece ++ after) ∧
      start = before.utf8ByteSize ∧ stop = (before ++ piece).utf8ByteSize := by
  simp only [slice, Option.bind_eq_bind, Option.bind_eq_some_iff, pos?_eq_some_iff]
  constructor
  · rintro ⟨first, starts, last, stops, found, sliced, copied⟩
    unfold String.slice? at sliced
    split at sliced
    · next ordered =>
      cases sliced
      cases copied
      obtain ⟨before, after, left, right⟩ := String.copy_slice_eq_iff_splits.1 ⟨ordered, rfl⟩
      refine ⟨before, after, left.eq_append, ?_, ?_⟩
      · exact congrArg String.Pos.Raw.byteIdx (starts.symm.trans left.offset_eq_rawEndPos)
      · exact congrArg String.Pos.Raw.byteIdx (stops.symm.trans right.offset_eq_rawEndPos)
    · cases sliced
  · rintro ⟨before, after, whole, rfl, rfl⟩
    have whole' : source = before ++ piece ++ after := by rw [whole, String.append_assoc]
    have valid : (⟨before.utf8ByteSize⟩ : String.Pos.Raw).IsValid source :=
      String.Pos.Raw.isValid_iff_exists_append.2 ⟨before, piece ++ after, whole, rfl⟩
    have valid' : (⟨(before ++ piece).utf8ByteSize⟩ : String.Pos.Raw).IsValid source :=
      String.Pos.Raw.isValid_iff_exists_append.2 ⟨before ++ piece, after, whole', rfl⟩
    have splits : (source.pos _ valid).Splits before (piece ++ after) := ⟨whole, rfl⟩
    have splits' : (source.pos _ valid').Splits (before ++ piece) after := ⟨whole', rfl⟩
    obtain ⟨ordered, copied⟩ :=
      String.copy_slice_eq_iff_splits.2 ⟨before, after, splits, splits'⟩
    refine ⟨source.pos _ valid, rfl, source.pos _ valid', rfl, _, dif_pos ordered, ?_⟩
    exact congrArg some copied

/-- An offset inside a character cuts no text. -/
example : slice "é" 0 1 = none ∧ slice "é" 0 2 = some "é" ∧ slice "é" 2 0 = none := by
  decide +kernel

/-- What is left of a source to read, and the offset where it starts. -/
structure Chars where
  offset : Nat
  rest : List Char
deriving DecidableEq

namespace Chars

/-- Passes one character. -/
def next : Chars → Chars
  | ⟨offset, []⟩ => ⟨offset, []⟩
  | ⟨offset, c :: rest⟩ => ⟨offset + c.utf8Size, rest⟩

/-- The place behind some characters of a source. -/
def behind (before rest : List Char) : Chars :=
  ⟨utf8Length before, rest⟩

@[simp] theorem rest_behind (before rest : List Char) : (behind before rest).rest = rest := rfl

@[simp] theorem next_behind_nil (before : List Char) :
    (behind before []).next = behind before [] := rfl

@[simp] theorem next_behind_cons (before : List Char) (c : Char) (rest : List Char) :
    (behind before (c :: rest)).next = behind (before ++ [c]) rest := by
  simp [behind, next]

end Chars

/-- Passes the characters with a property, and gives the offset where it stops. -/
def skipWhile (source : String) (p : Char → Bool) (offset : Nat) : List Char → Nat × Chars
  | [] => (source.utf8ByteSize, ⟨offset, []⟩)
  | c :: rest =>
    if p c then skipWhile source p (offset + c.utf8Size) rest else (offset, ⟨offset, c :: rest⟩)

/-- The text from an offset up to the first character without a property. -/
def tokenize (source : String) (start : Nat) (p : Char → Bool) (chars : Chars) :
    Option (String × Chars) := do
  let (stop, after) := skipWhile source p chars.offset chars.rest
  let text ← slice source start stop
  return (text, after)

/-- What stands at a place of a source. -/
inductive Found
  | blank
  | token (found : Token)
  | malformed (span : Span)
deriving DecidableEq

/-- A numeral, behind a radix mark of some bytes. -/
def numeral (source : String) (start mark : Nat) (radix : Radix) (chars : Chars) :
    Option (Found × Chars) := do
  let (digits, chars) ← tokenize source (start + mark) radix.isNumeralChar chars
  let (tail, chars) ← tokenize source (start + mark + digits.utf8ByteSize) isNameChar chars
  let span : Span := ⟨start, mark + digits.utf8ByteSize + tail.utf8ByteSize⟩
  if digits = "" ∨ tail ≠ "" then return (.malformed span, chars)
  else return (.token ⟨.number radix digits, span⟩, chars)

/-- Whether a text starts with a zero and a letter. -/
def hasMark (text : String) (letter : Char) : Bool :=
  text.toList.take 2 = ['0', letter]

/-- Whether a text starts with the mark of a binary numeral and a digit of one. -/
def hasBinaryMark (text : String) : Option Bool :=
  if hasMark text 'b' ∨ hasMark text 'B' then do
    let digits ← slice text 2 text.utf8ByteSize
    return startsBinary digits.toList
  else some false

/-- A numeral that starts with a digit. -/
def digit (source : String) (chars : Chars) : Option (Found × Chars) := do
  let text ← slice source chars.offset source.utf8ByteSize
  if hasMark text 'x' ∨ hasMark text 'X' then
    numeral source chars.offset 2 .hexadecimal chars.next.next
  else
    let binary ← hasBinaryMark text
    if binary then numeral source chars.offset 2 .binary chars.next.next
    else numeral source chars.offset 0 .decimal chars

/-- A malformed quoted character, which runs to the next white space. -/
def unquoted (source : String) (start : Nat) (chars : Chars) : Option (Found × Chars) := do
  let (stop, after) := skipWhile source (!Text.isWhitespace ·) chars.offset chars.rest
  let length ← stop.psub start
  return (.malformed ⟨start, length⟩, after)

/-- A quoted character, behind its opening quote. -/
def quoted (source : String) (start : Nat) (chars : Chars) : Option (Found × Chars) :=
  match chars.rest.head? with
  | none => unquoted source start chars.next
  | some c =>
    if chars.next.rest.head? = some '\'' ∧ c ≠ '\'' ∧ c ≠ '\n' then
      some (.token ⟨.char c, ⟨start, 2 + c.utf8Size⟩⟩, chars.next.next)
    else unquoted source start chars.next

/-- An operator that may be written twice in a row, behind its first character. -/
def doubled (start : Nat) (c : Char) (single double : Punct) (chars : Chars) : Found × Chars :=
  if chars.rest.head? = some c then (.token ⟨.punct double, ⟨start, 2⟩⟩, chars.next)
  else (.token ⟨.punct single, ⟨start, 1⟩⟩, chars)

/-- What starts with the character `c` at an offset. -/
def scan (source : String) (mode : Mode) (start : Nat) (c : Char) (rest : List Char) :
    Option (Found × Chars) :=
  let chars : Chars := ⟨start, c :: rest⟩
  match c with
  | ' ' | '\t' | '\r' => some (.blank, chars.next)
  | '\n' => some (.token ⟨.endOfStatement, ⟨start, 1⟩⟩, chars.next)
  | ';' => some (.blank, (skipWhile source (· ≠ '\n') start (c :: rest)).2)
  | '$' => numeral source start 1 .hexadecimal chars.next
  | '%' =>
    if mode ≠ .operandEnded ∧ startsBinary rest then numeral source start 1 .binary chars.next
    else some (.token ⟨.punct .percent, ⟨start, 1⟩⟩, chars.next)
  | '\'' => quoted source start chars.next
  | '<' => some (doubled start c .less .shl chars.next)
  | '>' => some (doubled start c .greater .shr chars.next)
  | _ =>
    if c.isDigit then digit source chars
    else if isNameStart c then do
      let (text, after) ← tokenize source start isNameChar chars
      return (.token ⟨.name text, ⟨start, text.utf8ByteSize⟩⟩, after)
    else
      match punctOfChar? c with
      | some punct => some (.token ⟨.punct punct, ⟨start, c.utf8Size⟩⟩, chars.next)
      | none => some (.token ⟨.unknown c, ⟨start, c.utf8Size⟩⟩, chars.next)

/-- The tokens of a source from a place on. -/
def lexFrom (source : String) (mode : Mode) (chars : Chars) :
    Option (Except Diagnostic (List Token)) :=
  match chars.rest with
  | [] => some (.ok [])
  | c :: rest => do
    let (found, after) ← scan source mode chars.offset c rest
    if _ : after.rest.length < chars.rest.length then
      match found with
      | .blank => lexFrom source mode after
      | .token token =>
        match ← lexFrom source (mode.next token.kind) after with
        | .ok tokens => return .ok (token :: tokens)
        | .error diagnostic => return .error diagnostic
      | .malformed span => return .error ⟨.malformedNumber, span⟩
    else none
termination_by chars.rest.length

/-- The tokens of a source, the last of which ends a statement. -/
def lex (source : String) : Option (Except Diagnostic (List Token)) := do
  let read ← lexFrom source .statementStart ⟨0, source.toList⟩
  match read with
  | .ok tokens => return .ok (Token.closeStatement source.utf8ByteSize tokens)
  | .error diagnostic => return .error diagnostic

section Chars

variable {source : String} {before piece rest : List Char}

theorem slice_of_toList (h : source.toList = before ++ (piece ++ rest)) :
    slice source (utf8Length before) (utf8Length (before ++ piece)) =
      some (String.ofList piece) := by
  refine slice_eq_some_iff.2 ⟨.ofList before, .ofList rest, ?_, ?_, ?_⟩
  · rw [← String.ofList_append, ← String.ofList_append, ← h, String.ofList_toList]
  · rw [utf8ByteSize_ofList]
  · rw [← String.ofList_append, utf8ByteSize_ofList]

/-- Passing characters stops where the longest run of them ends. -/
theorem skipWhile_eq (p : Char → Bool) (h : source.toList = before ++ rest) :
    skipWhile source p (utf8Length before) rest =
      (utf8Length (before ++ rest.takeWhile p),
        .behind (before ++ rest.takeWhile p) (rest.dropWhile p)) := by
  induction rest generalizing before with
  | nil =>
    rw [List.append_nil] at h
    rw [skipWhile, List.takeWhile_nil, List.dropWhile_nil, List.append_nil, ← utf8Length_toList, h]
    rfl
  | cons c rest ih =>
    rw [skipWhile]
    by_cases more : p c
    · have whole : source.toList = before ++ [c] ++ rest := by simp [h]
      have passed := ih whole
      rw [utf8Length_append, utf8Length_cons, utf8Length_nil, Nat.add_zero] at passed
      rw [if_pos more, passed, List.takeWhile_cons_of_pos more, List.dropWhile_cons_of_pos more,
        List.append_assoc, List.singleton_append]
    · rw [if_neg more, List.takeWhile_cons_of_neg more, List.dropWhile_cons_of_neg more,
        List.append_nil]
      rfl

theorem tokenize_eq (p : Char → Bool) (h : source.toList = before ++ (piece ++ rest)) :
    tokenize source (utf8Length before) p (.behind (before ++ piece) rest) =
      some (String.ofList (piece ++ rest.takeWhile p),
        .behind (before ++ (piece ++ rest.takeWhile p)) (rest.dropWhile p)) := by
  have passed := skipWhile_eq p (h.trans (List.append_assoc _ _ _).symm)
  have whole : source.toList =
      before ++ ((piece ++ rest.takeWhile p) ++ rest.dropWhile p) := by
    rw [List.append_assoc, List.takeWhile_append_dropWhile, h]
  rw [List.append_assoc] at passed
  simp only [tokenize, Chars.behind, passed, slice_of_toList whole, Option.bind_eq_bind,
    Option.bind_some]
  rfl

/-- A malformed quoted character ends behind its start. -/
theorem unquoted_eq (h : source.toList = before ++ (piece ++ rest)) :
    unquoted source (utf8Length before) (.behind (before ++ piece) rest) =
      some (.malformed ⟨utf8Length before,
          utf8Length (piece ++ rest.takeWhile (!Text.isWhitespace ·))⟩,
        .behind (before ++ (piece ++ rest.takeWhile (!Text.isWhitespace ·)))
          (rest.dropWhile (!Text.isWhitespace ·))) := by
  have passed := skipWhile_eq (!Text.isWhitespace ·) (h.trans (List.append_assoc _ _ _).symm)
  have length : (utf8Length (before ++ (piece ++ rest.takeWhile (!Text.isWhitespace ·)))).psub
      (utf8Length before) = some (utf8Length (piece ++ rest.takeWhile (!Text.isWhitespace ·))) := by
    rw [utf8Length_append, Nat.psub_eq_sub (Nat.le_add_right _ _), Nat.add_sub_cancel_left]
  rw [List.append_assoc] at passed
  simp only [unquoted, Chars.behind, passed, length, Option.bind_eq_bind, Option.bind_some]
  rfl

end Chars

/-- What a lexeme comes to that covers some characters of a source. -/
def Found.ofLexeme (before covered behind : List Char) : Lexeme → Found × Chars
  | .blank => (.blank, .behind (before ++ covered) behind)
  | .token kind =>
    (.token ⟨kind, ⟨utf8Length before, utf8Length covered⟩⟩, .behind (before ++ covered) behind)
  | .malformed =>
    (.malformed ⟨utf8Length before, utf8Length covered⟩, .behind (before ++ covered) behind)

/-- What a lexeme comes to that covers a character and some of those behind it. -/
def Found.ofScan (before : List Char) (c : Char) (rest : List Char) (read : Lexeme × Nat) :
    Found × Chars :=
  ofLexeme before (c :: rest.take read.2) (rest.drop read.2) read.1

section Scan

variable {source : String} {before rest : List Char} {c : Char}

theorem ofList_eq_empty_iff {text : List Char} : String.ofList text = "" ↔ text = [] := by
  rw [← String.toList_inj, String.toList_ofList]
  rfl

/-- What is left behind a run of characters that starts behind some others. -/
theorem drop_run {p : Char → Bool} {skip : Nat} {run text : List Char}
    (h : (text.drop skip).takeWhile p = run) :
    text.drop (skip + run.length) = (text.drop skip).dropWhile p := by
  rw [← List.drop_drop, ← h, Token.drop_takeWhile]

theorem take_run {p : Char → Bool} {skip : Nat} {run text : List Char}
    (h : (text.drop skip).takeWhile p = run) :
    text.take (skip + run.length) = text.take skip ++ run := by
  rw [List.take_add, ← h, Token.take_takeWhile]

/-- A numeral is cut out behind its mark, and the characters glued to it behind that. -/
theorem numeral_eq {radix : Radix} {mark read : List Char} {skip : Nat}
    (h : source.toList = before ++ c :: rest) (cut : c :: rest.take skip = mark ++ read)
    (numerals : ∀ d ∈ read, radix.isNumeralChar d) :
    numeral source (utf8Length before) (utf8Length mark) radix
        (.behind (before ++ mark) (read ++ rest.drop skip)) =
      some (Found.ofScan before c rest (Token.scanNumeral radix read skip rest)) := by
  obtain ⟨digits, run⟩ : ∃ digits, (rest.drop skip).takeWhile radix.isNumeralChar = digits :=
    ⟨_, rfl⟩
  obtain ⟨glued, left⟩ : ∃ glued, (rest.drop skip).dropWhile radix.isNumeralChar = glued :=
    ⟨_, rfl⟩
  obtain ⟨tail, run'⟩ : ∃ tail, glued.takeWhile isNameChar = tail := ⟨_, rfl⟩
  have cover : digits ++ glued = rest.drop skip := by
    rw [← run, ← left, List.takeWhile_append_dropWhile]
  -- what both slices are cut from
  have whole : source.toList = before ++ mark ++ ([] ++ (read ++ rest.drop skip)) := by
    rw [h, List.nil_append, List.append_assoc, ← List.append_assoc mark, ← cut, List.cons_append,
      List.take_append_drop]
  have whole' : source.toList = before ++ mark ++ (read ++ digits) ++ ([] ++ glued) := by
    rw [whole, ← cover]
    simp only [List.nil_append, List.append_assoc]
  have first := tokenize_eq radix.isNumeralChar whole
  have second := tokenize_eq isNameChar whole'
  rw [List.takeWhile_append_of_pos numerals, List.dropWhile_append_of_pos numerals, run, left]
    at first
  rw [run'] at second
  simp only [List.append_nil, List.nil_append, utf8Length_append] at first second
  -- what the lexeme covers
  have dropped : rest.drop (skip + digits.length) = glued := (drop_run run).trans left
  have behind : (rest.drop (skip + digits.length)).takeWhile isNameChar = tail := by
    rw [dropped, run']
  have dropped' : rest.drop (skip + digits.length + tail.length) = glued.dropWhile isNameChar := by
    rw [drop_run behind, dropped]
  have taken : c :: rest.take (skip + digits.length + tail.length) =
      mark ++ (read ++ digits) ++ tail := by
    rw [take_run behind, take_run run, ← List.append_assoc mark, ← cut]
    simp only [List.cons_append, List.append_assoc]
  simp only [Token.scanNumeral, Found.ofScan, run, dropped, run', taken, dropped']
  simp only [numeral, first, second, Option.bind_eq_bind, Option.bind_some, utf8ByteSize_ofList,
    utf8Length_append, ne_eq, ofList_eq_empty_iff]
  rw [List.append_assoc before, List.append_assoc before]
  split
  · simp only [Found.ofLexeme, utf8Length_append]
    rfl
  · simp only [Found.ofLexeme, utf8Length_append]
    rfl

theorem numeral_of_mark {radix : Radix} {d : Char} (h : source.toList = before ++ '0' :: d :: rest)
    (one : d.utf8Size = 1) :
    numeral source (utf8Length before) 2 radix
        (Chars.behind before ('0' :: d :: rest)).next.next =
      some (Found.ofScan before '0' (d :: rest)
        (Token.scanNumeral radix [] 1 (d :: rest))) := by
  have two : utf8Length ['0', d] = 2 := by
    rw [utf8Length_cons, utf8Length_cons, one]
    rfl
  have read : numeral source (utf8Length before) (utf8Length ['0', d]) radix
      (.behind (before ++ ['0', d]) ([] ++ (d :: rest).drop 1)) = _ := numeral_eq h rfl nofun
  rw [two] at read
  rw [Chars.next_behind_cons, Chars.next_behind_cons, List.append_assoc]
  exact read

theorem hasMark_ofList (c letter : Char) (rest : List Char) :
    hasMark (String.ofList (c :: rest)) letter ↔ c = '0' ∧ rest.head? = some letter := by
  cases rest <;> simp [hasMark]

theorem hasBinaryMark_ofList (c : Char) (rest : List Char) :
    hasBinaryMark (String.ofList (c :: rest)) =
      some (decide (c = '0' ∧ (rest.head? = some 'b' ∨ rest.head? = some 'B') ∧
        startsBinary rest.tail)) := by
  simp only [hasBinaryMark, hasMark_ofList, ← and_or_left, ← and_assoc]
  split
  · next mark =>
    obtain ⟨rfl, letter⟩ := mark
    obtain ⟨d, more, rfl⟩ : ∃ d more, rest = d :: more :=
      List.exists_cons_of_ne_nil (by rintro rfl; simp at letter)
    have whole : (String.ofList ('0' :: d :: more)).toList = ['0', d] ++ (more ++ []) := by simp
    have two : utf8Length ['0', d] = 2 := by
      simp only [List.head?_cons, Option.some.injEq] at letter
      rcases letter with rfl | rfl <;> rfl
    have cut := slice_of_toList whole
    rw [two, ← utf8ByteSize_ofList] at cut
    simp only [List.cons_append, List.nil_append] at cut
    simp only [cut, letter, and_self, true_and, List.tail_cons, Bool.decide_eq_true,
      Option.bind_eq_bind, Option.bind_some, String.toList_ofList]
    rfl
  · next unmarked => simp [unmarked]

/-- The marks of a numeral are told from the slice that starts with it. -/
theorem digit_eq (h : source.toList = before ++ c :: rest) (isDigit : c.isDigit) :
    digit source (.behind before (c :: rest)) =
      some (Found.ofScan before c rest (Token.scanDigit c rest)) := by
  have whole : source.toList = before ++ (c :: rest ++ []) := by rw [h, List.append_nil]
  have text := slice_of_toList whole
  rw [← h, utf8Length_toList] at text
  have marked (d : Char) (one : d.utf8Size = 1) (radix : Radix) (zero : c = '0')
      (next : rest.head? = some d) :
      numeral source (utf8Length before) 2 radix (Chars.behind before (c :: rest)).next.next =
        some (Found.ofScan before c rest (Token.scanNumeral radix [] 1 rest)) := by
    obtain ⟨more, rfl⟩ := List.head?_eq_some_iff.1 next
    subst zero
    exact numeral_of_mark h one
  have offset : (Chars.behind before (c :: rest)).offset = utf8Length before := rfl
  rw [Token.scanDigit_eq]
  simp only [digit, offset, text, Option.bind_eq_bind, Option.bind_some, hasMark_ofList,
    hasBinaryMark_ofList, ← and_or_left, decide_eq_true_eq]
  split
  · next mark =>
    obtain ⟨zero, next | next⟩ := mark
    · exact marked 'x' rfl _ zero next
    · exact marked 'X' rfl _ zero next
  · split
    · next mark =>
      obtain ⟨zero, next | next, -⟩ := mark
      · exact marked 'b' rfl _ zero next
      · exact marked 'B' rfl _ zero next
    · next unmarked =>
      have numeral : Radix.decimal.isNumeralChar c := by
        rw [Radix.isNumeralChar, Radix.isDigit, isDigit]
        rfl
      have read : Checked.numeral source (utf8Length before) (utf8Length []) .decimal
          (.behind (before ++ []) ([c] ++ rest.drop 0)) = _ :=
        numeral_eq h rfl (by simpa using numeral)
      rw [List.append_nil] at read
      exact read

theorem quoted_eq (h : source.toList = before ++ '\'' :: rest) :
    quoted source (utf8Length before) (Chars.behind before ('\'' :: rest)).next =
      some (Found.ofScan before '\'' rest (Token.scanQuoted rest)) := by
  rw [Chars.next_behind_cons]
  unfold quoted Token.scanQuoted
  cases rest with
  | nil =>
    have read : unquoted source (utf8Length before) (.behind (before ++ ['\'']) []) = _ :=
      unquoted_eq h
    rw [Chars.rest_behind, List.head?_nil, Chars.next_behind_nil]
    exact read
  | cons c more =>
    rw [Chars.next_behind_cons, Chars.rest_behind, Chars.rest_behind, List.head?_cons]
    dsimp only
    split
    · next closed =>
      obtain ⟨last, rfl⟩ := List.head?_eq_some_iff.1 closed.1
      have length : utf8Length ['\'', c, '\''] = 2 + c.utf8Size := by
        have one : '\''.utf8Size = 1 := rfl
        simp only [utf8Length_cons, utf8Length_nil, one]
        omega
      rw [Chars.next_behind_cons, List.append_assoc, List.append_assoc, ← length]
      rfl
    · next opened =>
      have whole : source.toList = before ++ (['\'', c] ++ more) := h
      rw [List.append_assoc, Found.ofScan, Nat.add_comm 1, List.take_succ_cons,
        Token.take_takeWhile, List.drop_succ_cons, Token.drop_takeWhile]
      exact unquoted_eq whole

theorem doubled_eq (before : List Char) {c : Char} (rest : List Char) (single double : Punct)
    (one : c.utf8Size = 1) :
    doubled (utf8Length before) c single double (Chars.behind before (c :: rest)).next =
      Found.ofScan before c rest (Token.scanDoubled c single double rest) := by
  rw [Chars.next_behind_cons, doubled, Token.scanDoubled, Chars.rest_behind]
  have single : utf8Length [c] = 1 := by simp [one]
  split
  · next again =>
    obtain ⟨more, rfl⟩ := List.head?_eq_some_iff.1 again
    have twice : utf8Length [c, c] = 2 := by simp [one]
    rw [Chars.next_behind_cons, List.append_assoc, ← twice]
    rfl
  · rw [← single]
    rfl

/-- A numeral behind a mark of one character. -/
theorem numeral_of_sign {radix : Radix} (h : source.toList = before ++ c :: rest)
    (one : c.utf8Size = 1) :
    numeral source (utf8Length before) 1 radix (Chars.behind before (c :: rest)).next =
      some (Found.ofScan before c rest (Token.scanNumeral radix [] 0 rest)) := by
  have single : utf8Length [c] = 1 := by simp [one]
  have read : numeral source (utf8Length before) (utf8Length [c]) radix
      (.behind (before ++ [c]) ([] ++ rest.drop 0)) = _ := numeral_eq h rfl nofun
  rw [single] at read
  rw [Chars.next_behind_cons]
  exact read

theorem isNameChar_of_isNameStart (h : isNameStart c) : isNameChar c := by
  simp only [isNameStart, isNameChar, Char.isAlphanum, Bool.or_eq_true] at h ⊢
  tauto

theorem tokenize_name (h : source.toList = before ++ c :: rest) (isName : isNameChar c) :
    tokenize source (utf8Length before) isNameChar (.behind before (c :: rest)) =
      some (String.ofList (c :: rest.takeWhile isNameChar),
        .behind (before ++ c :: rest.takeWhile isNameChar) (rest.dropWhile isNameChar)) := by
  have whole : source.toList = before ++ ([] ++ c :: rest) := h
  have text := tokenize_eq isNameChar whole
  rw [List.append_nil, List.nil_append, List.takeWhile_cons_of_pos isName,
    List.dropWhile_cons_of_pos isName] at text
  exact text

/-- Every lexeme is found by offsets as it is by characters. -/
theorem scan_eq (mode : Mode) (h : source.toList = before ++ c :: rest) :
    scan source mode (utf8Length before) c rest =
      some (Found.ofScan before c rest (Token.scan mode c rest)) := by
  have start : Chars.mk (utf8Length before) (c :: rest) = .behind before (c :: rest) := rfl
  unfold Token.scan
  split
  case h_1 | h_2 | h_3 | h_4 =>
    simp only [scan, start, Chars.next_behind_cons]
    rfl
  case h_5 =>
    simp only [scan, skipWhile_eq _ h]
    rw [List.takeWhile_cons_of_pos (by decide), List.dropWhile_cons_of_pos (by decide),
      Found.ofScan, Token.take_takeWhile, Token.drop_takeWhile]
    rfl
  case h_6 => exact numeral_of_sign h rfl
  case h_7 =>
    simp only [scan, start]
    split
    · exact numeral_of_sign h rfl
    · rw [Chars.next_behind_cons]
      rfl
  case h_8 => exact quoted_eq h
  case h_9 | h_10 => exact congrArg some (doubled_eq before rest _ _ rfl)
  case h_11 =>
    -- none of the characters above is scanned by offsets either
    simp only [scan, *]
    split
    · next isDigit => exact digit_eq h isDigit
    · split
      · next isStart =>
        rw [tokenize_name h (isNameChar_of_isNameStart isStart), Found.ofScan,
          Token.take_takeWhile, Token.drop_takeWhile]
        simp only [Option.bind_eq_bind, Option.bind_some, utf8ByteSize_ofList]
        rfl
      · rw [Chars.next_behind_cons]
        cases punctOfChar? c <;> rfl

end Scan

/-- Lexing by offsets is lexing by characters. -/
theorem lexFrom_eq {source : String} (mode : Mode) {before text : List Char}
    (h : source.toList = before ++ text) :
    lexFrom source mode (.behind before text) =
      some (Token.lexFrom mode (utf8Length before) text) := by
  induction left : text.length using Nat.strongRecOn generalizing mode before text with
  | ind left' ih =>
    subst left
    cases text with
    | nil =>
      rw [lexFrom, Token.lexFrom]
      rfl
    | cons c rest =>
      have found := scan_eq mode h
      obtain ⟨lexeme, count, read⟩ : ∃ lexeme count, Token.scan mode c rest = (lexeme, count) :=
        ⟨_, _, rfl⟩
      have shorter : (rest.drop count).length < (c :: rest).length :=
        Nat.lt_succ_of_le (List.drop_sublist _ _).length_le
      have whole : source.toList = before ++ c :: rest.take count ++ rest.drop count := by
        rw [List.append_assoc, List.cons_append, List.take_append_drop, h]
      have later (mode : Mode) := ih _ shorter mode whole rfl
      rw [utf8Length_append] at later
      rw [read] at found
      rw [lexFrom, Token.lexFrom, read]
      simp only [Chars.behind, found, Option.bind_eq_bind, Option.bind_some]
      cases lexeme with
      | blank => exact (dif_pos shorter).trans (later mode)
      | token kind =>
        simp only [Found.ofScan, Found.ofLexeme, Chars.rest_behind, dif_pos shorter, later,
          Option.bind_some, Span.stop]
        cases Token.lexFrom (mode.next kind) (utf8Length before + utf8Length (c :: rest.take count))
          (rest.drop count) <;> rfl
      | malformed => exact dif_pos shorter

/-- Every slice and every difference in lexing a source is defined. -/
theorem lex_eq_some (source : String) : lex source = some (Token.lex source) := by
  have read : lexFrom source .statementStart ⟨0, source.toList⟩ = _ :=
    lexFrom_eq .statementStart (List.nil_append source.toList).symm
  simp only [lex, read, Option.bind_eq_bind, Option.bind_some, Token.lex, utf8Length_toList,
    utf8Length_nil]
  cases Token.lexFrom .statementStart 0 source.toList <;> rfl

end Asm65.Checked
