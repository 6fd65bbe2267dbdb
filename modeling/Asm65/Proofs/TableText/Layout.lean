import Asm65.Proofs.LiteralValues
import Asm65.Proofs.TableText.Listing

/-!
# The layout of tables

A table is a text of lines, each of them blank, a comment or an entry (`Layout.Lines`).
The reader takes a line apart exactly as the grammar puts it together
(`Layout.readLine_eq_ok_iff_line`), and so it is with the whole text
(`Layout.readWritten_eq_ok_iff`).

## Implementation notes

A word goes on as far as it can: no character that would continue it stands behind it
(`EndsWord`). This is all the grammar says about the order in which a reader looks at
the text. The judgments are about a text as a whole and build it from its end, since
what may follow an item depends on what does.
-/

namespace Asm65

namespace Table

/-- An entry of a table as it is written, and the number of its line. -/
structure Entry where
  line : Nat
  mnemonic : String
  shapes : List WrittenShape
  /-- The two digits of the opcode. -/
  high : Char
  low : Char
  features : List String

namespace Entry

/-- The byte that the two digits of the opcode stand for. -/
def opcode (entry : Entry) : UInt8 :=
  UInt8.ofNat (16 * Text.digitOrdinal entry.high + Text.digitOrdinal entry.low)

/-- The template that an entry writes down. -/
def written (entry : Entry) : WrittenTemplate :=
  ⟨entry.line, entry.mnemonic, entry.shapes, entry.opcode, entry.features⟩

end Entry

theorem IsWord.toList_ne_nil {continues : Char → Bool} {word : String}
    (h : IsWord continues word) : word.toList ≠ [] := by
  obtain ⟨c, more, spelled, -⟩ := h
  rw [spelled]
  exact List.cons_ne_nil c more

namespace WrittenShape

/-- The text of a shape as it is written. -/
def spelling : WrittenShape → List Char
  | literal text => '\'' :: (text.toList ++ ['\''])
  | register name => '%' :: name.toList
  | operandClass name => name.toList

variable {shape : WrittenShape}

theorem IsSpelled.ne_nil (h : shape.IsSpelled) : shape.spelling ≠ [] := by
  cases shape with
  | literal text => exact List.cons_ne_nil _ _
  | register name => exact List.cons_ne_nil _ _
  | operandClass name => exact IsWord.toList_ne_nil h

theorem IsSpelled.isUnbroken (h : shape.IsSpelled) : IsUnbroken shape.spelling := by
  cases shape with
  | literal text =>
    obtain ⟨-, -, unbroken⟩ := h
    exact isUnbroken_cons_iff.2 ⟨by decide, by decide,
      isUnbroken_append_iff.2 ⟨unbroken, by decide⟩⟩
  | register name =>
    exact isUnbroken_cons_iff.2 ⟨by decide, by decide, IsWord.isUnbroken h rfl rfl⟩
  | operandClass name => exact IsWord.isUnbroken h rfl rfl

theorem IsSpelled.skip_eq_self (h : shape.IsSpelled) (rest : List Char) :
    skip (shape.spelling ++ rest) = shape.spelling ++ rest := by
  cases shape with
  | literal text => exact Table.skip_eq_self (by decide)
  | register name => exact Table.skip_eq_self (by decide)
  | operandClass name => exact skip_word h rest

end WrittenShape

namespace Layout

/-- Whether a text is made of blanks only. -/
def IsBlank (text : List Char) : Prop :=
  ∀ c ∈ text, c = ' ' ∨ c = '\t'

/-- What may stand behind the last item of a line: blanks, and a comment. -/
inductive IsTail : List Char → Prop
  | blank {blank : List Char} (h : IsBlank blank) : IsTail blank
  | comment {blank comment : List Char} (h : IsBlank blank) (unbroken : IsUnbroken comment) :
      IsTail (blank ++ ';' :: comment)

/-- Whether a word cannot go on in the text behind it. -/
def EndsWord (continues : Char → Bool) (behind : List Char) : Prop :=
  ∀ c ∈ behind.head?, continues c = false

/-- Whether a shape ends in front of a text. A literal ends in any case. -/
def EndsShape : WrittenShape → List Char → Prop
  | .literal _, _ => True
  | .register _, behind | .operandClass _, behind => EndsWord Char.isAlphanum behind

/-- Shapes with blanks in front of them, in front of another text. -/
inductive Shapes (behind : List Char) : List WrittenShape → List Char → Prop
  | nil {blank : List Char} (h : IsBlank blank) : Shapes behind [] (blank ++ behind)
  | cons {blank text : List Char} {shape : WrittenShape} {shapes : List WrittenShape}
      (h : IsBlank blank) (spelled : shape.IsSpelled) (ends : EndsShape shape text)
      (tail : Shapes behind shapes text) :
      Shapes behind (shape :: shapes) (blank ++ (shape.spelling ++ text))

/-- Names of features with blanks in front of them, up to the end of a line. -/
inductive Names : List String → List Char → Prop
  | nil {text : List Char} (h : IsTail text) : Names [] text
  | cons {blank text : List Char} {name : String} {names : List String} (h : IsBlank blank)
      (spelled : IsWord isFeatureChar name) (ends : EndsWord isFeatureChar text)
      (tail : Names names text) : Names (name :: names) (blank ++ (name.toList ++ text))

/-- The end of an entry behind its opcode: nothing, or a colon and at least one feature. -/
inductive Features : List String → List Char → Prop
  | none {text : List Char} (h : IsTail text) : Features [] text
  | some {blank text : List Char} {names : List String} (h : IsBlank blank)
      (listed : Names names text) (some_name : names ≠ []) :
      Features names (blank ++ ':' :: text)

/-- The opcode of an entry and what stands behind it, from the arrow on. -/
inductive Code (entry : Entry) : List Char → Prop
  | arrow {blank text : List Char} (h : IsBlank blank)
      (high : Text.Radix.hexadecimal.isDigit entry.high)
      (low : Text.Radix.hexadecimal.isDigit entry.low) (featured : Features entry.features text) :
      Code entry ('=' :: '>' :: (blank ++ '$' :: entry.high :: entry.low :: text))

/-- The text of an entry. -/
inductive IsEntry (entry : Entry) : List Char → Prop
  | mnemonic {blank text behind : List Char} (h : IsBlank blank)
      (spelled : IsWord Char.isAlphanum entry.mnemonic) (ends : EndsWord Char.isAlphanum text)
      (shaped : Shapes behind entry.shapes text) (encoded : Code entry behind) :
      IsEntry entry (blank ++ (entry.mnemonic.toList ++ text))

/-- One line of a table: blank but for a comment, or an entry with the number of the line. -/
inductive IsLine (number : Nat) : List Entry → List Char → Prop
  | blank {text : List Char} (h : IsTail text) : IsLine number [] text
  | entry {text : List Char} {entry : Entry} (h : IsEntry entry text)
      (numbered : entry.line = number) : IsLine number [entry] text

/-- What ends a line. -/
def endings : List (List Char) :=
  [['\n'], ['\r', '\n'], ['\r']]

/-- The entries of a text, line by line, behind a text that has been read already. Only line feeds
count for the number of a line. -/
inductive Lines : List Char → List Entry → List Char → Prop
  | last {before line : List Char} {entries : List Entry}
      (h : IsLine (1 + before.count '\n') entries line) : Lines before entries line
  | more {before line ending text : List Char} {entries others : List Entry}
      (h : IsLine (1 + before.count '\n') entries line) (ended : ending ∈ endings)
      (tail : Lines (before ++ (line ++ ending)) others text) :
      Lines before (entries ++ others) (line ++ (ending ++ text))

section Blanks

variable {blank text rest : List Char} {c : Char}

theorem isBlank_nil : IsBlank [] :=
  List.forall_mem_nil _

theorem IsBlank.cons (h : IsBlank blank) (space : c = ' ' ∨ c = '\t') : IsBlank (c :: blank) :=
  List.forall_mem_cons.2 ⟨space, h⟩

theorem IsBlank.isUnbroken (h : IsBlank blank) : IsUnbroken blank := by
  constructor
  · intro among
    rcases h _ among with same | same <;> cases same
  · intro among
    rcases h _ among with same | same <;> cases same

theorem IsBlank.skip_append (h : IsBlank blank) (text : List Char) :
    skip (blank ++ text) = skip text := by
  induction blank with
  | nil => rfl
  | cons c blank ih =>
    obtain ⟨space, more⟩ := List.forall_mem_cons.1 h
    rw [List.cons_append, skip, if_pos space, ih more]

theorem IsTail.isUnbroken (h : IsTail text) : IsUnbroken text := by
  cases h with
  | blank h => exact h.isUnbroken
  | comment h unbroken =>
    exact isUnbroken_append_iff.2
      ⟨h.isUnbroken, isUnbroken_cons_iff.2 ⟨by decide, by decide, unbroken⟩⟩

/-- Nothing is left of a line behind its blanks and its comment. -/
theorem skip_eq_nil_iff (unbroken : IsUnbroken text) : skip text = [] ↔ IsTail text := by
  constructor
  · intro skipped
    induction text with
    | nil => exact .blank isBlank_nil
    | cons c text ih =>
      obtain ⟨-, -, unbroken'⟩ := isUnbroken_cons_iff.1 unbroken
      rw [skip] at skipped
      split at skipped
      · next space =>
        cases ih unbroken' skipped with
        | blank h => exact .blank (h.cons space)
        | comment h comment => exact .comment (h.cons space) comment
      · split at skipped
        · next semicolon =>
          rw [semicolon]
          exact @IsTail.comment [] _ isBlank_nil unbroken'
        · cases skipped
  · intro tail
    cases tail with
    | blank h =>
      have skipped := h.skip_append []
      rwa [List.append_nil] at skipped
    | comment h => exact h.skip_append _

/-- What is left of a line starts behind blanks. -/
theorem exists_blank_of_skip (h : skip text = rest) (left : rest ≠ []) :
    ∃ blank, IsBlank blank ∧ text = blank ++ rest := by
  induction text with
  | nil => exact absurd h.symm left
  | cons c text ih =>
    rw [skip] at h
    split at h
    · next space =>
      obtain ⟨blank, blanks, rfl⟩ := ih h
      exact ⟨c :: blank, blanks.cons space, rfl⟩
    · split at h
      · exact absurd h.symm left
      · exact ⟨[], isBlank_nil, h⟩

end Blanks

section Items

variable {continues : Char → Bool} {text rest behind : List Char} {word : String}

theorem word?_eq_some_iff : word? continues text = some (word, rest) ↔
    IsWord continues word ∧ EndsWord continues rest ∧ text = word.toList ++ rest := by
  constructor
  · intro found
    cases text with
    | nil => cases found
    | cons c more =>
      refine ⟨(word?_eq_some found).1, ?_⟩
      simp only [word?, Option.ite_none_right_eq_some, Option.some.injEq, Prod.mk.injEq] at found
      obtain ⟨-, rfl, rfl⟩ := found
      rw [String.toList_ofList, List.cons_append, List.takeWhile_append_dropWhile]
      refine ⟨fun d first => ?_, rfl⟩
      have stops := List.head?_dropWhile_not continues more
      rw [first] at stops
      exact stops
  · rintro ⟨spelled, ends, rfl⟩
    exact word?_append spelled rest ends

theorem readShape_literal {text : String} (quotable : IsQuotable text) (rest : List Char) :
    readShape ('\'' :: (text.toList ++ '\'' :: rest)) = .ok (some (.literal text, rest)) := by
  obtain ⟨some_text, unquoted, -⟩ := quotable
  have inside : ∀ c ∈ text.toList, decide (c ≠ '\'') = true := by
    intro c among
    apply decide_eq_true
    rintro rfl
    exact unquoted among
  have whole : (text.toList ++ '\'' :: rest).takeWhile (· ≠ '\'') = text.toList := by
    rw [List.takeWhile_append_of_pos inside]
    exact List.append_nil _
  have behind : (text.toList ++ '\'' :: rest).dropWhile (· ≠ '\'') = '\'' :: rest := by
    rw [List.dropWhile_append_of_pos inside]
    rfl
  simp only [readShape, whole, behind, if_neg some_text, String.ofList_toList]

/-- A text that starts with a word has no other shape in front. -/
theorem readShape_eq_word? (h : IsWord continues word) (rest : List Char) :
    readShape (word.toList ++ rest) =
      match word? Char.isAlphanum (word.toList ++ rest) with
      | some (name, after) => .ok (some (.operandClass name, after))
      | none => .ok none := by
  obtain ⟨c, more, spelled, letter, -⟩ := h
  rw [spelled, List.cons_append]
  unfold readShape
  split
  · next quoted =>
    obtain rfl := (List.cons.inj quoted).1
    cases letter
  · next marked =>
    obtain rfl := (List.cons.inj marked).1
    cases letter
  · rfl

/-- A shape that is read is spelled at the front of the text. -/
theorem spelling_of_readShape {shape : WrittenShape} (unbroken : IsUnbroken text)
    (found : readShape text = .ok (some (shape, rest))) :
    shape.IsSpelled ∧ EndsShape shape rest ∧ text = shape.spelling ++ rest := by
  refine ⟨(readShape_eq_some unbroken found).1, ?_⟩
  unfold readShape at found
  split at found
  · next inner =>
    split at found
    · cases found
    · split at found
      · next quote after behind =>
        cases found
        refine ⟨trivial, ?_⟩
        have closes := List.head?_dropWhile_not (· ≠ '\'') inner
        rw [behind] at closes
        obtain rfl : quote = '\'' := by simpa using closes
        calc
          '\'' :: inner = '\'' :: (inner.takeWhile (· ≠ '\'') ++ '\'' :: rest) := by
            rw [← behind, List.takeWhile_append_dropWhile]
          _ = (WrittenShape.literal (String.ofList (inner.takeWhile (· ≠ '\'')))).spelling ++
              rest := by
            rw [WrittenShape.spelling, String.toList_ofList, List.cons_append, List.append_assoc]
            rfl
      · cases found
  · split at found
    · next named =>
      cases found
      obtain ⟨-, ends, rfl⟩ := word?_eq_some_iff.1 named
      exact ⟨ends, rfl⟩
    · cases found
  · split at found
    · next named =>
      cases found
      obtain ⟨-, ends, rfl⟩ := word?_eq_some_iff.1 named
      exact ⟨ends, rfl⟩
    · cases found

/-- A shape is read from its text. -/
theorem readShape_spelling {shape : WrittenShape} (spelled : shape.IsSpelled)
    (ends : EndsShape shape rest) :
    readShape (shape.spelling ++ rest) = .ok (some (shape, rest)) := by
  cases shape with
  | literal text =>
    rw [WrittenShape.spelling, List.cons_append, List.append_assoc]
    exact readShape_literal spelled rest
  | register name =>
    have named := word?_eq_some_iff.2 ⟨spelled, ends, rfl⟩
    simp only [WrittenShape.spelling, List.cons_append, readShape, named]
  | operandClass name =>
    have named := word?_eq_some_iff.2 ⟨spelled, ends, rfl⟩
    rw [WrittenShape.spelling, readShape_eq_word? spelled, named]

theorem Shapes.isUnbroken {shapes : List WrittenShape} (h : Shapes behind shapes text)
    (unbroken : IsUnbroken behind) : IsUnbroken text := by
  induction h with
  | nil h => exact isUnbroken_append_iff.2 ⟨h.isUnbroken, unbroken⟩
  | cons h spelled _ _ ih =>
    exact isUnbroken_append_iff.2
      ⟨h.isUnbroken, isUnbroken_append_iff.2 ⟨spelled.isUnbroken, ih⟩⟩

theorem Shapes.suffix {shapes : List WrittenShape} (h : Shapes behind shapes text) :
    behind <:+ text := by
  induction h with
  | nil => exact List.suffix_append _ behind
  | cons _ _ _ _ ih => exact (ih.trans (List.suffix_append _ _)).trans (List.suffix_append _ _)

theorem Names.isUnbroken {names : List String} (h : Names names text) : IsUnbroken text := by
  induction h with
  | nil h => exact h.isUnbroken
  | cons h spelled _ _ ih =>
    exact isUnbroken_append_iff.2
      ⟨h.isUnbroken, isUnbroken_append_iff.2 ⟨spelled.isUnbroken rfl rfl, ih⟩⟩

theorem Features.isUnbroken {names : List String} (h : Features names text) :
    IsUnbroken text := by
  cases h with
  | none h => exact h.isUnbroken
  | some h listed _ =>
    exact isUnbroken_append_iff.2
      ⟨h.isUnbroken, isUnbroken_cons_iff.2 ⟨by decide, by decide, listed.isUnbroken⟩⟩

/-- The shapes of an entry are read up to its arrow. -/
theorem readShapes_skip_iff {shapes : List WrittenShape} (unbroken : IsUnbroken text) :
    readShapes (skip text) = .ok (shapes, '=' :: behind) ↔ Shapes ('=' :: behind) shapes text := by
  constructor
  · intro read
    generalize left : skip text = here at read
    fun_induction readShapes here generalizing text shapes with
    | case1 => cases read
    | case2 =>
      cases read
      obtain ⟨blank, blanks, rfl⟩ := exists_blank_of_skip left (List.cons_ne_nil _ _)
      exact .nil blanks
    | case3 here shape after found others rest' _ ih =>
      cases read
      have unbroken' : IsUnbroken here := left ▸ unbroken.of_suffix (skip_suffix text)
      obtain ⟨spelled, ends, rfl⟩ := spelling_of_readShape unbroken' found
      obtain ⟨blank, blanks, rfl⟩ := exists_blank_of_skip left
        (List.append_ne_nil_of_left_ne_nil spelled.ne_nil after)
      exact .cons blanks spelled ends (ih (isUnbroken_append_iff.1 unbroken').2 rfl ‹_›)
    | case4 => cases read
  · intro derived
    clear unbroken
    induction derived with
    | nil h =>
      rw [h.skip_append, skip_eq_self (by decide)]
      exact readShapes_of_none rfl
    | cons h spelled ends _ ih =>
      rw [h.skip_append, spelled.skip_eq_self]
      exact readShapes_of_shape (readShape_spelling spelled ends) ih

/-- The two digits of an opcode stand for its value. -/
theorem positionalValue_pair {high low : Char} (first : Text.Radix.hexadecimal.isDigit high)
    (second : Text.Radix.hexadecimal.isDigit low) :
    Text.positionalValue 16 [high, low] = 16 * Text.digitOrdinal high + Text.digitOrdinal low := by
  have value := Text.digitValue_eq_digitOrdinal first
  have value' := Text.digitValue_eq_digitOrdinal second
  simp only [Text.positionalValue, List.foldl_cons, List.foldl_nil, value, value', Nat.zero_mul,
    Nat.zero_add, Nat.mul_comm]

theorem readOpcode_eq_ok_iff {opcode : UInt8} :
    readOpcode text = .ok (opcode, rest) ↔ ∃ blank high low code, IsBlank blank ∧
      Text.Radix.hexadecimal.isDigit high ∧ Text.Radix.hexadecimal.isDigit low ∧
      opcode = UInt8.ofNat (16 * Text.digitOrdinal high + Text.digitOrdinal low) ∧
      text = '=' :: '>' :: (blank ++ '$' :: high :: low :: code) ∧ rest = skip code := by
  constructor
  · intro read
    unfold readOpcode at read
    split at read
    · next text =>
      split at read
      · next digits left =>
        split at read
        · next high low code =>
          split at read
          · next hex =>
            cases read
            obtain ⟨blank, blanks, rfl⟩ := exists_blank_of_skip left (List.cons_ne_nil _ _)
            exact ⟨blank, high, low, code, blanks, hex.1, hex.2,
              congrArg UInt8.ofNat (positionalValue_pair hex.1 hex.2), rfl, rfl⟩
          · cases read
        · cases read
      · cases read
    · cases read
  · rintro ⟨blank, high, low, code, blanks, first, second, rfl, rfl, rfl⟩
    have left : skip (blank ++ '$' :: high :: low :: code) = '$' :: high :: low :: code := by
      rw [blanks.skip_append, skip_eq_self (by decide)]
    simp only [readOpcode, left, first, second, positionalValue_pair first second, and_self,
      if_true]

theorem readNames_of_none (h : word? isFeatureChar text = none) :
    readNames text = ([], text) := by
  rw [readNames]
  split
  · next found => cases found.symm.trans h
  · rfl

/-- The names of features are read up to the end of their line. -/
theorem readNames_skip_iff {names : List String} (unbroken : IsUnbroken text) :
    readNames (skip text) = (names, []) ↔ Names names text := by
  constructor
  · intro read
    generalize left : skip text = here at read
    induction here using readNames.induct generalizing text names with
    | case1 here name after found ih =>
      rw [readNames_of_word found] at read
      obtain ⟨rfl, last⟩ := Prod.mk.inj read
      have unbroken' : IsUnbroken here := left ▸ unbroken.of_suffix (skip_suffix text)
      obtain ⟨spelled, ends, rfl⟩ := word?_eq_some_iff.1 found
      obtain ⟨blank, blanks, rfl⟩ := exists_blank_of_skip left
        (List.append_ne_nil_of_left_ne_nil spelled.toList_ne_nil after)
      exact .cons blanks spelled ends
        (ih (isUnbroken_append_iff.1 unbroken').2 rfl (Prod.ext rfl last))
    | case2 here stuck =>
      rw [readNames_of_none stuck] at read
      obtain ⟨rfl, rfl⟩ := Prod.mk.inj read
      exact .nil ((skip_eq_nil_iff unbroken).1 left)
  · intro derived
    clear unbroken
    induction derived with
    | nil h => rw [(skip_eq_nil_iff h.isUnbroken).2 h, readNames_nil]
    | cons h spelled ends _ ih =>
      rw [h.skip_append, skip_word spelled,
        readNames_of_word (word?_eq_some_iff.2 ⟨spelled, ends, rfl⟩), ih]

/-- The end of an entry is read behind its opcode. -/
theorem readFeatures_skip_iff {names : List String} (unbroken : IsUnbroken text) :
    readFeatures (skip text) = .ok (names, []) ↔ Features names text := by
  constructor
  · intro read
    generalize left : skip text = here at read
    unfold readFeatures at read
    split at read
    · next rest =>
      obtain ⟨blank, blanks, rfl⟩ := exists_blank_of_skip left (List.cons_ne_nil _ _)
      have unbroken' := isUnbroken_cons_iff.1 (isUnbroken_append_iff.1 unbroken).2
      split at read
      · cases read
      · next some_name =>
        have found := Except.ok.inj read
        refine .some blanks ((readNames_skip_iff unbroken'.2.2).1 found) ?_
        rintro rfl
        exact some_name _ found
    · cases read
      exact .none ((skip_eq_nil_iff unbroken).1 left)
  · intro derived
    cases derived with
    | none h =>
      rw [(skip_eq_nil_iff unbroken).2 h]
      rfl
    | some h listed some_name =>
      rw [h.skip_append, skip_eq_self (by decide)]
      have unbroken' := isUnbroken_cons_iff.1 (isUnbroken_append_iff.1 unbroken).2
      exact readFeatures_of_names ((readNames_skip_iff unbroken'.2.2).2 listed) some_name

end Items

section Whole

variable {text : List Char} {entry : Entry} {entries : List Entry}

theorem isUnbroken_of_isDigit {c : Char} (digit : Text.Radix.hexadecimal.isDigit c) :
    c ≠ '\n' ∧ c ≠ '\r' := by
  constructor <;> rintro rfl <;> cases digit

theorem Code.isUnbroken (h : Code entry text) : IsUnbroken text := by
  obtain ⟨blanks, high, low, featured⟩ := h
  have first := isUnbroken_of_isDigit high
  have second := isUnbroken_of_isDigit low
  simp only [isUnbroken_cons_iff, isUnbroken_append_iff]
  exact ⟨by decide, by decide, by decide, by decide, blanks.isUnbroken, by decide, by decide,
    first.1, first.2, second.1, second.2, featured.isUnbroken⟩

theorem IsEntry.isUnbroken (h : IsEntry entry text) : IsUnbroken text := by
  obtain ⟨blanks, spelled, -, shaped, encoded⟩ := h
  simp only [isUnbroken_append_iff]
  exact ⟨blanks.isUnbroken, spelled.isUnbroken rfl rfl, shaped.isUnbroken encoded.isUnbroken⟩

theorem IsLine.isUnbroken {number : Nat} (h : IsLine number entries text) : IsUnbroken text := by
  cases h with
  | blank h => exact h.isUnbroken
  | entry h => exact h.isUnbroken

/-- What stands behind a mnemonic is read as the grammar takes it. -/
theorem readTemplate_skip_iff {number : Nat} {mnemonic : String} (unbroken : IsUnbroken text)
    {written : WrittenTemplate} : readTemplate number mnemonic (skip text) = .ok written ↔
      ∃ entry behind, entry.line = number ∧ entry.mnemonic = mnemonic ∧
        Shapes behind entry.shapes text ∧ Code entry behind ∧ entry.written = written := by
  rw [readTemplate_eq_ok_iff]
  constructor
  · rintro ⟨shapes, text', opcode, text'', features, shaped, encoded, featured, rfl⟩
    obtain ⟨blank, high, low, code, blanks, first, second, rfl, rfl, rfl⟩ :=
      readOpcode_eq_ok_iff.1 encoded
    have derived := (readShapes_skip_iff unbroken).1 shaped
    have unbroken' : IsUnbroken code :=
      unbroken.of_suffix (List.IsSuffix.trans ⟨'=' :: '>' :: (blank ++ ['$', high, low]), by simp⟩
        derived.suffix)
    let entry : Entry := ⟨number, mnemonic, shapes, high, low, features⟩
    exact ⟨entry, _, rfl, rfl, derived,
      .arrow blanks first second ((readFeatures_skip_iff unbroken').1 featured), rfl⟩
  · rintro ⟨entry, behind, rfl, rfl, shaped, encoded, rfl⟩
    obtain ⟨blanks, first, second, featured⟩ := encoded
    exact ⟨entry.shapes, _, entry.opcode, _, entry.features,
      (readShapes_skip_iff unbroken).2 shaped,
      readOpcode_eq_ok_iff.2 ⟨_, _, _, _, blanks, first, second, rfl, rfl, rfl⟩,
      (readFeatures_skip_iff featured.isUnbroken).2 featured, rfl⟩

/-- A line is read as what the grammar takes it for. -/
theorem readLine_eq_ok_iff_line {place : Place} (unbroken : IsUnbroken text)
    {written : Option WrittenTemplate} : readLine place text = .ok written ↔
      ∃ entries, IsLine place.line entries text ∧ written.toList = entries.map Entry.written := by
  simp only [readLine]
  constructor
  · intro read
    split at read
    · next mnemonic rest named =>
      obtain ⟨template, read', ⟨⟩⟩ := bind_eq_ok_iff.1 read
      obtain ⟨spelled, ends, left⟩ := word?_eq_some_iff.1 named
      obtain ⟨blank, blanks, rfl⟩ := exists_blank_of_skip left
        (List.append_ne_nil_of_left_ne_nil spelled.toList_ne_nil rest)
      have unbroken' := (isUnbroken_append_iff.1 (isUnbroken_append_iff.1 unbroken).2).2
      obtain ⟨entry, behind, numbered, rfl, shaped, encoded, rfl⟩ :=
        (readTemplate_skip_iff unbroken').1 read'
      exact ⟨[entry], .entry (.mnemonic blanks spelled ends shaped encoded) numbered, rfl⟩
    · split at read
      · next blank =>
        cases read
        exact ⟨[], .blank ((skip_eq_nil_iff unbroken).1 blank), rfl⟩
      · split at read <;> cases read
  · rintro ⟨entries, line, spelled⟩
    cases line with
    | blank h =>
      obtain rfl := Option.toList_eq_nil_iff.1 spelled
      rw [(skip_eq_nil_iff unbroken).2 h]
      rfl
    | @entry _ entry h numbered =>
      obtain rfl := Option.toList_eq_singleton_iff.1 spelled
      obtain ⟨blanks, named, ends, shaped, encoded⟩ := h
      have unbroken' := shaped.isUnbroken encoded.isUnbroken
      have read := (readTemplate_skip_iff unbroken').2
        ⟨entry, _, numbered, rfl, shaped, encoded, rfl⟩
      rw [blanks.skip_append, skip_word named, word?_eq_some_iff.2 ⟨named, ends, rfl⟩]
      exact bind_eq_ok_iff.2 ⟨entry.written, read, rfl⟩

/-- A line that the grammar takes is read. -/
theorem IsLine.exists_readLine {place : Place} {number : Nat} (h : IsLine number entries text)
    (numbered : place.line = number) : ∃ template, readLine place text = .ok template ∧
      template.toList = entries.map Entry.written := by
  have spelled : ∃ template : Option WrittenTemplate,
      template.toList = entries.map Entry.written := by
    cases h with
    | blank => exact ⟨none, rfl⟩
    | @entry _ entry => exact ⟨some entry.written, rfl⟩
  obtain ⟨template, spelled⟩ := spelled
  exact ⟨template, (readLine_eq_ok_iff_line h.isUnbroken).2 ⟨entries, numbered ▸ h, spelled⟩,
    spelled⟩

theorem ne_nil_of_mem_endings : ∀ ending ∈ endings, ending ≠ [] := by
  decide

theorem not_isUnbroken_of_mem_endings : ∀ ending ∈ endings, ¬ IsUnbroken ending := by
  decide

theorem splitLines_of_isUnbroken (unbroken : IsUnbroken text) :
    splitLines text = [(text, [])] := by
  induction text with
  | nil => rfl
  | cons c text ih =>
    obtain ⟨newline, single, unbroken'⟩ := isUnbroken_cons_iff.1 unbroken
    rw [splitLines, ih unbroken']
    all_goals simp [newline, single]

/-- A line is split off behind its end, but not between a carriage return and a line feed. -/
theorem splitLines_append {line ending : List Char} (unbroken : IsUnbroken line)
    (ended : ending ∈ endings) (apart : ending = ['\r'] → text.head? ≠ some '\n') :
    splitLines (line ++ (ending ++ text)) = (line, ending) :: splitLines text := by
  induction line with
  | nil =>
    simp only [endings, List.mem_cons, List.not_mem_nil, or_false] at ended
    rcases ended with rfl | rfl | rfl
    · rfl
    · rfl
    · cases text with
      | nil => rfl
      | cons c text =>
        rw [List.nil_append, List.singleton_append, splitLines]
        rintro more ⟨⟩
        exact apart rfl rfl
  | cons c line ih =>
    obtain ⟨newline, single, unbroken'⟩ := isUnbroken_cons_iff.1 unbroken
    rw [List.cons_append, splitLines, ih unbroken']
    all_goals simp [newline, single]

/-- A text goes on behind its first line or has no other. -/
theorem isUnbroken_or_exists_line (text : List Char) :
    IsUnbroken text ∨ ∃ line ending rest, IsUnbroken line ∧ ending ∈ endings ∧
      (ending = ['\r'] → rest.head? ≠ some '\n') ∧ text = line ++ (ending ++ rest) := by
  fun_induction splitLines text with
  | case1 => exact .inl isUnbroken_nil
  | case2 rest =>
    exact .inr ⟨[], ['\n'], rest, isUnbroken_nil, by decide, by rintro ⟨⟩, rfl⟩
  | case3 rest =>
    exact .inr ⟨[], ['\r', '\n'], rest, isUnbroken_nil, by decide, by rintro ⟨⟩, rfl⟩
  | case4 rest single =>
    refine .inr ⟨[], ['\r'], rest, isUnbroken_nil, by decide, fun _ found => ?_, rfl⟩
    obtain ⟨more, rfl⟩ := List.head?_eq_some_iff.1 found
    exact single more rfl
  | case5 c rest newline _ single _ _ _ _ ih =>
    rcases ih with unbroken | ⟨line, ending, more, unbroken, ended, apart, rfl⟩
    · exact .inl (isUnbroken_cons_iff.2 ⟨newline, single, unbroken⟩)
    · exact .inr ⟨c :: line, ending, more, isUnbroken_cons_iff.2 ⟨newline, single, unbroken⟩,
        ended, apart, rfl⟩
  | case6 c rest _ _ _ split _ => exact absurd split (splitLines_ne_nil rest)

theorem advance_line (place : Place) (text : List Char) :
    (place.advance text).line = place.line + text.count '\n' := by
  induction text generalizing place with
  | nil => rfl
  | cons c text ih =>
    have first : (place.step c).line = place.line + if c = '\n' then 1 else 0 := by
      unfold Place.step
      split <;> rfl
    calc
      ((place.step c).advance text).line = (place.step c).line + text.count '\n' := ih _
      _ = place.line + (c :: text).count '\n' := by
        rw [first, List.count_cons, beq_eq_decide]
        simp only [decide_eq_true_eq]
        omega

theorem readLines_cons_eq_ok_iff {place : Place} {line ending : List Char}
    {lines : List (List Char × List Char)} {written : List WrittenTemplate} :
    readLines place ((line, ending) :: lines) = .ok written ↔ ∃ template others,
      readLine place line = .ok template ∧
        readLines (place.advance (line ++ ending)) lines = .ok others ∧
        written = template.toList ++ others := by
  simp only [readLines]
  constructor
  · intro read
    split at read
    · cases read
    · next template here =>
      obtain ⟨others, further, ⟨⟩⟩ := bind_eq_ok_iff.1 read
      exact ⟨template, others, here, further, rfl⟩
  · rintro ⟨template, others, here, further, rfl⟩
    rw [here]
    exact bind_eq_ok_iff.2 ⟨others, further, rfl⟩

/-- A line in front of a text is read before it, wherever the line ends. -/
theorem readLines_append {place : Place} {line ending : List Char}
    {template : Option WrittenTemplate} {others : List WrittenTemplate}
    (unbroken : IsUnbroken line) (ended : ending ∈ endings)
    (here : readLine place line = .ok template)
    (further : readLines (place.advance (line ++ ending)) (splitLines text) = .ok others) :
    readLines place (splitLines (line ++ (ending ++ text))) = .ok (template.toList ++ others) := by
  by_cases apart : ending = ['\r'] → text.head? ≠ some '\n'
  · rw [splitLines_append unbroken ended apart]
    exact readLines_cons_eq_ok_iff.2 ⟨template, others, here, further, rfl⟩
  · -- The line feed belongs to the end of this line, and is no line of its own.
    obtain ⟨rfl, first⟩ := Classical.not_imp.1 apart
    obtain ⟨text, rfl⟩ := List.head?_eq_some_iff.1 (not_not.1 first)
    obtain ⟨_, others, ⟨⟩, further, rfl⟩ := readLines_cons_eq_ok_iff.1 further
    have joined : ['\r', '\n'] ∈ endings := by decide
    change readLines place (splitLines (line ++ (['\r', '\n'] ++ text))) = _
    rw [splitLines_append unbroken joined nofun]
    refine readLines_cons_eq_ok_iff.2 ⟨template, others, here, ?_, rfl⟩
    rwa [← Place.advance_append, List.append_assoc] at further

theorem readLines_eq_ok_iff_lines {before : List Char} {written : List WrittenTemplate} :
    readLines (Place.start.advance before) (splitLines text) = .ok written ↔
      ∃ entries, Lines before entries text ∧ written = entries.map Entry.written := by
  have number (before : List Char) :
      (Place.start.advance before).line = 1 + before.count '\n' := advance_line .start before
  constructor
  · intro read
    induction h : text.length using Nat.strong_induction_on generalizing before text written with
    | _ length ih =>
    rcases isUnbroken_or_exists_line text with
      unbroken | ⟨line, ending, rest, unbroken, ended, apart, rfl⟩
    · rw [splitLines_of_isUnbroken unbroken] at read
      obtain ⟨template, _, here, ⟨⟩, rfl⟩ := readLines_cons_eq_ok_iff.1 read
      obtain ⟨entries, line, spelled⟩ := (readLine_eq_ok_iff_line unbroken).1 here
      exact ⟨entries, .last (number before ▸ line), by rw [List.append_nil, spelled]⟩
    · rw [splitLines_append unbroken ended apart] at read
      obtain ⟨template, others, here, further, rfl⟩ := readLines_cons_eq_ok_iff.1 read
      rw [← Place.advance_append] at further
      have shorter : rest.length < length := by
        have some_end := List.length_pos_iff.2 (ne_nil_of_mem_endings ending ended)
        simp only [List.length_append] at h
        omega
      obtain ⟨entries, line, spelled⟩ := (readLine_eq_ok_iff_line unbroken).1 here
      obtain ⟨more, lines, rfl⟩ := ih rest.length shorter further rfl
      exact ⟨entries ++ more, .more (number before ▸ line) ended lines, by
        rw [spelled, List.map_append]⟩
  · rintro ⟨entries, lines, rfl⟩
    induction lines with
    | last line =>
      obtain ⟨template, here, spelled⟩ := line.exists_readLine (number _)
      rw [splitLines_of_isUnbroken line.isUnbroken]
      exact readLines_cons_eq_ok_iff.2 ⟨template, [], here, rfl, by rw [List.append_nil, spelled]⟩
    | more line ended _ ih =>
      obtain ⟨template, here, spelled⟩ := line.exists_readLine (number _)
      rw [Place.advance_append] at ih
      rw [List.map_append, ← spelled]
      exact readLines_append line.isUnbroken ended here ih

/-- The templates of a text are written in its lines. -/
theorem readWritten_eq_ok_iff {text : String} {written : List WrittenTemplate} :
    readWritten text = .ok written ↔
      ∃ entries, Lines [] entries text.toList ∧ written = entries.map Entry.written :=
  @readLines_eq_ok_iff_lines text.toList [] written

/-- A text that is not read is malformed at a place. -/
theorem exists_malformed_of_readWritten {text : String} {error : TableError}
    (h : readWritten text = .error error) :
    ∃ place awaited, error = .malformed place awaited := by
  have lines (place : Place) (lines : List (List Char × List Char))
      (h : readLines place lines = .error error) :
      ∃ place awaited, error = .malformed place awaited := by
    induction lines generalizing place with
    | nil => cases h
    | cons line lines ih =>
      obtain ⟨line, ending⟩ := line
      simp only [readLines] at h
      split at h
      · cases h
        exact ⟨_, _, rfl⟩
      · cases further : readLines (place.advance (line ++ ending)) lines with
        | ok others => rw [further] at h; cases h
        | error stopped =>
          rw [further] at h
          cases h
          exact ih _ further
  exact lines .start _ h

end Whole

end Layout

end Table

end Asm65
