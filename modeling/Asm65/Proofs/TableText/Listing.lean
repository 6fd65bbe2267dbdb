import Asm65.Proofs.Spelling
import Asm65.Proofs.TableText

/-!
# Listing a table

The templates that a text holds can be written, each on a line of its own
(`Table.listing`), and the lines are read back as the same templates in the
same order (`read_listing`).

## Implementation notes

Not every template can be written: a literal may not hold a quote or the end of
a line, and a register of a table is written with a letter in front
(`Template.IsWritable`). A template that is read can be written, and a template
that can be written is read back.
-/

namespace Asm65

namespace Table

/-- Whether a text is a word: a letter, and characters that continue it. -/
def IsWord (continues : Char → Bool) (word : String) : Prop :=
  ∃ c rest, word.toList = c :: rest ∧ c.isAlpha ∧ ∀ d ∈ rest, continues d

/-- Whether a text can stand between two quotes. -/
def IsQuotable (text : String) : Prop :=
  text.toList ≠ [] ∧ '\'' ∉ text.toList ∧ IsUnbroken text.toList

/-- Whether a written shape is spelled like one. -/
def WrittenShape.IsSpelled : WrittenShape → Prop
  | literal text => IsQuotable text
  | register name | operandClass name => IsWord Char.isAlphanum name

end Table

/-- Whether a shape can be written in a table. -/
def Shape.IsWritable : Shape → Prop
  | literal text => Table.IsQuotable text
  | register wanted => wanted ∈ [.a, .x, .y, .s, .p]
  | value _ => True

/-- Whether a template can be written in a table. -/
structure Template.IsWritable (template : Template) : Prop where
  mnemonic : Table.IsWord Char.isAlphanum template.mnemonic
  shapes : ∀ shape ∈ template.shapes, shape.IsWritable
  requires : ∃ features, template.requires = .ofList features

namespace Table

/-- The templates of a table, each on a line of its own. -/
def listing (table : Table) : String :=
  String.join (table.templates.toList.map fun template => template.text ++ "\n")

section Reading

variable {continues : Char → Bool} {text rest line : List Char} {word : String}

theorem IsUnbroken.of_suffix (h : IsUnbroken text) (inside : rest <:+ text) : IsUnbroken rest :=
  ⟨fun among => h.1 (inside.subset among), fun among => h.2 (inside.subset among)⟩

theorem skip_suffix (text : List Char) : skip text <:+ text := by
  induction text with
  | nil => exact List.suffix_rfl
  | cons c rest ih =>
    rw [skip]
    split
    · exact ih.trans (List.suffix_cons c rest)
    · split
      · exact List.nil_suffix
      · exact List.suffix_rfl

theorem word?_eq_some (h : word? continues text = some (word, rest)) :
    IsWord continues word ∧ rest <:+ text := by
  cases text with
  | nil => cases h
  | cons c more =>
    simp only [word?, Option.ite_none_right_eq_some, Option.some.injEq, Prod.mk.injEq] at h
    obtain ⟨letter, rfl, rfl⟩ := h
    refine ⟨⟨c, _, String.toList_ofList, letter, fun d among => ?_⟩, ?_⟩
    · exact List.all_eq_true.1 List.all_takeWhile d among
    · exact (List.dropWhile_suffix continues).trans (List.suffix_cons c more)

/-- The registers with a full name that starts with a letter. -/
theorem mem_of_ofName? {name : String} {register : Register} (h : IsWord continues name)
    (found : Register.ofName? {.canonicalRegisterNamesOnly} name = some register) :
    register ∈ [.a, .x, .y, .s, .p] := by
  obtain ⟨c, more, spelled, letter, -⟩ := h
  have lower : name.toLower.toList = c.toLower :: more.map Char.toLower := by
    rw [Text.toList_toLower, spelled, List.map_cons]
  have other : c.toLower ≠ '_' := by
    intro same
    cases Text.eq_of_toLower_eq same rfl
    cases letter
  simp only [Register.ofName?] at found
  split at found
  · next known =>
    cases found
    rw [lower] at known
    unfold Register.canonical? at known
    split at known
    case h_6 spelling => exact absurd (List.cons.inj spelling).1 other
    case h_7 => cases known
    all_goals
      cases known
      decide
  · rw [if_pos (by decide)] at found
    cases found

/-- A shape of a line is spelled like one, and what follows it ends the line. -/
theorem readShape_eq_some {written : WrittenShape} (unbroken : IsUnbroken text)
    (h : readShape text = .ok (some (written, rest))) : written.IsSpelled ∧ rest <:+ text := by
  unfold readShape at h
  split at h
  · next inner =>
    split at h
    · cases h
    · next some_text =>
      split at h
      · next behind =>
        cases h
        have within : inner.takeWhile (· ≠ '\'') <:+: '\'' :: inner :=
          (List.takeWhile_prefix _).isInfix.trans (List.suffix_cons _ inner).isInfix
        have tail := List.dropWhile_suffix (l := inner) (· ≠ '\'')
        rw [behind] at tail
        refine ⟨?_, (List.suffix_cons _ _).trans (tail.trans (List.suffix_cons _ inner))⟩
        change IsQuotable _
        unfold IsQuotable
        rw [String.toList_ofList]
        refine ⟨some_text, fun quote => ?_, ?_, ?_⟩
        · simpa using List.all_eq_true.1 List.all_takeWhile _ quote
        · exact fun among => unbroken.1 (within.subset among)
        · exact fun among => unbroken.2 (within.subset among)
      · cases h
  · split at h
    · next named =>
      cases h
      obtain ⟨spelled, behind⟩ := word?_eq_some named
      exact ⟨spelled, behind.trans (List.suffix_cons _ _)⟩
    · cases h
  · split at h
    · next named =>
      cases h
      exact word?_eq_some named
    · cases h

theorem WrittenShape.IsSpelled.isWritable {written : WrittenShape} {shape : Shape}
    (h : written.IsSpelled) (names : written.Names shape) : shape.IsWritable := by
  cases written with
  | literal text =>
    cases names_literal_iff.1 names
    exact h
  | register name =>
    obtain ⟨wanted, found, rfl⟩ := names_register_iff.1 names
    exact mem_of_ofName? h found
  | operandClass name =>
    obtain ⟨wanted, -, rfl⟩ := names_operandClass_iff.1 names
    trivial

theorem isWritable_of_readShapes {written : List WrittenShape} {shapes : List Shape}
    (unbroken : IsUnbroken text) (h : readShapes text = .ok (written, rest))
    (names : List.Forall₂ WrittenShape.Names written shapes) :
    ∀ shape ∈ shapes, shape.IsWritable := by
  fun_induction readShapes text generalizing written shapes rest with
  | case1 => cases h
  | case2 =>
    cases h
    cases names
    exact List.forall_mem_nil _
  | case3 text one after read others rest' _ ih =>
    cases h
    obtain ⟨shape, shapes, first, further, rfl⟩ := List.forall₂_cons_left_iff.1 names
    obtain ⟨spelled, behind⟩ := readShape_eq_some unbroken read
    have unbroken' := unbroken.of_suffix ((skip_suffix after).trans behind)
    exact List.forall_mem_cons.2 ⟨spelled.isWritable first, ih unbroken' ‹_› further⟩
  | case4 => cases h

theorem IsWord.toLower (h : IsWord Char.isAlphanum word) :
    IsWord Char.isAlphanum word.toLower := by
  obtain ⟨c, more, spelled, letter, inside⟩ := h
  refine ⟨c.toLower, more.map Char.toLower, ?_, ?_, ?_⟩
  · rw [Text.toList_toLower, spelled, List.map_cons]
  · rcases Text.isLower_toLower_or_eq c with lower | same
    · simp [Char.isAlpha, lower]
    · rwa [← same]
  · intro d among
    obtain ⟨e, among', rfl⟩ := List.mem_map.1 among
    rcases Text.isLower_toLower_or_eq e with lower | same
    · simp [Char.isAlphanum, Char.isAlpha, lower]
    · rw [← same]
      exact inside e among'

/-- A template that a line holds can be written. -/
theorem Holds.isWritable {templates : List Template} (unbroken : IsUnbroken line)
    (h : Holds line templates) : ∀ template ∈ templates, template.IsWritable := by
  cases h with
  | blank => exact List.forall_mem_nil _
  | template named shaped _ _ resolved _ =>
    obtain ⟨mnemonic, behind⟩ := word?_eq_some named
    have inside := (skip_suffix _).trans (behind.trans (skip_suffix line))
    have shapes := isWritable_of_readShapes (unbroken.of_suffix inside) shaped resolved
    rintro template among
    cases List.mem_singleton.1 among
    exact ⟨mnemonic.toLower, shapes, _, rfl⟩

theorem isWritable_of_holds {lines : List (List Char)} {parts : List (List Template)}
    (unbroken : ∀ line ∈ lines, IsUnbroken line) (h : List.Forall₂ Holds lines parts) :
    ∀ template ∈ parts.flatten, template.IsWritable := by
  induction h with
  | nil => exact List.forall_mem_nil _
  | cons here _ ih =>
    obtain ⟨first, others⟩ := List.forall_mem_cons.1 unbroken
    rw [List.flatten_cons, List.forall_mem_append]
    exact ⟨here.isWritable first, ih others⟩

end Reading

section Writing

variable {continues : Char → Bool} {word : String}

theorem word?_append (h : IsWord continues word) (more : List Char)
    (apart : ∀ c ∈ more.head?, continues c = false) :
    word? continues (word.toList ++ more) = some (word, more) := by
  obtain ⟨c, rest, spelled, letter, inside⟩ := h
  have whole : (rest ++ more).takeWhile continues = rest := by
    rw [Token.takeWhile_append_apart apart]
    exact List.takeWhile_eq_self_iff.2 inside
  have behind : (rest ++ more).dropWhile continues = more := by
    rw [List.dropWhile_append_of_pos inside]
    cases more with
    | nil => rfl
    | cons d more => rw [List.dropWhile_cons, apart d rfl, if_neg Bool.false_ne_true]
  rw [spelled, List.cons_append, word?, if_pos letter, whole, behind, ← spelled,
    String.ofList_toList]

theorem skip_eq_self {c : Char} {rest : List Char} (h : c ∉ [' ', '\t', ';']) :
    skip (c :: rest) = c :: rest := by
  simp only [List.mem_cons, List.not_mem_nil, or_false, not_or] at h
  obtain ⟨blank, tab, comment⟩ := h
  rw [skip, if_neg (by simp [blank, tab]), if_neg comment]

theorem skip_word (h : IsWord continues word) (more : List Char) :
    skip (word.toList ++ more) = word.toList ++ more := by
  obtain ⟨c, rest, spelled, letter, -⟩ := h
  rw [spelled, List.cons_append]
  apply skip_eq_self
  intro blank
  simp only [List.mem_cons, List.not_mem_nil, or_false] at blank
  rcases blank with rfl | rfl | rfl <;> cases letter

theorem isWord_operandClass (operandClass : OperandClass) :
    IsWord Char.isAlphanum operandClass.name := by
  cases operandClass <;> exact ⟨_, _, rfl, by decide, List.all_eq_true.1 (by decide)⟩

theorem isWord_feature (feature : Feature) : IsWord isFeatureChar feature.name := by
  cases feature <;> exact ⟨_, _, rfl, by decide, List.all_eq_true.1 (by decide)⟩

/-- A shape is read back from its text, with a blank behind it. -/
theorem exists_readShape {shape : Shape} (h : shape.IsWritable) (more : List Char) :
    skip (shape.text.toList ++ ' ' :: more) = shape.text.toList ++ ' ' :: more ∧
      ∃ written, written.Names shape ∧
        readShape (shape.text.toList ++ ' ' :: more) = .ok (some (written, ' ' :: more)) := by
  cases shape with
  | literal text =>
    obtain ⟨some_text, unquoted, -⟩ := h
    have spelled : (Shape.literal text).text.toList ++ ' ' :: more =
        '\'' :: (text.toList ++ '\'' :: ' ' :: more) := by
      simp [Shape.text]
    have inside : ∀ c ∈ text.toList, decide (c ≠ '\'') = true := by
      intro c among
      apply decide_eq_true
      rintro rfl
      exact unquoted among
    have whole : (text.toList ++ '\'' :: ' ' :: more).takeWhile (· ≠ '\'') = text.toList := by
      rw [List.takeWhile_append_of_pos inside]
      exact List.append_nil _
    have behind : (text.toList ++ '\'' :: ' ' :: more).dropWhile (· ≠ '\'') =
        '\'' :: ' ' :: more := by
      rw [List.dropWhile_append_of_pos inside]
      rfl
    rw [spelled]
    refine ⟨skip_eq_self (by decide), _, WrittenShape.names_literal_iff.2 rfl, ?_⟩
    simp only [readShape, whole, behind, if_neg some_text, String.ofList_toList]
  | register wanted =>
    have named : IsWord Char.isAlphanum wanted.text ∧
        Register.ofName? {.canonicalRegisterNamesOnly} wanted.text = some wanted := by
      simp only [Shape.IsWritable, List.mem_cons, List.not_mem_nil, or_false] at h
      rcases h with rfl | rfl | rfl | rfl | rfl <;>
        exact ⟨⟨_, [], rfl, rfl, List.forall_mem_nil _⟩, by decide +kernel⟩
    have spelled : (Shape.register wanted).text.toList ++ ' ' :: more =
        '%' :: (wanted.text.toList ++ ' ' :: more) := by
      simp [Shape.text]
    have read := word?_append named.1 (' ' :: more) (by simp)
    rw [spelled]
    refine ⟨skip_eq_self (by decide), _,
      WrittenShape.names_register_iff.2 ⟨wanted, named.2, rfl⟩, ?_⟩
    simp only [readShape, read]
  | value wanted =>
    have named := isWord_operandClass wanted
    refine ⟨skip_word named _, _,
      WrittenShape.names_operandClass_iff.2 ⟨wanted, wanted.ofName?_name, rfl⟩, ?_⟩
    have read := word?_append named (' ' :: more) (by simp)
    change readShape (wanted.name.toList ++ ' ' :: more) = _
    unfold readShape
    split
    · next quote => cases wanted <;> cases quote
    · next mark => cases wanted <;> cases mark
    · rw [read]

theorem readShapes_of_shape {text after rest : List Char} {shape : WrittenShape}
    {shapes : List WrittenShape} (h : readShape text = .ok (some (shape, after)))
    (h' : readShapes (skip after) = .ok (shapes, rest)) :
    readShapes text = .ok (shape :: shapes, rest) := by
  rw [readShapes]
  split
  · next found => cases found.symm.trans h
  · next found => cases found.symm.trans h
  · next found =>
    cases found.symm.trans h
    rw [h']

theorem readShapes_of_none {text : List Char} (h : readShape text = .ok none) :
    readShapes text = .ok ([], text) := by
  rw [readShapes]
  split
  · next found => cases found.symm.trans h
  · rfl
  · next found => cases found.symm.trans h

/-- Shapes are read back from their texts with a blank in front of each, up to the arrow. -/
theorem exists_readShapes {shapes : List Shape} (h : ∀ shape ∈ shapes, shape.IsWritable)
    (more : List Char) : ∃ written, List.Forall₂ WrittenShape.Names written shapes ∧
      readShapes (skip (shapes.flatMap (' ' :: ·.text.toList) ++ ' ' :: '=' :: more)) =
        .ok (written, '=' :: more) := by
  induction shapes with
  | nil => exact ⟨[], .nil, readShapes_of_none rfl⟩
  | cons shape shapes ih =>
    obtain ⟨first, others⟩ := List.forall_mem_cons.1 h
    obtain ⟨rest, names, read⟩ := ih others
    have blank : ∃ tail, shapes.flatMap (' ' :: ·.text.toList) ++ ' ' :: '=' :: more =
        ' ' :: tail := by
      cases shapes with
      | nil => exact ⟨_, rfl⟩
      | cons => exact ⟨_, rfl⟩
    obtain ⟨tail, starts⟩ := blank
    obtain ⟨unskipped, written, name, read'⟩ := exists_readShape first tail
    rw [← starts] at unskipped read'
    refine ⟨written :: rest, .cons name names, ?_⟩
    rw [List.flatMap_cons, List.append_assoc, List.cons_append]
    change readShapes (skip (shape.text.toList ++ _)) = _
    rw [unskipped]
    exact readShapes_of_shape read' read

/-- A byte is read back from its two digits. -/
theorem readOpcode_hexByte (byte : UInt8) (more : List Char) :
    readOpcode ('=' :: '>' :: ' ' :: '$' :: ((Text.hexByte byte).toList ++ more)) =
      .ok (byte, skip more) := by
  have digits : ∀ d < 16, Text.Radix.hexadecimal.isDigit (Nat.digitChar d) ∧
      Text.digitValue (Nat.digitChar d) = d := by decide
  have low := digits (byte.toNat % 16) (Nat.mod_lt _ (by decide))
  have high := digits (byte.toNat / 16) (Nat.div_lt_of_lt_mul byte.toNat_lt)
  have value : Text.positionalValue 16
      [Nat.digitChar (byte.toNat / 16), Nat.digitChar (byte.toNat % 16)] = byte.toNat := by
    simp only [Text.positionalValue, List.foldl_cons, List.foldl_nil, low.2, high.2]
    omega
  have same : UInt8.ofNat byte.toNat = byte := by simp
  rw [Text.hexByte, String.toList_ofList]
  change (if _ then _ else _) = _
  rw [if_pos ⟨high.1, low.1⟩, value, same]
  rfl

theorem readNames_of_word {text after : List Char} {name : String}
    (h : word? isFeatureChar text = some (name, after)) :
    readNames text = (name :: (readNames (skip after)).1, (readNames (skip after)).2) := by
  rw [readNames]
  split
  · next found =>
    cases found.symm.trans h
    rfl
  · next found => cases found.symm.trans h

theorem readNames_nil : readNames [] = ([], []) := by
  rw [readNames]
  split
  · next found => cases found
  · rfl

/-- Names are read back from their texts with a blank between each two. -/
theorem readNames_intercalate {names : List String} (some_name : names ≠ [])
    (h : ∀ name ∈ names, IsWord isFeatureChar name) :
    skip (String.intercalate " " names).toList = (String.intercalate " " names).toList ∧
      readNames (String.intercalate " " names).toList = (names, []) := by
  induction names with
  | nil => exact absurd rfl some_name
  | cons name rest ih =>
    obtain ⟨first, others⟩ := List.forall_mem_cons.1 h
    cases rest with
    | nil =>
      have read := word?_append first [] nofun
      have unskipped := skip_word first []
      rw [List.append_nil] at read unskipped
      refine ⟨unskipped, ?_⟩
      exact (readNames_of_word read).trans (by rw [skip, readNames_nil])
    | cons name' rest =>
      obtain ⟨unskipped, read⟩ := ih (List.cons_ne_nil _ _) others
      have spelled : (String.intercalate " " (name :: name' :: rest)).toList =
          name.toList ++ ' ' :: (String.intercalate " " (name' :: rest)).toList := by
        rw [String.intercalate_cons_cons, String.toList_append, String.toList_append,
          List.append_assoc]
        rfl
      have word := word?_append first (' ' :: (String.intercalate " " (name' :: rest)).toList)
        (by simp [isFeatureChar])
      have behind : skip (' ' :: (String.intercalate " " (name' :: rest)).toList) =
          (String.intercalate " " (name' :: rest)).toList := unskipped
      rw [spelled]
      refine ⟨skip_word first _, ?_⟩
      rw [readNames_of_word word, behind, read]

theorem readFeatures_of_names {rest text : List Char} {names : List String}
    (h : readNames (skip rest) = (names, text)) (some_name : names ≠ []) :
    readFeatures (':' :: rest) = .ok (names, text) := by
  cases names with
  | nil => exact absurd rfl some_name
  | cons => simp only [readFeatures, h]

/-- The features of a template are read back from the end of its text. -/
theorem exists_readFeatures (features : List Feature) : ∃ names known,
    readFeatures (skip (if FeatureSet.ofList features = ∅ then ""
        else " : " ++ String.intercalate " " (FeatureSet.ofList features).items).toList) =
      .ok (names, []) ∧
    List.Forall₂ (Feature.ofName? · = some ·) names known ∧
      FeatureSet.ofList known = FeatureSet.ofList features := by
  by_cases none : FeatureSet.ofList features = ∅
  · rw [if_pos none]
    exact ⟨[], [], rfl, .nil, none.symm⟩
  · rw [if_neg none, FeatureSet.items_ofList]
    have same := FeatureSet.ofList_filter_mem features
    generalize Feature.all.filter (· ∈ FeatureSet.ofList features) = known at same ⊢
    have some_name : known.map Feature.name ≠ [] := by
      intro empty
      rw [List.map_eq_nil_iff] at empty
      rw [empty] at same
      exact none same.symm
    have words : ∀ name ∈ known.map Feature.name, IsWord isFeatureChar name := by
      intro name among
      obtain ⟨feature, -, rfl⟩ := List.mem_map.1 among
      exact isWord_feature feature
    obtain ⟨unskipped, read⟩ := readNames_intercalate some_name words
    refine ⟨known.map Feature.name, known, ?_, ?_, same⟩
    · have behind : skip (' ' :: (String.intercalate " " (known.map Feature.name)).toList) =
          (String.intercalate " " (known.map Feature.name)).toList := unskipped
      rw [String.toList_append]
      change readFeatures
        (':' :: ' ' :: (String.intercalate " " (known.map Feature.name)).toList) = _
      exact readFeatures_of_names (behind.symm ▸ read) some_name
    · rw [List.forall₂_map_left_iff, List.forall₂_same]
      exact fun feature _ => feature.ofName?_name

theorem toList_text (template : Template) : template.text.toList =
    template.mnemonic.toList ++ (template.shapes.flatMap (' ' :: ·.text.toList) ++
      ' ' :: '=' :: '>' :: ' ' :: '$' :: ((Text.hexByte template.opcode).toList ++
        (if template.requires = ∅ then ""
          else " : " ++ String.intercalate " " template.requires.items).toList)) := by
  have items (word : String) (shapes : List Shape) :
      (String.intercalate " " (word :: shapes.map Shape.text)).toList =
        word.toList ++ shapes.flatMap (' ' :: ·.text.toList) := by
    induction shapes generalizing word with
    | nil => exact (List.append_nil _).symm
    | cons shape shapes ih =>
      rw [List.map_cons, String.intercalate_cons_cons, String.toList_append, ih,
        String.toList_append, List.append_assoc]
      rfl
  simp only [Template.text, String.toList_append, items, List.append_assoc]
  rfl

/-- A template is read back from its text. -/
theorem holds_text {template : Template} (h : template.IsWritable) :
    Holds template.text.toList [template] := by
  obtain ⟨features, requires⟩ := h.requires
  obtain ⟨names, known, featured, resolved, same⟩ := exists_readFeatures features
  have itself : Template.ofMnemonic template.mnemonic template.shapes template.opcode
      (.ofList known) = template := by
    rw [same, ← requires]
    obtain ⟨mnemonic, shapes, opcode, requires, lower⟩ := template
    simp only [Template.ofMnemonic, lower]
  rw [← requires] at featured
  rw [toList_text]
  generalize (if template.requires = ∅ then ""
    else " : " ++ String.intercalate " " template.requires.items).toList = ending at featured ⊢
  have encoded := readOpcode_hexByte template.opcode ending
  obtain ⟨written, spelled, shaped⟩ := exists_readShapes h.shapes
    ('>' :: ' ' :: '$' :: ((Text.hexByte template.opcode).toList ++ ending))
  generalize (Text.hexByte template.opcode).toList ++ ending = code at encoded shaped ⊢
  have apart : ∀ c ∈ (template.shapes.flatMap (' ' :: ·.text.toList) ++
      ' ' :: '=' :: '>' :: ' ' :: '$' :: code).head?, c.isAlphanum = false := by
    cases template.shapes <;> simp
  have named := word?_append h.mnemonic _ apart
  rw [← skip_word h.mnemonic] at named
  have holds := Holds.template named shaped encoded featured spelled resolved
  rwa [itself] at holds

theorem isUnbroken_append_iff {first second : List Char} :
    IsUnbroken (first ++ second) ↔ IsUnbroken first ∧ IsUnbroken second := by
  simp only [IsUnbroken, List.mem_append, not_or]
  tauto

theorem IsWord.isUnbroken (h : IsWord continues word) (newline : continues '\n' = false)
    (single : continues '\r' = false) : IsUnbroken word.toList := by
  obtain ⟨c, rest, spelled, letter, inside⟩ := h
  rw [spelled]
  refine isUnbroken_cons_iff.2 ⟨?_, ?_, fun among => ?_, fun among => ?_⟩
  · rintro rfl
    cases letter
  · rintro rfl
    cases letter
  · cases newline.symm.trans (inside _ among)
  · cases single.symm.trans (inside _ among)

theorem isUnbroken_intercalate {names : List String}
    (h : ∀ name ∈ names, IsUnbroken name.toList) :
    IsUnbroken (String.intercalate " " names).toList := by
  induction names with
  | nil => exact isUnbroken_nil
  | cons name rest ih =>
    obtain ⟨first, others⟩ := List.forall_mem_cons.1 h
    cases rest with
    | nil => exact first
    | cons name' rest =>
      rw [String.intercalate_cons_cons, String.toList_append, String.toList_append]
      simp only [isUnbroken_append_iff]
      exact ⟨⟨first, by decide⟩, ih others⟩

theorem isUnbroken_shape {shape : Shape} (h : shape.IsWritable) : IsUnbroken shape.text.toList := by
  cases shape with
  | literal text =>
    obtain ⟨-, -, unbroken⟩ := h
    simp only [Shape.text, String.toList_append, isUnbroken_append_iff]
    exact ⟨⟨by decide, unbroken⟩, by decide⟩
  | register wanted =>
    simp only [Shape.IsWritable, List.mem_cons, List.not_mem_nil, or_false] at h
    rcases h with rfl | rfl | rfl | rfl | rfl <;> decide
  | value wanted => exact (isWord_operandClass wanted).isUnbroken rfl rfl

theorem isUnbroken_hexByte (byte : UInt8) : IsUnbroken (Text.hexByte byte).toList := by
  have digits : ∀ d < 16, Nat.digitChar d ≠ '\n' ∧ Nat.digitChar d ≠ '\r' := by decide
  have low := digits (byte.toNat % 16) (Nat.mod_lt _ (by decide))
  have high := digits (byte.toNat / 16) (Nat.div_lt_of_lt_mul byte.toNat_lt)
  rw [Text.hexByte, String.toList_ofList]
  simp only [isUnbroken_cons_iff]
  exact ⟨high.1, high.2, low.1, low.2, isUnbroken_nil⟩

theorem isUnbroken_text {template : Template} (h : template.IsWritable) :
    IsUnbroken template.text.toList := by
  obtain ⟨features, requires⟩ := h.requires
  have shapes : ∀ text ∈ template.shapes.map Shape.text, IsUnbroken text.toList := by
    intro text among
    obtain ⟨shape, stands, rfl⟩ := List.mem_map.1 among
    exact isUnbroken_shape (h.shapes shape stands)
  have items : ∀ item ∈ template.requires.items, IsUnbroken item.toList := by
    rw [requires, FeatureSet.items_ofList]
    intro item among
    obtain ⟨feature, -, rfl⟩ := List.mem_map.1 among
    exact (isWord_feature feature).isUnbroken rfl rfl
  have mnemonic := h.mnemonic.isUnbroken rfl rfl
  simp only [Template.text, String.toList_append, isUnbroken_append_iff]
  refine ⟨⟨⟨isUnbroken_intercalate (List.forall_mem_cons.2 ⟨mnemonic, shapes⟩), by decide⟩,
    isUnbroken_hexByte _⟩, ?_⟩
  split
  · exact isUnbroken_nil
  · rw [String.toList_append, isUnbroken_append_iff]
    exact ⟨by decide, isUnbroken_intercalate items⟩

end Writing

theorem lines_listing {templates : List Template}
    (h : ∀ template ∈ templates, IsUnbroken template.text.toList) :
    lines (String.join (templates.map fun template => template.text ++ "\n")).toList =
      templates.map (·.text.toList) ++ [[]] := by
  induction templates with
  | nil => rfl
  | cons template rest ih =>
    obtain ⟨first, others⟩ := List.forall_mem_cons.1 h
    rw [List.map_cons, String.join_cons, String.toList_append, String.toList_append,
      List.append_assoc]
    rw [List.map_cons, List.cons_append, ← ih others]
    exact lines_append_newline first _

/-- A table is read back from its listing. -/
theorem read_listing {text : String} {table : Table} (h : read text = .ok table) :
    read table.listing = .ok table := by
  obtain ⟨parts, holds, rfl⟩ := read_eq_ok_iff.1 h
  have writable := isWritable_of_holds (isUnbroken_of_mem_lines _) holds
  generalize parts.flatten = templates at writable ⊢
  apply read_eq_ok_iff.2
  refine ⟨templates.map ([·]) ++ [[]], ?_, ?_⟩
  · rw [listing, ofTemplates, List.toList_toArray,
      lines_listing fun template among => isUnbroken_text (writable template among)]
    refine List.rel_append ?_ (.cons (.blank rfl) .nil)
    rw [List.forall₂_map_left_iff, List.forall₂_map_right_iff, List.forall₂_same]
    exact fun template among => holds_text (writable template among)
  · have one_each : (templates.map ([·])).flatten = templates := by
      rw [← List.flatMap_def, List.flatMap_singleton']
    rw [List.flatten_append, one_each]
    exact congrArg ofTemplates (List.append_nil _).symm

/-- Quoted blanks and comments are kept, and features come in their own order. -/
theorem read_listing_quoted : ∃ table : Table,
    read "LDA '; é' %Y IMM8to16=>$0F : mosw65c02 MOS6502 ; note\r\n\nrts => $60" = .ok table ∧
      table.listing = "lda '; é' %y imm8to16 => $0f : mos6502 mosw65c02\nrts => $60\n" ∧
      read "lda '; é' %y imm8to16 => $0f : mos6502 mosw65c02\nrts => $60\n" = .ok table := by
  have h : read "LDA '; é' %Y IMM8to16=>$0F : mosw65c02 MOS6502 ; note\r\n\nrts => $60" =
      .ok (ofTemplates [.ofMnemonic "lda" [.literal "; é", .register .y, .value .imm8To16] 0x0F
        (.ofList [.mosw65c02, .mos6502]), .ofMnemonic "rts" [] 0x60 ∅]) := by
    cbv
  have listed : (ofTemplates [.ofMnemonic "lda" [.literal "; é", .register .y, .value .imm8To16]
      0x0F (.ofList [.mosw65c02, .mos6502]), .ofMnemonic "rts" [] 0x60 ∅]).listing =
        "lda '; é' %y imm8to16 => $0f : mos6502 mosw65c02\nrts => $60\n" := by
    cbv
  have again := read_listing h
  rw [listed] at again
  exact ⟨_, h, listed, again⟩

end Table

end Asm65
