import Asm65.Proofs.TableText.Expression

/-!
# Deriving a table

The entries that the expression of tables derives from a text are those of its lines, and
a text is derived when its lines make up a table (`derive?_eq_some_iff`).
-/

namespace Asm65

namespace Table

namespace WrittenShape

/-- The tree of a shape that is read at the front of a text. -/
def tree (here : List Char) : WrittenShape → Peg.Tree Rule
  | literal text => .node .literal here [.leaf .literalText text.toList]
  | register name => .node .register here [.leaf .registerName name.toList]
  | operandClass name => .leaf .operandClass name.toList

theorem add_tree (entry : Entry) (here : List Char) (shape : WrittenShape) :
    entry.add (shape.tree here) = { entry with shapes := entry.shapes ++ [shape] } := by
  cases shape <;> simp only [tree, Entry.add, leafText, String.ofList_toList]

end WrittenShape

section Trees

variable {trees : List (Peg.Tree Rule)} {shapes : List WrittenShape} {names : List String}
  {high low : Char}

/-- Whether some trees add shapes to an entry, and nothing else. -/
def AddShapes (trees : List (Peg.Tree Rule)) (shapes : List WrittenShape) : Prop :=
  ∀ entry : Entry, trees.foldl Entry.add entry = { entry with shapes := entry.shapes ++ shapes }

theorem addShapes_nil : AddShapes [] [] := by
  intro entry
  rw [List.append_nil]
  rfl

theorem AddShapes.cons (h : AddShapes trees shapes) (here : List Char) (shape : WrittenShape) :
    AddShapes (shape.tree here :: trees) (shape :: shapes) := by
  intro entry
  rw [List.foldl_cons, WrittenShape.add_tree, h, List.append_assoc]
  rfl

/-- The trees of some names. -/
def nameTrees (names : List String) : List (Peg.Tree Rule) :=
  names.map fun name => .leaf .feature name.toList

/-- Whether some trees add names of features to an entry, and nothing else. -/
def AddFeatures (trees : List (Peg.Tree Rule)) (names : List String) : Prop :=
  ∀ entry : Entry,
    trees.foldl Entry.add entry = { entry with features := entry.features ++ names }

theorem addFeatures_nil : AddFeatures [] [] := by
  intro entry
  rw [List.append_nil]
  rfl

theorem addFeatures_requires (here : List Char) (names : List String) :
    AddFeatures [.node .requires here (nameTrees names)] names := by
  have texts : (nameTrees names).map leafText = names := by
    simp [nameTrees, leafText, Function.comp_def]
  intro entry
  change { entry with features := entry.features ++ (nameTrees names).map leafText } = _
  rw [texts]

/-- Whether some trees add the code of an entry and its features, and nothing else. -/
def AddCode (trees : List (Peg.Tree Rule)) (high low : Char) (names : List String) : Prop :=
  ∀ entry : Entry, trees.foldl Entry.add entry =
    { entry with high := high, low := low, features := entry.features ++ names }

theorem AddFeatures.code (h : AddFeatures trees names) (here : List Char) (high low : Char) :
    AddCode (.node .opcode here [.leaf .opcodeHex [high, low]] :: trees) high low names := by
  intro entry
  rw [List.foldl_cons, h]
  rfl

/-- The trees of an entry say what it is. -/
theorem foldl_add_bare {coded : List (Peg.Tree Rule)} (shaped : AddShapes trees shapes)
    (encoded : AddCode coded high low names) (mnemonic : String) (line : Nat) :
    ([(.leaf .mnemonic mnemonic.toList : Peg.Tree Rule)] ++ (trees ++ coded)).foldl Entry.add
        (.bare line) =
      ⟨line, mnemonic, shapes, high, low, names⟩ := by
  rw [List.foldl_append, List.foldl_append, List.foldl_cons, List.foldl_nil, shaped, encoded]
  simp only [Entry.add, Entry.bare, String.ofList_toList, List.nil_append]

end Trees

namespace Rules

open Peg Layout

section Shapes

variable {text rest behind : List Char} {trees : List (Peg.Tree Rule)}
  {shapes : List WrittenShape}

/-- A character that may stand inside quotes. -/
def isQuotableChar (c : Char) : Bool :=
  !(c == '\'') && isInside c

theorem isQuotable_ofList_iff {word : List Char} : IsQuotable (String.ofList word) ↔
    word ≠ [] ∧ ∀ c ∈ word, isQuotableChar c := by
  have inside (c : Char) : isQuotableChar c ↔ c ≠ '\'' ∧ c ≠ '\n' ∧ c ≠ '\r' := by
    simp [isQuotableChar, isInside]
  simp only [IsQuotable, IsUnbroken, String.toList_ofList, inside]
  refine and_congr_right fun _ => ⟨fun none c among => ?_, fun all => ?_⟩
  · exact ⟨fun same => none.1 (same ▸ among), fun same => none.2.1 (same ▸ among),
      fun same => none.2.2 (same ▸ among)⟩
  · exact ⟨fun among => (all _ among).1 rfl, fun among => (all _ among).2.1 rfl,
      fun among => (all _ among).2.2 rfl⟩

theorem run_quotable : quotable.run = (one isQuotableChar : Peg Rule).run :=
  run_absent_one_seq _ _ run_inside

/-- A text inside quotes goes on as far as it can. -/
theorem run_quoted_eq_some_iff :
    (leaf .literalText (seq quotable (many quotable))).run text = some (trees, rest) ↔
      ∃ word, IsQuotable word ∧ (∀ c ∈ rest.head?, isQuotableChar c = false) ∧
        text = word.toList ++ rest ∧ trees = [.leaf .literalText word.toList] := by
  rw [run_leaf_many_eq_some_iff run_quotable run_quotable]
  constructor
  · rintro ⟨c, letters, first, all, ends, rfl, rfl⟩
    have quotable := isQuotable_ofList_iff.2
      ⟨List.cons_ne_nil c letters, List.forall_mem_cons.2 ⟨first, all⟩⟩
    refine ⟨String.ofList (c :: letters), quotable, ends, ?_⟩
    rw [String.toList_ofList]
    exact ⟨rfl, rfl⟩
  · rintro ⟨word, quotable, ends, rfl, rfl⟩
    rw [← String.ofList_toList (s := word), isQuotable_ofList_iff] at quotable
    obtain ⟨some_letter, all⟩ := quotable
    obtain ⟨c, letters, spelled⟩ := List.exists_cons_of_ne_nil some_letter
    rw [spelled] at all ⊢
    obtain ⟨first, others⟩ := List.forall_mem_cons.1 all
    exact ⟨c, letters, first, others, ends, rfl, rfl⟩

theorem run_literal_eq_some_iff : literal.run text = some (trees, rest) ↔
    ∃ word, IsQuotable word ∧ text = '\'' :: (word.toList ++ '\'' :: rest) ∧
      trees = [(WrittenShape.literal word).tree text] := by
  simp only [literal, run_node_eq_some_iff, run_seq_eq_some_iff, run_char_eq_some_iff,
    run_quoted_eq_some_iff]
  constructor
  · rintro ⟨_, ⟨_, _, _, ⟨rfl, rfl⟩, ⟨_, _, _, ⟨word, quotable, -, rfl, rfl⟩, ⟨rfl, rfl⟩, rfl⟩,
      rfl⟩, rfl⟩
    exact ⟨word, quotable, rfl, rfl⟩
  · rintro ⟨word, quotable, rfl, rfl⟩
    have closed : ∀ c ∈ ('\'' :: rest).head?, isQuotableChar c = false := by
      rintro _ ⟨⟩
      rfl
    exact ⟨_, ⟨[], _, _, ⟨rfl, rfl⟩, ⟨_, '\'' :: rest, [], ⟨word, quotable, closed, rfl, rfl⟩,
      ⟨rfl, rfl⟩, rfl⟩, rfl⟩, rfl⟩

theorem run_register_eq_some_iff : register.run text = some (trees, rest) ↔
    ∃ name, IsWord Char.isAlphanum name ∧ EndsWord Char.isAlphanum rest ∧
      text = '%' :: (name.toList ++ rest) ∧ trees = [(WrittenShape.register name).tree text] := by
  simp only [register, run_node_eq_some_iff, run_seq_eq_some_iff, run_char_eq_some_iff,
    run_named_eq_some_iff rfl]
  constructor
  · rintro ⟨_, ⟨_, _, _, ⟨rfl, rfl⟩, ⟨name, spelled, ends, rfl, rfl⟩, rfl⟩, rfl⟩
    exact ⟨name, spelled, ends, rfl, rfl⟩
  · rintro ⟨name, spelled, ends, rfl, rfl⟩
    exact ⟨_, ⟨[], _, _, ⟨rfl, rfl⟩, ⟨name, spelled, ends, rfl, rfl⟩, rfl⟩, rfl⟩

theorem run_operandClass_eq_some_iff :
    (named .operandClass (one Char.isAlphanum)).run text = some (trees, rest) ↔
      ∃ name, IsWord Char.isAlphanum name ∧ EndsWord Char.isAlphanum rest ∧
        text = name.toList ++ rest ∧ trees = [(WrittenShape.operandClass name).tree text] :=
  run_named_eq_some_iff rfl

/-- A word does not start like a literal or a register. -/
theorem run_choice_word {word : String} (spelled : IsWord Char.isAlphanum word)
    (rest : List Char) : literal.run (word.toList ++ rest) = none ∧
      register.run (word.toList ++ rest) = none := by
  obtain ⟨c, letters, starts, letter, -⟩ := spelled
  rw [starts]
  simp only [Option.eq_none_iff_forall_ne_some]
  constructor
  · rintro ⟨trees, more⟩ found
    obtain ⟨_, -, same, -⟩ := run_literal_eq_some_iff.1 found
    obtain rfl := (List.cons.inj same).1
    cases letter
  · rintro ⟨trees, more⟩ found
    obtain ⟨_, -, -, same, -⟩ := run_register_eq_some_iff.1 found
    obtain rfl := (List.cons.inj same).1
    cases letter

/-- What a shape of a rule reads is a shape that is spelled there. -/
theorem run_shape_eq_some_iff : shape.run text = some (trees, rest) ↔
    ∃ written : WrittenShape, written.IsSpelled ∧ EndsShape written rest ∧
      text = written.spelling ++ rest ∧ trees = [written.tree text] := by
  constructor
  · intro read
    rcases run_choice_eq_some_iff.1 read with here | ⟨-, further⟩
    · obtain ⟨word, quotable, rfl, rfl⟩ := run_literal_eq_some_iff.1 here
      exact ⟨.literal word, quotable, trivial, by simp [WrittenShape.spelling], rfl⟩
    · rcases run_choice_eq_some_iff.1 further with here | ⟨-, here⟩
      · obtain ⟨name, spelled, ends, rfl, rfl⟩ := run_register_eq_some_iff.1 here
        exact ⟨.register name, spelled, ends, rfl, rfl⟩
      · obtain ⟨name, spelled, ends, rfl, rfl⟩ := run_operandClass_eq_some_iff.1 here
        exact ⟨.operandClass name, spelled, ends, rfl, rfl⟩
  · rintro ⟨written, spelled, ends, rfl, rfl⟩
    cases written with
    | literal word =>
      refine run_choice_eq_some_iff.2 (.inl (run_literal_eq_some_iff.2 ⟨word, spelled, ?_, rfl⟩))
      simp [WrittenShape.spelling]
    | register name =>
      have read := run_register_eq_some_iff.2 ⟨name, spelled, ends, rfl, rfl⟩
      exact run_choice_eq_some_iff.2 (.inr ⟨rfl, run_choice_eq_some_iff.2 (.inl read)⟩)
    | operandClass name =>
      have read := run_operandClass_eq_some_iff.2 ⟨name, spelled, ends, rfl, rfl⟩
      obtain ⟨unquoted, unmarked⟩ := run_choice_word spelled rest
      exact (run_choice_of_none unquoted).trans ((run_choice_of_none unmarked).trans read)

theorem leave_spelling {written : WrittenShape} (spelled : written.IsSpelled)
    (rest : List Char) : leave (written.spelling ++ rest) = written.spelling ++ rest := by
  cases written with
  | literal word => exact leave_cons (by decide) _
  | register name => exact leave_cons (by decide) _
  | operandClass name => exact leave_word spelled rest

theorem progresses_shape : Progresses shape := by
  intro text trees rest read
  obtain ⟨written, spelled, -, rfl, -⟩ := run_shape_eq_some_iff.1 read
  exact length_lt_of_append spelled.ne_nil

/-- What is read up to an arrow are shapes, in their order. -/
theorem exists_shapes_of_run (h : (gapped shape).run text = some (trees, rest))
    (left : leave rest = '=' :: behind) :
    ∃ shapes, Shapes ('=' :: behind) shapes text ∧ AddShapes trees shapes := by
  have run := gapped_induction (motive := fun text trees rest => leave rest = '=' :: behind →
    ∃ shapes, Shapes ('=' :: behind) shapes text ∧ AddShapes trees shapes)
    progresses_shape ?stop ?more h
  · exact run left
  case stop =>
    intro text _ left
    have left : leave text = ['='] ++ behind := left
    obtain ⟨blank, blanks, rfl⟩ := exists_blank_of_leave left nofun (by decide)
    exact ⟨[], .nil blanks, addShapes_nil⟩
  case more =>
    intro text trees middle others rest read ih left
    obtain ⟨written, spelled, ends, left', rfl⟩ := run_shape_eq_some_iff.1 read
    obtain ⟨blank, blanks, rfl⟩ := exists_blank_of_leave left' spelled.ne_nil spelled.isUnbroken
    obtain ⟨shapes, derived, adds⟩ := ih left
    exact ⟨written :: shapes, .cons blanks spelled ends derived, adds.cons _ written⟩

/-- Shapes in front of an arrow are read. -/
theorem exists_run_of_shapes (h : Shapes ('=' :: behind) shapes text) : ∃ trees rest,
    (gapped shape).run text = some (trees, rest) ∧ leave rest = '=' :: behind ∧
      AddShapes trees shapes := by
  induction h with
  | @nil blank blanks =>
    have left : leave (blank ++ '=' :: behind) = '=' :: behind := by
      rw [leave_blank_append blanks, leave_cons (by decide)]
    have stuck : shape.run (leave (blank ++ '=' :: behind)) = none := by
      rw [left]
      rfl
    exact ⟨[], _, run_gapped_of_none stuck, left, addShapes_nil⟩
  | @cons blank text written shapes blanks spelled ends _ ih =>
    obtain ⟨trees, rest, further, left, adds⟩ := ih
    have read : shape.run (leave (blank ++ (written.spelling ++ text))) =
        some ([written.tree (written.spelling ++ text)], text) := by
      rw [leave_blank_append blanks, leave_spelling spelled]
      exact run_shape_eq_some_iff.2 ⟨written, spelled, ends, rfl, rfl⟩
    exact ⟨_, rest, run_gapped_of_some progresses_shape read further, left, adds.cons _ written⟩

end Shapes

section Features

variable {text rest behind : List Char} {trees : List (Peg.Tree Rule)} {names : List String}

theorem run_feature_eq_some_iff : feature.run text = some (trees, rest) ↔
    ∃ name, IsWord isFeatureChar name ∧ EndsWord isFeatureChar rest ∧
      text = name.toList ++ rest ∧ trees = [.leaf .feature name.toList] := by
  have continuation : (choice (one Char.isAlphanum) (char '-') : Peg Rule).run =
      (one isFeatureChar).run := by
    rw [char, run_choice_one]
    congr
  exact run_named_eq_some_iff continuation

theorem progresses_feature : Progresses feature := by
  intro text trees rest read
  obtain ⟨name, spelled, -, rfl, -⟩ := run_feature_eq_some_iff.1 read
  exact length_lt_of_append spelled.toList_ne_nil

theorem EndsLine.run_feature_eq_none (h : EndsLine text) : feature.run text = none := by
  rw [Option.eq_none_iff_forall_ne_some]
  rintro ⟨trees, rest⟩ found
  obtain ⟨name, spelled, -, rfl, -⟩ := run_feature_eq_some_iff.1 found
  exact spelled.toList_ne_nil (h.eq_nil (spelled.isUnbroken rfl rfl))

/-- The names of features are read up to the end of a line. -/
theorem run_names_iff (h : EndsLine behind) :
    (∃ rest, (gapped feature).run text = some (trees, rest) ∧ leave rest = behind) ↔
      ∃ line names, text = line ++ behind ∧ Names names line ∧ trees = nameTrees names := by
  constructor
  · rintro ⟨rest, read, left⟩
    have run := gapped_induction (motive := fun text trees rest => leave rest = behind →
      ∃ line names, text = line ++ behind ∧ Names names line ∧ trees = nameTrees names)
      progresses_feature ?stop ?more read
    · exact run left
    case stop =>
      rintro text _ rfl
      obtain ⟨skipped, whole, tail, -⟩ := exists_leave text
      exact ⟨skipped, [], whole, .nil tail, rfl⟩
    case more =>
      intro text trees middle others rest here ih left
      obtain ⟨name, spelled, ends, left', rfl⟩ := run_feature_eq_some_iff.1 here
      obtain ⟨blank, blanks, rfl⟩ :=
        exists_blank_of_leave left' spelled.toList_ne_nil (spelled.isUnbroken rfl rfl)
      obtain ⟨line, names, rfl, listed, rfl⟩ := ih left
      refine ⟨blank ++ (name.toList ++ line), name :: names, ?_,
        .cons blanks spelled (endsWord_of_append ends) listed, rfl⟩
      simp only [List.append_assoc]
  · rintro ⟨line, names, rfl, listed, rfl⟩
    induction listed with
    | @nil tail ends =>
      have left : leave (tail ++ behind) = behind := h.leave_tail_append ends
      have stuck : feature.run (leave (tail ++ behind)) = none := by
        rw [left]
        exact h.run_feature_eq_none
      exact ⟨_, run_gapped_of_none stuck, left⟩
    | @cons blank text name names blanks spelled ends _ ih =>
      obtain ⟨rest, further, left⟩ := ih
      have read : feature.run (leave (blank ++ (name.toList ++ text) ++ behind)) =
          some ([.leaf .feature name.toList], text ++ behind) := by
        rw [List.append_assoc, List.append_assoc, leave_blank_append blanks, leave_word spelled]
        exact run_feature_eq_some_iff.2 ⟨name, spelled, h.endsWord_append rfl rfl ends, rfl, rfl⟩
      exact ⟨rest, run_gapped_of_some progresses_feature read further, left⟩

theorem EndsLine.run_requires_eq_none (h : EndsLine text) : requires.run text = none := by
  rw [Option.eq_none_iff_forall_ne_some]
  rintro ⟨trees, rest⟩ found
  obtain ⟨_, inner, -⟩ := run_node_eq_some_iff.1 found
  obtain ⟨_, middle, _, colon, -, -⟩ := run_spaced_eq_some_iff.1 inner
  obtain ⟨rfl, -⟩ := run_char_eq_some_iff.1 colon
  cases h ':' rfl

/-- The features of an entry are read up to the end of its line. -/
theorem exists_features_of_run (h : (opt requires).run (leave text) = some (trees, rest))
    (left : leave rest = behind) (ended : EndsLine behind) : ∃ line names,
      text = line ++ behind ∧ Layout.Features names line ∧ AddFeatures trees names := by
  rcases run_opt_eq_some h with read | ⟨-, rfl, rfl⟩
  · obtain ⟨_, inner, rfl⟩ := run_node_eq_some_iff.1 read
    obtain ⟨_, middle, _, colon, listed, rfl⟩ := run_spaced_eq_some_iff.1 inner
    obtain ⟨starts, rfl⟩ := run_char_eq_some_iff.1 colon
    obtain ⟨_, middle', others, here, further, rfl⟩ := run_spaced_eq_some_iff.1 listed
    obtain ⟨rest', further, left⟩ := (run_repeated_iff progresses_feature).1 ⟨rest, further, left⟩
    have whole := run_gapped_of_some progresses_feature here further
    obtain ⟨line, names, rfl, listed, taken⟩ := (run_names_iff ended).1 ⟨rest', whole, left⟩
    have starts : leave text = [':'] ++ (line ++ behind) := starts
    obtain ⟨blank, blanks, rfl⟩ := exists_blank_of_leave starts nofun (by decide)
    have some_name : names ≠ [] := by
      rintro rfl
      obtain ⟨name, -, -, -, rfl⟩ := run_feature_eq_some_iff.1 here
      cases taken
    refine ⟨blank ++ ':' :: line, names, by simp, .some blanks listed some_name, ?_⟩
    rw [List.nil_append, taken]
    exact addFeatures_requires _ names
  · rw [leave_leave] at left
    obtain ⟨skipped, whole, tail, -⟩ := exists_leave text
    exact ⟨skipped, [], left ▸ whole, .none tail, addFeatures_nil⟩

/-- The features of an entry are read in front of the end of its line. -/
theorem exists_run_of_features {line : List Char} (h : Layout.Features names line)
    (ended : EndsLine behind) : ∃ trees rest,
      (opt requires).run (leave (line ++ behind)) = some (trees, rest) ∧ leave rest = behind ∧
        AddFeatures trees names := by
  cases h with
  | none tail =>
    refine ⟨[], behind, ?_, ended.leave_eq_self, addFeatures_nil⟩
    rw [ended.leave_tail_append tail, run_opt_of_none ended.run_requires_eq_none]
  | @some blank _ _ blanks listed some_name =>
    cases listed with
    | nil => exact absurd rfl some_name
    | @cons blank' text name names blanks' spelled ends tail =>
      obtain ⟨rest, further, left⟩ := (run_repeated_iff progresses_feature).2
        ((run_names_iff ended).2 ⟨text, names, rfl, tail, rfl⟩)
      have colon : leave (blank ++ ':' :: (blank' ++ (name.toList ++ text)) ++ behind) =
          ':' :: (blank' ++ (name.toList ++ (text ++ behind))) := by
        rw [List.append_assoc, leave_blank_append blanks, List.cons_append, List.append_assoc,
          List.append_assoc, leave_cons (by decide)]
      have first : feature.run (leave (blank' ++ (name.toList ++ (text ++ behind)))) =
          some ([.leaf .feature name.toList], text ++ behind) := by
        rw [leave_blank_append blanks', leave_word spelled]
        exact run_feature_eq_some_iff.2
          ⟨name, spelled, ended.endsWord_append rfl rfl ends, rfl, rfl⟩
      have starts (listed : List Char) :
          (char ':' : Peg Rule).run (':' :: listed) = some ([], listed) :=
        run_char_eq_some_iff.2 ⟨rfl, rfl⟩
      have inner := run_spaced (starts _) (run_spaced first further)
      rw [colon]
      exact ⟨_, rest, run_opt_of_some (run_node_eq_some_iff.2 ⟨_, inner, rfl⟩), left,
        addFeatures_requires _ (name :: names)⟩

end Features

section Code

variable {text rest behind : List Char} {trees : List (Peg.Tree Rule)} {entry : Entry}

theorem run_opcode_eq_some_iff : opcode.run text = some (trees, rest) ↔
    ∃ high low, Text.Radix.hexadecimal.isDigit high ∧ Text.Radix.hexadecimal.isDigit low ∧
      text = '$' :: high :: low :: rest ∧
      trees = [.node .opcode text [.leaf .opcodeHex [high, low]]] := by
  have digits (high low : Char) (rest : List Char) :
      (high :: low :: rest).take ((high :: low :: rest).length - rest.length) = [high, low] := by
    have two : (high :: low :: rest).length - rest.length = 2 := by
      simp only [List.length_cons]
      omega
    rw [two]
    rfl
  simp only [opcode, run_node_eq_some_iff, run_seq_eq_some_iff, run_char_eq_some_iff,
    run_leaf_eq_some_iff, hexDigit, run_one_eq_some_iff]
  constructor
  · rintro ⟨_, ⟨_, _, _, ⟨rfl, rfl⟩, ⟨_, ⟨_, _, _, ⟨high, first, rfl, rfl⟩,
      ⟨low, second, rfl, rfl⟩, rfl⟩, rfl⟩, rfl⟩, rfl⟩
    exact ⟨high, low, first, second, rfl, by rw [digits]; rfl⟩
  · rintro ⟨high, low, first, second, rfl, rfl⟩
    exact ⟨_, ⟨_, _, _, ⟨rfl, rfl⟩, ⟨_, ⟨_, _, _, ⟨high, first, rfl, rfl⟩,
      ⟨low, second, rfl, rfl⟩, rfl⟩, rfl⟩, rfl⟩, by rw [digits]; rfl⟩

/-- What is behind the shapes of an entry. -/
def code : Peg Rule :=
  spaced (word ['=', '>']) (spaced opcode (opt requires))

/-- The code of an entry is read up to the end of its line. -/
theorem exists_code_of_run (h : code.run text = some (trees, rest)) (left : leave rest = behind)
    (ended : EndsLine behind) : ∃ line high low names, text = '=' :: (line ++ behind) ∧
      (∀ number mnemonic shapes, Code ⟨number, mnemonic, shapes, high, low, names⟩ ('=' :: line)) ∧
      AddCode trees high low names := by
  obtain ⟨_, middle, _, arrow, encoded, rfl⟩ := run_spaced_eq_some_iff.1 h
  obtain ⟨rfl, rfl⟩ := run_word_eq_some_iff.1 arrow
  obtain ⟨_, middle', _, byte, featured, rfl⟩ := run_spaced_eq_some_iff.1 encoded
  obtain ⟨high, low, first, second, starts, rfl⟩ := run_opcode_eq_some_iff.1 byte
  obtain ⟨line, names, rfl, listed, adds⟩ := exists_features_of_run featured left ended
  have starts : leave middle = ['$'] ++ high :: low :: (line ++ behind) := starts
  obtain ⟨blank, blanks, rfl⟩ := exists_blank_of_leave starts nofun (by decide)
  exact ⟨'>' :: (blank ++ '$' :: high :: low :: line), high, low, names, by simp,
    fun _ _ _ => .arrow blanks first second listed, adds.code _ high low⟩

/-- The code of an entry is read in front of the end of its line. -/
theorem exists_run_of_code {line : List Char} (h : Code entry line) (ended : EndsLine behind) :
    ∃ trees rest, code.run (line ++ behind) = some (trees, rest) ∧ leave rest = behind ∧
      AddCode trees entry.high entry.low entry.features := by
  obtain @⟨blank, text, blanks, first, second, listed⟩ := h
  obtain ⟨trees, rest, further, left, adds⟩ := exists_run_of_features listed ended
  have read : opcode.run (leave (blank ++ '$' :: entry.high :: entry.low :: text ++ behind)) =
      some ([.node .opcode ('$' :: entry.high :: entry.low :: (text ++ behind))
        [.leaf .opcodeHex [entry.high, entry.low]]], text ++ behind) := by
    rw [List.append_assoc, leave_blank_append blanks]
    exact run_opcode_eq_some_iff.2 ⟨_, _, first, second, leave_cons (by decide) _, rfl⟩
  exact ⟨_, rest, run_spaced (run_word _ _) (run_spaced read further), left, adds.code _ _ _⟩

end Code

section Entries

variable {text rest behind : List Char} {trees : List (Peg.Tree Rule)}
  {shapes : List WrittenShape}

theorem endsShape_of_append {written : WrittenShape} (h : EndsShape written (text ++ behind)) :
    EndsShape written text := by
  cases written with
  | literal => trivial
  | register | operandClass => exact endsWord_of_append h

theorem EndsLine.endsShape_append {written : WrittenShape} (h : EndsLine behind)
    (ends : EndsShape written text) : EndsShape written (text ++ behind) := by
  cases written with
  | literal => trivial
  | register | operandClass => exact h.endsWord_append rfl rfl ends

/-- What stands behind a line does not matter to the shapes in it. -/
theorem shapes_append_iff {middle : List Char} (ended : EndsLine behind) :
    Shapes (middle ++ behind) shapes text ↔
      ∃ line, text = line ++ behind ∧ Shapes middle shapes line := by
  constructor
  · intro derived
    induction derived with
    | @nil blank blanks => exact ⟨blank ++ middle, (List.append_assoc ..).symm, .nil blanks⟩
    | @cons blank _ written _ blanks spelled ends _ ih =>
      obtain ⟨line, rfl, derived⟩ := ih
      exact ⟨blank ++ (written.spelling ++ line), by simp only [List.append_assoc],
        .cons blanks spelled (endsShape_of_append ends) derived⟩
  · rintro ⟨line, rfl, derived⟩
    induction derived with
    | nil blanks =>
      rw [List.append_assoc]
      exact .nil blanks
    | cons blanks spelled ends _ ih =>
      rw [List.append_assoc, List.append_assoc]
      exact .cons blanks spelled (ended.endsShape_append ends) ih

/-- An entry is read up to the end of its line. -/
theorem exists_entry_of_run (h : entry.run text = some (trees, rest)) (left : leave rest = behind)
    (ended : EndsLine behind) : ∃ line inner, line ≠ [] ∧ text = line ++ behind ∧
      trees = [.node .entry text inner] ∧ ∀ number blank, IsBlank blank →
        IsEntry (inner.foldl Entry.add (.bare number)) (blank ++ line) ∧
          (inner.foldl Entry.add (.bare number)).line = number := by
  obtain ⟨_, inner, rfl⟩ := run_node_eq_some_iff.1 h
  obtain ⟨_, middle, _, word, further, rfl⟩ := run_spaced_eq_some_iff.1 inner
  obtain ⟨mnemonic, spelled, ends, rfl, rfl⟩ := (run_named_eq_some_iff rfl).1 word
  obtain ⟨_, middle', _, shaped, encoded, rfl⟩ := run_spaced_eq_some_iff.1 further
  obtain ⟨code, high, low, names, arrow, coded, adds⟩ := exists_code_of_run encoded left ended
  obtain ⟨last, shaped, left'⟩ := (run_repeated_iff progresses_shape).1 ⟨middle', shaped, arrow⟩
  obtain ⟨shapes, derived, adds'⟩ := exists_shapes_of_run shaped left'
  have whole : Shapes ('=' :: code ++ behind) shapes middle := derived
  obtain ⟨line, rfl, derived'⟩ := (shapes_append_iff ended).1 whole
  refine ⟨mnemonic.toList ++ line, _, ?_, (List.append_assoc ..).symm, rfl, ?_⟩
  · exact List.append_ne_nil_of_left_ne_nil spelled.toList_ne_nil line
  · intro number blank blanks
    rw [foldl_add_bare adds' adds]
    exact ⟨.mnemonic blanks spelled (endsWord_of_append ends) derived'
      (coded number mnemonic shapes), rfl⟩

/-- An entry is read in front of the end of its line. -/
theorem exists_run_of_entry {written : Entry} {line : List Char} (h : IsEntry written line)
    (ended : EndsLine behind) : ∃ blank here inner rest, IsBlank blank ∧
      line ++ behind = blank ++ here ∧ leave here = here ∧
      entry.run here = some ([.node .entry here inner], rest) ∧ leave rest = behind ∧
      inner.foldl Entry.add (.bare written.line) = written := by
  obtain @⟨blank, text, middle, blanks, spelled, ends, derived, coded⟩ := h
  obtain ⟨codes, rest, encoded, left, adds⟩ := exists_run_of_code coded ended
  obtain ⟨code, rfl⟩ : ∃ code, middle = '=' :: code := by
    obtain ⟨-, -, -, -⟩ := coded
    exact ⟨_, rfl⟩
  have derived : Shapes ('=' :: (code ++ behind)) written.shapes (text ++ behind) :=
    (shapes_append_iff ended).2 ⟨text, rfl, derived⟩
  obtain ⟨trees, last, shaped, left', adds'⟩ := exists_run_of_shapes derived
  obtain ⟨last, shaped, left'⟩ := (run_repeated_iff progresses_shape).2 ⟨last, shaped, left'⟩
  have word : (named .mnemonic (one Char.isAlphanum)).run
      (written.mnemonic.toList ++ (text ++ behind)) =
        some ([.leaf .mnemonic written.mnemonic.toList], text ++ behind) :=
    (run_named_eq_some_iff rfl).2
      ⟨written.mnemonic, spelled, ended.endsWord_append rfl rfl ends, rfl, rfl⟩
  rw [List.cons_append, ← left'] at encoded
  have inner := run_spaced word (run_spaced shaped encoded)
  refine ⟨blank, written.mnemonic.toList ++ (text ++ behind), _, rest, blanks, ?_,
    leave_word spelled _, run_node_eq_some_iff.2 ⟨_, inner, rfl⟩, left,
    foldl_add_bare adds' adds written.mnemonic written.line⟩
  simp only [List.append_assoc]

end Entries

section Lines

variable {text rest behind before : List Char} {trees : List (Peg.Tree Rule)}
  {entries : List Entry}

theorem IsBlank.count_newline {blank : List Char} (h : IsBlank blank) : blank.count '\n' = 0 :=
  List.count_eq_zero.2 h.isUnbroken.1

theorem ofTree_node {blank : List Char} (blanks : IsBlank blank) (before here : List Char)
    (rule : Rule) (inner : List (Peg.Tree Rule)) :
    Entry.ofTree (before ++ (blank ++ here)) (.node rule here inner) =
      inner.foldl Entry.add (.bare (1 + before.count '\n')) := by
  have front : (before ++ (blank ++ here)).take
      ((before ++ (blank ++ here)).length - here.length) = before ++ blank := by
    rw [← List.append_assoc, List.length_append, Nat.add_sub_cancel, List.take_left]
  rw [Entry.ofTree, front, List.count_append, IsBlank.count_newline blanks, Nat.add_zero]

/-- A line is read up to its end. -/
theorem exists_line_of_run (h : (opt entry).run (leave text) = some (trees, rest))
    (left : leave rest = behind) (ended : EndsLine behind) :
    ∃ line, text = line ++ behind ∧ ∀ before,
      IsLine (1 + before.count '\n') (trees.map (Entry.ofTree (before ++ text))) line := by
  rcases run_opt_eq_some h with read | ⟨-, rfl, rfl⟩
  · obtain ⟨line, inner, some_text, left', rfl, isEntry⟩ := exists_entry_of_run read left ended
    have unbroken : IsUnbroken line := (isEntry 0 [] isBlank_nil).1.isUnbroken
    obtain ⟨blank, blanks, rfl⟩ := exists_blank_of_leave left' some_text unbroken
    refine ⟨blank ++ line, (List.append_assoc ..).symm, fun before => ?_⟩
    rw [left', List.map_singleton, ofTree_node blanks]
    exact .entry (isEntry _ _ blanks).1 (isEntry _ _ blanks).2
  · rw [leave_leave] at left
    obtain ⟨skipped, whole, tail, -⟩ := exists_leave text
    exact ⟨skipped, left ▸ whole, fun before => .blank tail⟩

theorem EndsLine.run_entry_eq_none (h : EndsLine text) : entry.run text = none := by
  rw [Option.eq_none_iff_forall_ne_some]
  rintro ⟨trees, rest⟩ found
  obtain ⟨_, inner, -⟩ := run_node_eq_some_iff.1 found
  obtain ⟨_, middle, _, word, -, -⟩ := run_spaced_eq_some_iff.1 inner
  obtain ⟨mnemonic, spelled, -, rfl, -⟩ := (run_named_eq_some_iff rfl).1 word
  exact spelled.toList_ne_nil (h.eq_nil (spelled.isUnbroken rfl rfl))

/-- A line is read in front of its end. -/
theorem exists_run_of_line {line : List Char} (h : IsLine (1 + before.count '\n') entries line)
    (ended : EndsLine behind) : ∃ trees rest,
      (opt entry).run (leave (line ++ behind)) = some (trees, rest) ∧ leave rest = behind ∧
        trees.map (Entry.ofTree (before ++ (line ++ behind))) = entries := by
  cases h with
  | blank tail =>
    refine ⟨[], behind, ?_, ended.leave_eq_self, rfl⟩
    rw [ended.leave_tail_append tail, run_opt_of_none ended.run_entry_eq_none]
  | entry isEntry numbered =>
    obtain ⟨blank, here, inner, rest, blanks, whole, left, read, left', same⟩ :=
      exists_run_of_entry isEntry ended
    refine ⟨[.node .entry here inner], rest, ?_, left', ?_⟩
    · rw [whole, leave_blank_append blanks, left]
      exact run_opt_of_some read
    · rw [whole, List.map_singleton, ofTree_node blanks, ← numbered, same]

theorem endsLine_of_mem_endings {ending : List Char} (ended : ending ∈ endings)
    (text : List Char) : EndsLine (ending ++ text) := by
  simp only [endings, List.mem_cons, List.not_mem_nil, or_false] at ended
  rcases ended with rfl | rfl | rfl <;> (rintro _ ⟨⟩; rfl)

/-- A line of the table and the end of that line. -/
def line : Peg Rule :=
  spaced (opt entry) newline

theorem run_line_eq_some (h : line.run (leave text) = some (trees, rest)) :
    ∃ written ending, text = written ++ (ending ++ rest) ∧ ending ∈ endings ∧ ∀ before,
      IsLine (1 + before.count '\n') (trees.map (Entry.ofTree (before ++ text))) written := by
  obtain ⟨_, middle, _, read, ends, rfl⟩ := run_spaced_eq_some_iff.1 h
  obtain ⟨rfl, ending, ended, left⟩ := run_newline_eq_some ends
  obtain ⟨written, rfl, isLine⟩ := exists_line_of_run read left (endsLine_of_mem_endings ended rest)
  exact ⟨written, ending, rfl, ended, by rwa [List.append_nil]⟩

theorem progresses_line : Progresses line := by
  intro text trees rest read
  obtain ⟨_, middle, _, here, ends, -⟩ := run_spaced_eq_some_iff.1 read
  obtain ⟨-, ending, ended, left⟩ := run_newline_eq_some ends
  have some_end := List.length_pos_iff.2 (ne_nil_of_mem_endings ending ended)
  calc
    rest.length < (ending ++ rest).length := by rw [List.length_append]; omega
    _ = (leave middle).length := by rw [left]
    _ ≤ middle.length := length_leave_le middle
    _ ≤ text.length := length_run_le here

theorem run_absent_any_eq_some_iff : (absent any : Peg Rule).run text = some (trees, rest) ↔
    text = [] ∧ rest = [] ∧ trees = [] := by
  cases text with
  | nil => simp [any, run, and_comm, eq_comm]
  | cons c text =>
    constructor
    · rintro ⟨⟩
    · rintro ⟨⟨⟩, -⟩

/-- Whether the lines of a text are read as some entries, and the last of them as well, behind a
text that was read before. -/
def ReadsAs (before text : List Char) (entries : List Entry) : Prop :=
  ∃ first middle last left, (gapped line).run text = some (first, middle) ∧
    (opt entry).run (leave middle) = some (last, left) ∧ leave left = [] ∧
    (first ++ last).map (Entry.ofTree (before ++ text)) = entries

/-- A table is read line by line, and what is left is the last line. -/
theorem derive?_eq_some_iff_readsAs : derive? text = some entries ↔ ReadsAs [] text entries := by
  have lines (first : List (Peg.Tree Rule)) (behind : List Char) :
      (∃ rest, (repeated line).run (leave text) = some (first, rest) ∧ leave rest = behind) ↔
        ∃ rest, (gapped line).run text = some (first, rest) ∧ leave rest = behind :=
    run_repeated_iff progresses_line
  simp only [derive?, table, Option.map_eq_some_iff, Prod.exists, run_spaced_eq_some_iff,
    run_absent_any_eq_some_iff]
  constructor
  · rintro ⟨_, _, ⟨_, _, _, ⟨⟩, ⟨first, middle, _, read, ⟨last, left, _, here, ⟨done, rfl, rfl⟩,
      rfl⟩, rfl⟩, rfl⟩, rfl⟩
    obtain ⟨middle', read', same⟩ := (lines _ _).1 ⟨middle, read, rfl⟩
    exact ⟨first, middle', last, left, read', same ▸ here, done, by simp⟩
  · rintro ⟨first, middle, last, left, read, here, done, rfl⟩
    obtain ⟨middle', read', same⟩ := (lines _ _).2 ⟨middle, read, rfl⟩
    exact ⟨_, [], ⟨[], text, _, rfl, ⟨first, middle', _, read', ⟨last, left, [], same ▸ here,
      ⟨done, rfl, rfl⟩, rfl⟩, rfl⟩, rfl⟩, by simp⟩

/-- The lines that are read stand at the front of the text. -/
theorem exists_lines_of_run (h : (gapped line).run text = some (trees, rest)) :
    ∀ before, ∃ read, text = read ++ rest ∧ ∀ others, Lines (before ++ read) others rest →
      Lines before (trees.map (Entry.ofTree (before ++ text)) ++ others) text := by
  refine gapped_induction (motive := fun text trees rest => ∀ before, ∃ read,
    text = read ++ rest ∧ ∀ others, Lines (before ++ read) others rest →
      Lines before (trees.map (Entry.ofTree (before ++ text)) ++ others) text)
    progresses_line ?stop ?more h
  case stop =>
    intro text _ before
    refine ⟨[], rfl, fun others lines => ?_⟩
    rwa [List.append_nil] at lines
  case more =>
    intro text trees middle others rest read ih before
    obtain ⟨written, ending, rfl, ended, isLine⟩ := run_line_eq_some read
    obtain ⟨behind, rfl, further⟩ := ih (before ++ (written ++ ending))
    refine ⟨written ++ (ending ++ behind), by simp only [List.append_assoc], fun last lines => ?_⟩
    rw [List.map_append, List.append_assoc]
    refine .more (isLine before) ended ?_
    have tail := further last (by simpa only [List.append_assoc] using lines)
    simpa only [List.append_assoc] using tail

/-- What is read are the lines of the text. -/
theorem ReadsAs.lines (h : ReadsAs before text entries) : Lines before entries text := by
  obtain ⟨first, middle, last, left, read, here, done, rfl⟩ := h
  have ended : EndsLine [] := nofun
  obtain ⟨front, rfl, tail⟩ := exists_lines_of_run read before
  obtain ⟨written, rfl, isLine⟩ := exists_line_of_run here done ended
  have last := isLine (before ++ front)
  rw [List.append_assoc, List.append_nil] at last
  rw [List.append_nil] at tail ⊢
  rw [List.map_append]
  exact tail _ (.last last)

theorem exists_run_of_line_append {written ending : List Char}
    (h : IsLine (1 + before.count '\n') entries written) (ended : ending ∈ endings)
    (apart : ending = ['\r'] → text.head? ≠ some '\n') : ∃ trees,
      line.run (leave (written ++ (ending ++ text))) = some (trees, text) ∧
        trees.map (Entry.ofTree (before ++ (written ++ (ending ++ text)))) = entries := by
  have behind := endsLine_of_mem_endings ended text
  obtain ⟨trees, rest, read, left, same⟩ := exists_run_of_line h behind
  have ends : newline.run (leave rest) = some ([], text) := by
    rw [left]
    exact run_newline ended apart
  exact ⟨trees, List.append_nil trees ▸ run_spaced read ends, same⟩

/-- The last line of a text is read. -/
theorem readsAs_of_isLine (h : IsLine (1 + before.count '\n') entries text) :
    ReadsAs before text entries := by
  have ended : EndsLine [] := nofun
  obtain ⟨last, left, read, done, same⟩ := exists_run_of_line h ended
  rw [List.append_nil] at read same
  have stuck : line.run (leave text) = none := by
    rw [Option.eq_none_iff_forall_ne_some]
    rintro ⟨trees, rest⟩ found
    obtain ⟨written, ending, rfl, ended, -⟩ := run_line_eq_some found
    obtain ⟨-, unbroken⟩ := isUnbroken_append_iff.1 h.isUnbroken
    exact not_isUnbroken_of_mem_endings ending ended (isUnbroken_append_iff.1 unbroken).1
  exact ⟨[], text, last, left, run_gapped_of_none stuck, read, done, same⟩

/-- A line and its end are read in front of other lines. -/
theorem ReadsAs.cons {written ending : List Char} {others : List Entry}
    (tail : ReadsAs (before ++ (written ++ ending)) text others)
    (h : IsLine (1 + before.count '\n') entries written) (ended : ending ∈ endings)
    (apart : ending = ['\r'] → text.head? ≠ some '\n') :
    ReadsAs before (written ++ (ending ++ text)) (entries ++ others) := by
  obtain ⟨first, middle, last, left, read, here, done, rfl⟩ := tail
  obtain ⟨trees, step, rfl⟩ := exists_run_of_line_append h ended apart
  refine ⟨trees ++ first, middle, last, left, run_gapped_of_some progresses_line step read, here,
    done, ?_⟩
  simp only [List.map_append, List.append_assoc]

/-- A line feed in front is a blank line. -/
theorem ReadsAs.of_newline (h : ReadsAs before ('\n' :: text) entries) :
    ReadsAs (before ++ ['\n']) text entries := by
  obtain ⟨first, middle, last, left, read, here, done, rfl⟩ := h
  have blank : IsLine (1 + before.count '\n') [] [] := .blank (.blank isBlank_nil)
  have ended : ['\n'] ∈ endings := by decide
  obtain ⟨trees, step, none⟩ : ∃ trees, line.run (leave ([] ++ (['\n'] ++ text))) =
      some (trees, text) ∧ trees.map (Entry.ofTree (before ++ ([] ++ (['\n'] ++ text)))) = [] :=
    exists_run_of_line_append blank ended nofun
  obtain rfl := List.map_eq_nil_iff.1 none
  obtain ⟨others, rest, further⟩ := exists_run_gapped line text
  have whole := run_gapped_of_some progresses_line step further
  obtain ⟨rfl, rfl⟩ := Prod.mk.inj (Option.some.inj (whole.symm.trans read))
  exact ⟨others, rest, last, left, further, here, done, by rw [List.append_assoc]; rfl⟩

/-- The lines of a text are read. -/
theorem readsAs_of_lines (h : Lines before entries text) : ReadsAs before text entries := by
  induction h with
  | last isLine => exact readsAs_of_isLine isLine
  | @more before written ending text entries others isLine ended _ ih =>
    by_cases apart : ending = ['\r'] → text.head? ≠ some '\n'
    · exact ih.cons isLine ended apart
    · -- The line feed ends this line, and is not the end of a blank one.
      obtain ⟨rfl, starts⟩ := Classical.not_imp.1 apart
      obtain ⟨text, rfl⟩ := List.head?_eq_some_iff.1 (not_not.1 starts)
      have joined : ['\r', '\n'] ∈ endings := by decide
      have tail := ih.of_newline
      rw [List.append_assoc, List.append_assoc] at tail
      have tail : ReadsAs (before ++ (written ++ ['\r', '\n'])) text others := tail
      exact tail.cons isLine joined nofun

/-- The entries of a text are derived by the expression of tables when they are the entries of
its lines. -/
theorem derive?_eq_some_iff : derive? text = some entries ↔ Lines [] entries text :=
  derive?_eq_some_iff_readsAs.trans ⟨ReadsAs.lines, readsAs_of_lines⟩

end Lines

end Rules

end Table

end Asm65
