import Asm65.Feature
import Asm65.Proofs.LetterCase

/-!
# Feature lists

A text that lists features is read as the set of these features, in whatever order,
letter case and number they stand (`FeatureSet.parse_lists`). The exception is a text
that is nothing but the name of a chip which comes with more features than the one of
its name. It is read as the chip.

## Implementation notes

`Lists` builds the text from its parts, without the splitting and the trimming that
the reader does. What a list is read as without regard to chips depends on its
features only (`ofParts_parts`), so a text does not list two sets.
-/

namespace Asm65

namespace Feature

/-- The features that share their name with a chip of more features. -/
def namesakes : List Feature :=
  [mos6502x, mos65c02, mosr65c02, mosw65c02, mosw65816]

variable {name : String} {feature : Feature}

theorem ofName?_eq_some_iff :
    ofName? name = some feature ↔ (name.toLower, feature) ∈ names := by
  have functional : ∀ entry ∈ names, names.lookup entry.1 = some entry.2 :=
    of_decide_eq_true (by cbv)
  exact ⟨Text.mem_of_lookup, functional (name.toLower, feature)⟩

/-- The name of a feature holds no white space and no plus sign. -/
theorem not_mem_of_ofName? (h : ofName? name = some feature) :
    name.toList ≠ [] ∧ ∀ c ∈ name.toList, Text.isWhitespace c = false ∧ c ≠ '+' := by
  have lower : ∀ entry ∈ names, entry.1.toList ≠ [] ∧
      entry.1.toList.all fun c => !Text.isWhitespace c && c != '+' := by decide +kernel
  have spaces : ∀ c : Char, Text.isWhitespace c.toLower = Text.isWhitespace c :=
    Text.apply_toLower _ (by decide +kernel)
  obtain ⟨some_char, inside⟩ := lower _ (ofName?_eq_some_iff.1 h)
  rw [Text.toList_toLower] at some_char inside
  refine ⟨fun none => some_char (by rw [none, List.map_nil]), fun c among => ?_⟩
  have letter := List.all_eq_true.1 inside _ (List.mem_map_of_mem among)
  rw [spaces, Bool.and_eq_true, Bool.not_eq_true'] at letter
  refine ⟨letter.1, ?_⟩
  rintro rfl
  cases letter.2

end Feature

namespace FeatureSet

/-- What one part of a feature list names: nothing if it is empty, and else the feature whose name
it is, with white space around it. -/
inductive PartNames : String → List Feature → Prop
  | empty : PartNames "" []
  | feature {before name after : String} {feature : Feature}
      (blank : ∀ c ∈ before.toList, Text.isWhitespace c)
      (named : Feature.ofName? name = some feature)
      (blank' : ∀ c ∈ after.toList, Text.isWhitespace c) :
      PartNames (before ++ name ++ after) [feature]

/-- The features that a text lists, part by part, with a plus sign between two parts. -/
inductive Lists : String → List Feature → Prop
  | part {text : String} {features : List Feature} (h : PartNames text features) :
      Lists text features
  | more {part text : String} {features features' : List Feature} (h : PartNames part features)
      (tail : Lists text features') : Lists (part ++ "+" ++ text) (features ++ features')

/-- Whether a text is nothing but the name of a chip that comes with more features than the one of
its name. -/
def IsPreset (text : String) : Prop :=
  text.toLower ∈ Feature.namesakes.map Feature.name

instance (text : String) : Decidable (IsPreset text) :=
  inferInstanceAs (Decidable (_ ∈ _))

variable {text text' : String} {features features' : List Feature}

theorem Lists.of_name {feature : Feature} (named : Feature.ofName? text = some feature) :
    Lists text [feature] := by
  have alone : PartNames ("" ++ text ++ "") [feature] := .feature nofun named nofun
  rw [String.empty_append, String.append_empty] at alone
  exact .part alone

theorem Lists.append (first : Lists text features) (second : Lists text' features') :
    Lists (text ++ "+" ++ text') (features ++ features') := by
  induction first with
  | part h => exact .more h second
  | more h _ ih =>
    simp only [String.append_assoc, List.append_assoc] at ih ⊢
    have whole := Lists.more h ih
    rwa [String.append_assoc] at whole

section Reading

theorem trim_padded {before name after : List Char} (blank : ∀ c ∈ before, Text.isWhitespace c)
    (solid : ∀ c ∈ name, Text.isWhitespace c = false) (some_char : name ≠ [])
    (blank' : ∀ c ∈ after, Text.isWhitespace c) :
    Text.trim (String.ofList (before ++ name ++ after)) = String.ofList name := by
  have stops {chars : List Char} (more : List Char) (some_char : chars ≠ [])
      (solid : ∀ c ∈ chars, Text.isWhitespace c = false) :
      (chars ++ more).dropWhile Text.isWhitespace = chars ++ more := by
    obtain ⟨first, rest, rfl⟩ := List.exists_cons_of_ne_nil some_char
    exact List.dropWhile_cons_of_neg (Bool.eq_false_iff.1 (solid first List.mem_cons_self))
  have front : (before ++ name ++ after).dropWhile Text.isWhitespace = name ++ after := by
    rw [List.append_assoc, List.dropWhile_append_of_pos blank, stops after some_char solid]
  have back : (name ++ after).reverse.dropWhile Text.isWhitespace = name.reverse := by
    rw [List.reverse_append,
      List.dropWhile_append_of_pos fun c among => blank' c (List.mem_reverse.1 among)]
    have alone := stops [] (List.reverse_ne_nil_iff.2 some_char)
      fun c among => solid c (List.mem_reverse.1 among)
    rwa [List.append_nil] at alone
  rw [Text.trim, String.toList_ofList, front, back, List.reverse_reverse]

theorem PartNames.plus_not_mem (h : PartNames text features) :
    ∀ c ∈ text.toList, (c == '+') = false := by
  cases h with
  | empty => nofun
  | feature blank named blank' =>
    obtain ⟨-, solid⟩ := Feature.not_mem_of_ofName? named
    intro c among
    rw [beq_eq_false_iff_ne]
    simp only [String.toList_append, List.mem_append] at among
    rcases among with (among | among) | among
    · rintro rfl
      cases blank _ among
    · exact (solid c among).2
    · rintro rfl
      cases blank' _ among

/-- Reading a part adds what it names. -/
theorem PartNames.ofParts_cons (h : PartNames text features) (set : FeatureSet)
    (rest : List String) :
    ofParts set ((([text.toList].filter (· ≠ [])).map String.ofList) ++ rest) =
      ofParts (features.foldl (fun set other => set ∪ {other}) set) rest := by
  cases h with
  | empty => rfl
  | @feature before name after feature blank named blank' =>
    obtain ⟨some_char, solid⟩ := Feature.not_mem_of_ofName? named
    have whole : (before ++ name ++ after).toList =
        before.toList ++ name.toList ++ after.toList := by
      rw [String.toList_append, String.toList_append]
    have kept : [(before ++ name ++ after).toList].filter (· ≠ []) =
        [(before ++ name ++ after).toList] := by
      refine List.filter_eq_self.2 (List.forall_mem_singleton.2 (decide_eq_true ?_))
      rw [whole]
      exact List.append_ne_nil_of_left_ne_nil (List.append_ne_nil_of_right_ne_nil _ some_char) _
    have trimmed := trim_padded blank (fun c among => (solid c among).1) some_char blank'
    have read : ofPart (before ++ name ++ after) = .ok {feature} := by
      rw [ofPart, ← String.ofList_toList (s := before ++ name ++ after), whole, trimmed,
        String.ofList_toList, named]
    rw [kept, List.map_singleton, String.ofList_toList, List.singleton_append, ofParts, read]
    rfl

/-- The parts of a text that lists features are read as the union of the features. -/
theorem Lists.ofParts_parts (h : Lists text features) (set : FeatureSet) :
    ofParts set (parts text) = .ok (features.foldl (fun set other => set ∪ {other}) set) := by
  induction h generalizing set with
  | part h =>
    have alone := h.ofParts_cons set []
    rw [List.append_nil] at alone
    rw [parts, List.splitOn, List.splitOnP_eq_singleton h.plus_not_mem, alone]
    rfl
  | @more part text features features' h _ ih =>
    have split : (part ++ "+" ++ text).toList.splitOn '+' =
        part.toList :: text.toList.splitOn '+' := by
      rw [String.append_assoc, String.toList_append, String.toList_append]
      exact List.splitOnP_append_cons_of_forall_mem h.plus_not_mem '+' rfl text.toList
    have cut : parts (part ++ "+" ++ text) =
        ([part.toList].filter (· ≠ [])).map String.ofList ++ parts text := by
      rw [parts, split, ← List.singleton_append, List.filter_append, List.map_append, parts]
    rw [cut, h.ofParts_cons, ih, List.foldl_append]

/-- A text that lists features and names no chip is read as their union. -/
theorem Lists.parse_eq (h : Lists text features) (other : ofCpu? text = none) :
    parse text = .ok (ofList features) := by
  rw [parse, other]
  exact h.ofParts_parts ∅

end Reading

section Chips

theorem ofList_singleton (feature : Feature) : ofList [feature] = {feature} := by
  cases feature <;> rfl

theorem ofList_append (features features' : List Feature) :
    ofList (features ++ features') = ofList features ∪ ofList features' := by
  refine eq_of_mem_iff (ofList_subset_all _)
    (union_subset (ofList_subset_all _) (ofList_subset_all _)) fun feature => ?_
  rw [mem_union, mem_ofList, mem_ofList, mem_ofList, List.mem_append]

theorem subset_antisymm {first second : FeatureSet} (h : first ⊆ second) (h' : second ⊆ first) :
    first = second := by
  have bits : first.bits = second.bits := by
    apply BitVec.eq_of_getLsbD_eq
    intro bit _
    exact Bool.eq_iff_iff.2 ⟨subset_iff.1 h bit, subset_iff.1 h' bit⟩
  cases first
  exact congrArg mk bits

theorem subset_union_right (first second : FeatureSet) : second ⊆ first ∪ second := by
  apply subset_iff.2
  intro bit set
  change (first.bits ||| second.bits).getLsbD bit = true
  rw [BitVec.getLsbD_or, set, Bool.or_true]

/-- Two larger sets have the same union exactly if what they have more is in the union already. -/
theorem union_eq_union_iff {first second set set' : FeatureSet} (inside : first ⊆ set)
    (inside' : second ⊆ set') :
    first ∪ second = set ∪ set' ↔ set ⊆ first ∪ second ∧ set' ⊆ first ∪ second := by
  constructor
  · intro same
    rw [same]
    exact ⟨subset_union_left set set', subset_union_right set set'⟩
  · rintro ⟨within, within'⟩
    apply subset_antisymm
    · exact union_subset (subset_trans inside (subset_union_left set set'))
        (subset_trans inside' (subset_union_right set set'))
    · exact union_subset within within'

/-- A text lists one set only. -/
theorem Lists.ofList_eq (h : Lists text features) (h' : Lists text features') :
    ofList features = ofList features' :=
  Except.ok.inj ((h.ofParts_parts ∅).symm.trans (h'.ofParts_parts ∅))

/-- The name of a chip is the name of a feature that the chip has, and of the only one unless the
chip comes with more. -/
theorem exists_feature_of_ofCpu? {set : FeatureSet} (h : ofCpu? text = some set) :
    ∃ feature, Feature.ofName? text = some feature ∧ {feature} ⊆ set ∧
      ({feature} = set ↔ ¬IsPreset text) := by
  have each : ∀ chip ∈ cpus, ∃ feature ∈ Feature.all, (chip.1, feature) ∈ Feature.names ∧
      {feature} ⊆ chip.2 ∧
        ({feature} = chip.2 ↔ chip.1 ∉ Feature.namesakes.map Feature.name) :=
    of_decide_eq_true (by cbv)
  obtain ⟨feature, -, named, inside, single⟩ := each _ (Text.mem_of_lookup h)
  exact ⟨feature, Feature.ofName?_eq_some_iff.2 named, inside, single⟩

theorem IsPreset.exists_ofCpu? (h : IsPreset text) : ∃ set, ofCpu? text = some set := by
  have each : ∀ name ∈ Feature.namesakes.map Feature.name, (cpus.lookup name).isSome :=
    of_decide_eq_true (by cbv)
  exact Option.isSome_iff_exists.1 (each _ h)

/-- What a list of features is read as: all of them, and no others unless it is the name of a chip
that comes with more. -/
theorem Lists.exists_parse (h : Lists text features) :
    ∃ set, parse text = .ok set ∧ ofList features ⊆ set ∧
      (ofList features = set ↔ ¬IsPreset text) := by
  cases chip : ofCpu? text with
  | none =>
    have plain : ¬IsPreset text := by
      intro preset
      obtain ⟨set, known⟩ := preset.exists_ofCpu?
      cases chip.symm.trans known
    exact ⟨_, h.parse_eq chip, subset_iff.2 fun _ => id, iff_of_true rfl plain⟩
  | some set =>
    obtain ⟨feature, named, inside, single⟩ := exists_feature_of_ofCpu? chip
    have same : ofList features = {feature} := by
      rw [h.ofList_eq (.of_name named), ofList_singleton]
    rw [same]
    exact ⟨set, by rw [parse, chip], inside, single⟩

theorem ofCpu?_append_plus (text text' : String) : ofCpu? (text ++ "+" ++ text') = none := by
  rw [Option.eq_none_iff_forall_ne_some]
  intro set chip
  obtain ⟨feature, named, -⟩ := exists_feature_of_ofCpu? chip
  obtain ⟨-, solid⟩ := Feature.not_mem_of_ofName? named
  have among : '+' ∈ (text ++ "+" ++ text').toList := by simp
  exact (solid '+' among).2 rfl

/-- The text of a set of features lists them in their order. -/
theorem lists_text {features : List Feature} (some_feature : features ≠ []) :
    Lists (ofList features).text (Feature.all.filter (· ∈ ofList features)) := by
  have joined {listed : List Feature} (h : listed ≠ []) :
      Lists (String.intercalate "+" (listed.map Feature.name)) listed := by
    induction listed with
    | nil => exact absurd rfl h
    | cons feature rest ih =>
      have first := Lists.of_name feature.ofName?_name
      cases rest with
      | nil => exact first
      | cons next rest =>
        have whole := first.append (ih (List.cons_ne_nil _ _))
        rwa [List.map_cons, List.map_cons, String.intercalate_cons_cons, ← List.map_cons]
  rw [text, items_ofList]
  apply joined
  obtain ⟨feature, among⟩ := List.exists_mem_of_ne_nil _ some_feature
  apply List.ne_nil_of_mem (a := feature)
  exact List.mem_filter.2 ⟨feature.mem_all, decide_eq_true (mem_ofList.2 among)⟩

/-- The sets whose text is the name of a chip with more features. -/
theorem isPreset_text_iff {features : List Feature} (some_feature : features ≠ []) :
    IsPreset (ofList features).text ↔
      ∃ feature ∈ Feature.namesakes, ofList features = {feature} := by
  constructor
  · intro preset
    obtain ⟨feature, among, spelled⟩ := List.mem_map.1 preset
    have named : Feature.ofName? (ofList features).text = some feature := by
      rw [Feature.ofName?_eq_some_iff, ← spelled]
      exact List.mem_append_left _ (List.mem_map_of_mem feature.mem_all)
    refine ⟨feature, among, ?_⟩
    calc
      ofList features = ofList (Feature.all.filter (· ∈ ofList features)) :=
        (ofList_filter_mem features).symm
      _ = ofList [feature] := (lists_text some_feature).ofList_eq (.of_name named)
      _ = {feature} := ofList_singleton feature
  · rintro ⟨feature, among, same⟩
    have each : ∀ feature ∈ Feature.namesakes, IsPreset ({feature} : FeatureSet).text :=
      of_decide_eq_true (by cbv)
    rw [same]
    exact each feature among

end Chips

/-- A text that lists features is read as their union, unless it is the name of a chip with more
features, as the texts of five sets are. Two lists with a plus sign between them are read as the
union of what they list. That is the union of what they are read as themselves unless one of them is
such a name, and the other one does not make up for it. -/
theorem parse_lists :
    (∀ text features, Lists text features → ¬IsPreset text →
      parse text = .ok (ofList features)) ∧
    (∀ text features, Lists text features → IsPreset text →
      ∃ set, ofCpu? text = some set ∧ parse text = .ok set ∧ ofList features ⊆ set ∧
        ofList features ≠ set) ∧
    (∀ features, features ≠ [] → (parse (ofList features).text = .ok (ofList features) ↔
      ∀ feature ∈ Feature.namesakes, ofList features ≠ {feature})) ∧
    ∀ text text' features features', Lists text features → Lists text' features' →
      parse (text ++ "+" ++ text') = .ok (ofList features ∪ ofList features') ∧
      ∃ set set', parse text = .ok set ∧ parse text' = .ok set' ∧
        (parse (text ++ "+" ++ text') = .ok (set ∪ set') ↔
          set ⊆ ofList features ∪ ofList features' ∧
            set' ⊆ ofList features ∪ ofList features') := by
  refine ⟨fun text features lists plain => ?_, fun text features lists preset => ?_,
    fun features some_feature => ?_, fun text text' features features' lists lists' => ?_⟩
  · obtain ⟨set, read, -, same⟩ := lists.exists_parse
    rw [read, same.2 plain]
  · obtain ⟨set, read, inside, same⟩ := lists.exists_parse
    obtain ⟨chip, known⟩ := preset.exists_ofCpu?
    have parsed : parse text = .ok chip := by rw [parse, known]
    cases read.symm.trans parsed
    exact ⟨set, known, read, inside, fun all => same.1 all preset⟩
  · obtain ⟨set, read, -, same⟩ := (lists_text some_feature).exists_parse
    rw [ofList_filter_mem] at same
    rw [read, Except.ok.injEq, eq_comm, same, isPreset_text_iff some_feature]
    simp only [not_exists, not_and, ne_eq]
  · have joined : parse (text ++ "+" ++ text') = .ok (ofList features ∪ ofList features') := by
      rw [(lists.append lists').parse_eq (ofCpu?_append_plus text text'), ofList_append]
    obtain ⟨set, read, inside, -⟩ := lists.exists_parse
    obtain ⟨set', read', inside', -⟩ := lists'.exists_parse
    refine ⟨joined, set, set', read, read', ?_⟩
    rw [joined, Except.ok.injEq, union_eq_union_iff inside inside']

/-- Capitals, an empty part, blanks and a repetition; the name of a chip; the text of a set; and a
list that makes up for the chip in front of it. -/
theorem parse_lists_repetition :
    (Lists "MOS65c02++ mos6502 +mos65c02" [.mos65c02, .mos6502, .mos65c02] ∧
      ¬IsPreset "MOS65c02++ mos6502 +mos65c02" ∧
      parse "MOS65c02++ mos6502 +mos65c02" = .ok (ofList [.mos65c02, .mos6502, .mos65c02])) ∧
    (Lists "MOS65c02" [.mos65c02] ∧ IsPreset "MOS65c02" ∧
      ∃ set, ofCpu? "MOS65c02" = some set ∧ parse "MOS65c02" = .ok set ∧
        ofList [.mos65c02] ⊆ set ∧ ofList [.mos65c02] ≠ set) ∧
    parse (ofList [.mosw65816, .mos6502]).text = .ok (ofList [.mosw65816, .mos6502]) ∧
    parse ("MOS65c02" ++ "+" ++ " mos6502 +mos65c02") =
      .ok (ofList [.mos65c02] ∪ ofList [.mos6502, .mos65c02]) := by
  have chip : Lists "MOS65c02" [.mos65c02] := .of_name (by cbv)
  have blanks : PartNames " mos6502 " [.mos6502] :=
    @PartNames.feature " " "mos6502" " " .mos6502 (by simp; decide) (by cbv)
      (by simp; decide)
  have last : Lists "mos65c02" [.mos65c02] := .of_name (by cbv)
  have behind : Lists " mos6502 +mos65c02" [.mos6502, .mos65c02] := .more blanks last
  have list : Lists "MOS65c02++ mos6502 +mos65c02" [.mos65c02, .mos6502, .mos65c02] :=
    chip.append (.more .empty behind)
  obtain ⟨plain, preset, sets, joined⟩ := parse_lists
  have other : ¬IsPreset "MOS65c02++ mos6502 +mos65c02" := of_decide_eq_true (by cbv)
  have alone : IsPreset "MOS65c02" := of_decide_eq_true (by cbv)
  refine ⟨⟨list, other, plain _ _ list other⟩, ⟨chip, alone, preset _ _ chip alone⟩, ?_,
    (joined _ _ _ _ chip behind).1⟩
  exact (sets _ (by decide)).2 (by decide)

/-- The name of a chip is read as the chip, though it lists one feature, which it is the text of. -/
theorem exists_parse_lists_ne : ∃ text features, features ≠ [] ∧ Lists text features ∧
    text = (ofList features).text ∧ parse text ≠ .ok (ofList features) :=
  ⟨"mos65c02", [.mos65c02], by decide, .of_name (by cbv), by cbv, of_decide_eq_true (by cbv)⟩

end FeatureSet

end Asm65
