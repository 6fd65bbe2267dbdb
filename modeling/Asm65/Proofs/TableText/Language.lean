import Asm65.Proofs.FeatureLists
import Asm65.Proofs.RegisterNames
import Asm65.Proofs.TableText.Derivation

/-!
# The language of tables

A text is read as a table when it is derived and every name in it is known, and the table has
the templates that its entries stand for (`Table.read_language`).

## Implementation notes

What is wrong with an entry is listed in the order of its text (`Entry.unknown`), so the
error that is reported is the first of a list.
-/

namespace Asm65

namespace OperandClass

theorem ofName?_eq_some_iff {name : String} {operandClass : OperandClass} :
    ofName? name = some operandClass ↔ name.toLower = operandClass.name := by
  constructor
  · intro found
    obtain ⟨other, -, same⟩ := List.mem_map.1 (Text.mem_of_lookup found)
    obtain ⟨spelled, rfl⟩ := Prod.mk.inj same
    exact spelled.symm
  · intro same
    rw [ofName?, same]
    cases operandClass <;> cbv

end OperandClass

namespace Table

namespace WrittenShape

/-- What is wrong with a shape of a line. -/
def unknown (line : Nat) : WrittenShape → List TableError
  | literal _ => []
  | register name =>
    if name.toLower ∈ ["a", "x", "y", "s", "p"] then [] else [.unknownRegister name line]
  | operandClass name =>
    if name.toLower ∈ OperandClass.all.map OperandClass.name then [] else [.unknownClass name line]

/-- Whether a written shape is a shape, with its name in any letter case. -/
inductive Spells : WrittenShape → Shape → Prop
  | literal (text : String) : Spells (.literal text) (.literal text)
  | register {name : String} {wanted : Register} (same : Text.SameIgnoringCase name wanted.text) :
      Spells (.register name) (.register wanted)
  | operandClass {name : String} {wanted : OperandClass}
      (same : Text.SameIgnoringCase name wanted.name) : Spells (.operandClass name) (.value wanted)

end WrittenShape

/-- What is wrong with the name of a feature in a line. -/
def unknownFeature (line : Nat) (name : String) : List TableError :=
  if name.toLower ∈ Feature.names.map Prod.fst then [] else [.unknownFeature name line]

namespace Entry

/-- What is wrong with an entry, in the order of its text. -/
def unknown (entry : Entry) : List TableError :=
  entry.shapes.flatMap (WrittenShape.unknown entry.line) ++
    entry.features.flatMap (unknownFeature entry.line)

/-- Whether an entry stands for a template. -/
structure StandsFor (entry : Entry) (template : Template) : Prop where
  mnemonic : template.mnemonic = entry.mnemonic.toLower
  shapes : List.Forall₂ WrittenShape.Spells entry.shapes template.shapes
  opcode : template.opcode.toNat =
    16 * Text.digitOrdinal entry.high + Text.digitOrdinal entry.low
  requires : ∃ features, template.requires = .ofList features ∧
    List.Forall₂ (fun name feature => (name.toLower, feature) ∈ Feature.names)
      entry.features features

end Entry

/-- Whether a result is the first of some errors, if there is one, and else no error. -/
def FailsWith {ε α : Type} (result : Except ε α) (errors : List ε) : Prop :=
  ∀ error, result = .error error ↔ errors.head? = some error

section Except

variable {ε α β : Type} {result : Except ε α} {errors errors' : List ε}

theorem failsWith_ok (value : α) : FailsWith (.ok value : Except ε α) [] :=
  fun _ => ⟨nofun, nofun⟩

theorem FailsWith.eq_nil_iff (h : FailsWith result errors) :
    (∃ value, result = .ok value) ↔ errors = [] := by
  cases result with
  | ok value =>
    refine ⟨fun _ => List.eq_nil_iff_forall_not_mem.2 fun error among => ?_, fun _ => ⟨value, rfl⟩⟩
    cases (h _).2 (List.head?_eq_some_head (List.ne_nil_of_mem among))
  | error stopped =>
    refine ⟨nofun, ?_⟩
    rintro rfl
    cases (h stopped).1 rfl

/-- What comes second adds its errors behind those of the first. -/
theorem FailsWith.bind {next : α → Except ε β} (h : FailsWith result errors)
    (h' : ∀ value, FailsWith (next value) errors') :
    FailsWith (result >>= next) (errors ++ errors') := by
  intro error
  rw [List.head?_append]
  cases result with
  | ok value =>
    rw [h.eq_nil_iff.1 ⟨value, rfl⟩]
    exact h' value error
  | error stopped =>
    rw [(h stopped).1 rfl, Option.some_or, Option.some.injEq]
    exact ⟨fun same => Except.error.inj same, fun same => congrArg Except.error same⟩

/-- Inputs in a row fail with the first of all their errors. -/
theorem FailsWith.mapM {next : α → Except ε β} {errors : α → List ε} {inputs : List α}
    (h : ∀ input ∈ inputs, FailsWith (next input) (errors input)) :
    FailsWith (inputs.mapM next) (inputs.flatMap errors) := by
  induction inputs with
  | nil => exact failsWith_ok []
  | cons input rest ih =>
    obtain ⟨first, others⟩ := List.forall_mem_cons.1 h
    rw [List.mapM_cons, List.flatMap_cons, ← List.append_nil (rest.flatMap errors)]
    exact first.bind fun _ => (ih others).bind fun _ => failsWith_ok _

end Except

section Names

variable {line : Nat} {written : WrittenShape} {shape : Shape} {name : String}
  {error : TableError}

theorem Register.ofName?_canonical_iff {register : Register} :
    Register.ofName? {.canonicalRegisterNamesOnly} name = some register ↔
      name.toLower = register.text := by
  have only : .canonicalRegisterNamesOnly ∈ ({.canonicalRegisterNamesOnly} : FeatureSet) :=
    FeatureSet.mem_singleton.2 rfl
  rw [Register.ofName?_eq_some_iff, Register.canonical?_eq_some_iff, String.toList_inj]
  exact ⟨fun named => named.resolve_right fun short => short.1 only, .inl⟩

theorem OperandClass.toLower_name (operandClass : OperandClass) :
    operandClass.name.toLower = operandClass.name := by
  cases operandClass <;> cbv

theorem WrittenShape.Names.spells (h : written.Names shape) : written.Spells shape := by
  cases written with
  | literal text =>
    obtain rfl := names_literal_iff.1 h
    exact .literal text
  | register name =>
    obtain ⟨wanted, named, rfl⟩ := names_register_iff.1 h
    exact .register ((Register.ofName?_canonical_iff.1 named).trans wanted.toLower_text.symm)
  | operandClass name =>
    obtain ⟨wanted, named, rfl⟩ := names_operandClass_iff.1 h
    have same := OperandClass.ofName?_eq_some_iff.1 named
    exact .operandClass (same.trans (OperandClass.toLower_name wanted).symm)

/-- The registers that a table can name. -/
theorem exists_ofName?_iff (h : IsWord Char.isAlphanum name) :
    (∃ wanted, Register.ofName? {.canonicalRegisterNamesOnly} name = some wanted) ↔
      name.toLower ∈ ["a", "x", "y", "s", "p"] := by
  constructor
  · rintro ⟨wanted, named⟩
    have each : ∀ wanted ∈ [.a, .x, .y, .s, .p],
        Register.text wanted ∈ ["a", "x", "y", "s", "p"] := of_decide_eq_true (by cbv)
    rw [Register.ofName?_canonical_iff.1 named]
    exact each wanted (mem_of_ofName? h named)
  · intro among
    simp only [List.mem_cons, List.not_mem_nil, or_false] at among
    rcases among with same | same | same | same | same
    · exact ⟨.a, Register.ofName?_canonical_iff.2 same⟩
    · exact ⟨.x, Register.ofName?_canonical_iff.2 same⟩
    · exact ⟨.y, Register.ofName?_canonical_iff.2 same⟩
    · exact ⟨.s, Register.ofName?_canonical_iff.2 same⟩
    · exact ⟨.p, Register.ofName?_canonical_iff.2 same⟩

theorem exists_operandClass_iff :
    (∃ wanted, OperandClass.ofName? name = some wanted) ↔
      name.toLower ∈ OperandClass.all.map OperandClass.name := by
  have whole : ∀ wanted, wanted ∈ OperandClass.all := by
    intro wanted
    cases wanted <;> decide
  simp only [OperandClass.ofName?_eq_some_iff, List.mem_map, eq_comm (a := name.toLower)]
  exact ⟨fun ⟨wanted, same⟩ => ⟨wanted, whole wanted, same⟩,
    fun ⟨wanted, _, same⟩ => ⟨wanted, same⟩⟩

theorem exists_feature_iff :
    (∃ feature, Feature.ofName? name = some feature) ↔
      name.toLower ∈ Feature.names.map Prod.fst := by
  simp only [Feature.ofName?_eq_some_iff, List.mem_map, Prod.exists, exists_and_right,
    exists_eq_right]

/-- What is looked up fails when its name is not known. -/
theorem failsWith_lookup {α β : Type} {found : Option α} {result : Except TableError β}
    {failure : TableError} {known : Prop} [Decidable known]
    (h : (∃ value, found = some value) ↔ known)
    (succeeds : ∀ value, found = some value → ∃ value', result = .ok value')
    (fails : found = none → result = .error failure) :
    FailsWith result (if known then [] else [failure]) := by
  cases named : found with
  | some value =>
    obtain ⟨value', rfl⟩ := succeeds value named
    rw [if_pos (h.1 ⟨value, named⟩)]
    exact failsWith_ok value'
  | none =>
    have unknown : ¬known := by
      intro known
      obtain ⟨value, named'⟩ := h.2 known
      cases named.symm.trans named'
    intro error
    rw [fails named, if_neg unknown, List.head?_cons, Except.error.injEq, Option.some.injEq]

theorem failsWith_resolveShape (spelled : written.IsSpelled) (line : Nat) :
    FailsWith (resolveShape line written) (written.unknown line) := by
  cases written with
  | literal text => exact failsWith_ok _
  | register name =>
    apply failsWith_lookup (exists_ofName?_iff spelled)
    · exact fun wanted named => ⟨.register wanted, by simp only [resolveShape, named]⟩
    · exact fun named => by simp only [resolveShape, named]
  | operandClass name =>
    apply failsWith_lookup exists_operandClass_iff
    · exact fun wanted named => ⟨.value wanted, by simp only [resolveShape, named]⟩
    · exact fun named => by simp only [resolveShape, named]

theorem failsWith_resolveFeature (line : Nat) (name : String) :
    FailsWith (resolveFeature line name) (unknownFeature line name) := by
  apply failsWith_lookup exists_feature_iff
  · exact fun feature named => ⟨feature, by simp only [resolveFeature, named]⟩
  · exact fun named => by simp only [resolveFeature, named]

end Names

section Entries

variable {text : String} {entry : Entry} {entries : List Entry} {error : TableError}

/-- Whether an entry has the items of one: shapes that are spelled, and two digits. -/
structure Entry.IsWellFormed (entry : Entry) : Prop where
  shapes : ∀ shape ∈ entry.shapes, shape.IsSpelled
  high : Text.Radix.hexadecimal.isDigit entry.high
  low : Text.Radix.hexadecimal.isDigit entry.low

theorem Layout.Shapes.forall_isSpelled {behind text : List Char} {shapes : List WrittenShape}
    (h : Layout.Shapes behind shapes text) : ∀ shape ∈ shapes, shape.IsSpelled := by
  induction h with
  | nil => exact List.forall_mem_nil _
  | cons _ spelled _ _ ih => exact List.forall_mem_cons.2 ⟨spelled, ih⟩

theorem Layout.IsEntry.isWellFormed {text : List Char} (h : Layout.IsEntry entry text) :
    entry.IsWellFormed := by
  obtain ⟨-, -, -, shaped, encoded⟩ := h
  obtain ⟨-, high, low, -⟩ := encoded
  exact ⟨shaped.forall_isSpelled, high, low⟩

theorem Layout.Lines.forall_isWellFormed {before text : List Char}
    (h : Layout.Lines before entries text) : ∀ entry ∈ entries, entry.IsWellFormed := by
  have line {number : Nat} {entries : List Entry} {text : List Char}
      (h : Layout.IsLine number entries text) : ∀ entry ∈ entries, entry.IsWellFormed := by
    cases h with
    | blank => exact List.forall_mem_nil _
    | entry isEntry _ => exact List.forall_mem_singleton.2 isEntry.isWellFormed
  induction h with
  | last isLine => exact line isLine
  | more isLine _ _ ih => exact List.forall_mem_append.2 ⟨line isLine, ih⟩

theorem digitOrdinal_lt {c : Char} (digit : Text.Radix.hexadecimal.isDigit c) :
    Text.digitOrdinal c < 16 := by
  have each : (Text.digitsInOrder ++ ['A', 'B', 'C', 'D', 'E', 'F']).all fun d =>
      Text.digitOrdinal d < 16 := by decide
  exact of_decide_eq_true (List.all_eq_true.1 each c (Text.mem_of_isDigit digit))

theorem Entry.IsWellFormed.toNat_opcode (h : entry.IsWellFormed) : entry.opcode.toNat =
    16 * Text.digitOrdinal entry.high + Text.digitOrdinal entry.low := by
  have high := digitOrdinal_lt h.high
  have low := digitOrdinal_lt h.low
  have size : UInt8.size = 256 := rfl
  exact UInt8.toNat_ofNat_of_lt' (by omega)

/-- An entry fails with the first thing that is wrong with it. -/
theorem Entry.IsWellFormed.failsWith_resolve (h : entry.IsWellFormed) :
    FailsWith (resolve entry.written) entry.unknown := by
  have shapes : FailsWith (entry.shapes.mapM (resolveShape entry.line)) _ :=
    .mapM fun shape among => failsWith_resolveShape (h.shapes shape among) entry.line
  have features : FailsWith (entry.features.mapM (resolveFeature entry.line)) _ :=
    .mapM fun name _ => failsWith_resolveFeature entry.line name
  have whole := shapes.bind fun shapes => features.bind fun features =>
    failsWith_ok (.ofMnemonic entry.mnemonic shapes entry.opcode (.ofList features) : Template)
  rwa [List.append_nil] at whole

theorem Entry.IsWellFormed.standsFor (h : entry.IsWellFormed) {template : Template}
    (resolved : resolve entry.written = .ok template) : entry.StandsFor template := by
  obtain ⟨shapes, features, names, known, rfl⟩ := resolve_eq_ok_iff.1 resolved
  refine ⟨rfl, names.imp fun _ _ named => named.spells, h.toNat_opcode, features, rfl, ?_⟩
  exact known.imp fun _ _ named => Feature.ofName?_eq_some_iff.1 named

/-- The entries of a text fail with the first thing that is wrong with them. -/
theorem failsWith_read (derived : derive? text.toList = some entries) :
    FailsWith (read text) (entries.flatMap Entry.unknown) := by
  have lines := Rules.derive?_eq_some_iff.1 derived
  have wellFormed := lines.forall_isWellFormed
  have written : readWritten text = .ok (entries.map Entry.written) :=
    Layout.readWritten_eq_ok_iff.2 ⟨entries, lines, rfl⟩
  have resolved : FailsWith ((entries.map Entry.written).mapM resolve)
      (entries.flatMap Entry.unknown) := by
    rw [List.mapM_map]
    exact .mapM fun entry among => (wellFormed entry among).failsWith_resolve
  have whole := resolved.bind fun templates => failsWith_ok (ofTemplates templates)
  rw [List.append_nil] at whole
  rwa [read, written]

theorem forall₂_standsFor {templates : List Template}
    (wellFormed : ∀ entry ∈ entries, entry.IsWellFormed)
    (resolved : List.Forall₂ (fun entry template => resolve entry.written = .ok template)
      entries templates) : List.Forall₂ Entry.StandsFor entries templates := by
  induction resolved with
  | nil => exact .nil
  | cons here _ ih =>
    obtain ⟨first, others⟩ := List.forall_mem_cons.1 wellFormed
    exact .cons (first.standsFor here) (ih others)

/-- The templates of a table stand in the order of the entries. -/
theorem exists_standsFor (derived : derive? text.toList = some entries) {table : Table}
    (h : read text = .ok table) : ∃ templates,
      List.Forall₂ Entry.StandsFor entries templates ∧ table = .ofTemplates templates := by
  have lines := Rules.derive?_eq_some_iff.1 derived
  have written : readWritten text = .ok (entries.map Entry.written) :=
    Layout.readWritten_eq_ok_iff.2 ⟨entries, lines, rfl⟩
  rw [read, written] at h
  obtain ⟨_, ⟨⟩, whole⟩ := bind_eq_ok_iff.1 h
  obtain ⟨templates, resolved, ⟨⟩⟩ := bind_eq_ok_iff.1 whole
  rw [mapM_eq_ok_iff, List.forall₂_map_left_iff] at resolved
  exact ⟨templates, forall₂_standsFor lines.forall_isWellFormed resolved, rfl⟩

theorem Entry.ne_malformed_of_mem_unknown (among : error ∈ entry.unknown) (place : Place)
    (awaited : Awaited) : error ≠ .malformed place awaited := by
  rintro rfl
  rcases List.mem_append.1 among with inShapes | inFeatures
  · obtain ⟨shape, -, among⟩ := List.mem_flatMap.1 inShapes
    cases shape <;> simp [WrittenShape.unknown] at among
  · obtain ⟨name, -, among⟩ := List.mem_flatMap.1 inFeatures
    simp [unknownFeature] at among

/-- A text that cannot be derived is malformed, and no other is. -/
theorem derive?_eq_none_iff : derive? text.toList = none ↔
    ∃ place awaited, read text = .error (.malformed place awaited) := by
  constructor
  · intro underived
    cases written : readWritten text with
    | ok written' =>
      obtain ⟨entries, lines, -⟩ := Layout.readWritten_eq_ok_iff.1 written
      cases underived.symm.trans (Rules.derive?_eq_some_iff.2 lines)
    | error error =>
      obtain ⟨place, awaited, rfl⟩ := Layout.exists_malformed_of_readWritten written
      refine ⟨place, awaited, ?_⟩
      rw [read, written]
      rfl
  · rintro ⟨place, awaited, failed⟩
    cases derived : derive? text.toList with
    | none => rfl
    | some entries =>
      have first := (failsWith_read derived _).1 failed
      obtain ⟨entry, -, among⟩ := List.mem_flatMap.1 (List.mem_of_mem_head? first)
      exact absurd rfl (Entry.ne_malformed_of_mem_unknown among place awaited)

end Entries

/-- A text is read as a table when it is derived, that is when its lines are blank, comments or
entries, and every name in its entries is known. The templates are those of the entries. The first
unknown name is reported, and a text that is not derived is malformed. -/
theorem read_language (text : String) :
    (∀ entries, derive? text.toList = some entries ↔ Layout.Lines [] entries text.toList) ∧
    ((∃ table, read text = .ok table) ↔
      ∃ entries, derive? text.toList = some entries ∧ ∀ entry ∈ entries, entry.unknown = []) ∧
    (∀ entries, derive? text.toList = some entries →
      (∀ table, read text = .ok table → ∃ templates,
        List.Forall₂ Entry.StandsFor entries templates ∧ table = .ofTemplates templates) ∧
      ∀ error, (entries.flatMap Entry.unknown).head? = some error → read text = .error error) ∧
    (derive? text.toList = none ↔
      ∃ place awaited, read text = .error (.malformed place awaited)) := by
  refine ⟨fun _ => Rules.derive?_eq_some_iff, ?_,
    fun entries derived => ⟨fun _ => ?_, fun error => ?_⟩, derive?_eq_none_iff⟩
  · constructor
    · rintro ⟨table, read⟩
      cases derived : derive? text.toList with
      | none =>
        obtain ⟨place, awaited, failed⟩ := derive?_eq_none_iff.1 derived
        cases read.symm.trans failed
      | some entries =>
        exact ⟨entries, rfl, List.flatMap_eq_nil_iff.1 ((failsWith_read derived).eq_nil_iff.1
          ⟨table, read⟩)⟩
    · rintro ⟨entries, derived, known⟩
      exact (failsWith_read derived).eq_nil_iff.2 (List.flatMap_eq_nil_iff.2 known)
  · exact exists_standsFor derived
  · exact (failsWith_read derived error).2

/-- The first unknown name of a line is its register, a carriage return ends a line, and a class
that is unknown does not matter where an arrow is missing. -/
theorem read_language_unknown_register :
    derive? "; note\r\nLDA %q bogus=>$A9 : z80".toList =
        some [⟨2, "LDA", [.register "q", .operandClass "bogus"], 'A', '9', ["z80"]⟩] ∧
      read "; note\r\nLDA %q bogus=>$A9 : z80" = .error (.unknownRegister "q" 2) ∧
      (∃ table templates, read "RTS=>$60\r ; note" = .ok table ∧
        List.Forall₂ Entry.StandsFor [⟨1, "RTS", [], '6', '0', []⟩] templates ∧
        table = .ofTemplates templates) ∧
      ∃ place awaited, read "LDA bogus $A9" = .error (.malformed place awaited) := by
  have derived : derive? "; note\r\nLDA %q bogus=>$A9 : z80".toList =
      some [⟨2, "LDA", [.register "q", .operandClass "bogus"], 'A', '9', ["z80"]⟩] := by cbv
  have derived' : derive? "RTS=>$60\r ; note".toList =
      some [⟨1, "RTS", [], '6', '0', []⟩] := by cbv
  have underived : derive? "LDA bogus $A9".toList = none := by cbv
  obtain ⟨-, -, unknown, -⟩ := read_language "; note\r\nLDA %q bogus=>$A9 : z80"
  obtain ⟨-, known, ordered, -⟩ := read_language "RTS=>$60\r ; note"
  obtain ⟨-, -, -, malformed⟩ := read_language "LDA bogus $A9"
  obtain ⟨table, read⟩ := known.2 ⟨_, derived', List.forall_mem_singleton.2 rfl⟩
  obtain ⟨templates, stand, whole⟩ := (ordered _ derived').1 table read
  exact ⟨derived, (unknown _ derived).2 _ (by cbv), ⟨table, templates, read, stand, whole⟩,
    malformed.1 underived⟩

end Table

end Asm65
