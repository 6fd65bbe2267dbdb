import Asm65.Table.Reader
import Mathlib

/-!
# The lines of a table

A text is a table when each of its lines is blank or holds a template
(`Holds`), and the table has the templates of the lines in their order
(`read_eq_ok_iff`). What a line holds depends on nothing around it: its number
matters to the diagnostics only.
-/

namespace Asm65.Table

section Except

variable {ε α β : Type}

theorem bind_eq_ok_iff {result : Except ε α} {next : α → Except ε β} {value : β} :
    (result >>= next) = .ok value ↔ ∃ first, result = .ok first ∧ next first = .ok value := by
  cases result with
  | error => exact ⟨nofun, nofun⟩
  | ok first => exact ⟨fun h => ⟨first, rfl, h⟩, by rintro ⟨_, ⟨⟩, h⟩; exact h⟩

theorem mapM_eq_ok_iff {next : α → Except ε β} {inputs : List α} {values : List β} :
    inputs.mapM next = .ok values ↔
      List.Forall₂ (fun input value => next input = .ok value) inputs values := by
  induction inputs generalizing values with
  | nil =>
    rw [List.mapM_nil, List.forall₂_nil_left_iff]
    exact ⟨fun h => (Except.ok.inj h).symm, fun h => h ▸ rfl⟩
  | cons input rest ih =>
    rw [List.mapM_cons, bind_eq_ok_iff, List.forall₂_cons_left_iff]
    constructor
    · rintro ⟨value, here, h⟩
      obtain ⟨values, further, ⟨⟩⟩ := bind_eq_ok_iff.1 h
      exact ⟨value, values, here, ih.1 further, rfl⟩
    · rintro ⟨value, values, here, further, rfl⟩
      exact ⟨value, here, bind_eq_ok_iff.2 ⟨values, ih.2 further, rfl⟩⟩

end Except

section Lines

/-- The lines of a text without the characters that end them. -/
def lines (text : List Char) : List (List Char) :=
  (splitLines text).map Prod.fst

/-- Whether a line holds no character that ends one. -/
def IsUnbroken (line : List Char) : Prop :=
  '\n' ∉ line ∧ '\r' ∉ line

instance (line : List Char) : Decidable (IsUnbroken line) :=
  inferInstanceAs (Decidable (_ ∧ _))

theorem splitLines_ne_nil (text : List Char) : splitLines text ≠ [] := by
  fun_cases splitLines text <;> nofun

theorem lines_return {rest : List Char} (h : rest.head? ≠ some '\n') :
    lines ('\r' :: rest) = [] :: lines rest := by
  cases rest with
  | nil => rfl
  | cons c rest =>
    unfold lines
    rw [splitLines]
    · rfl
    · rintro more ⟨⟩
      exact h rfl

theorem lines_other {c : Char} (h : c ≠ '\n') (h' : c ≠ '\r') {rest first : List Char}
    {others : List (List Char)} (split : lines rest = first :: others) :
    lines (c :: rest) = (c :: first) :: others := by
  unfold lines at split ⊢
  rw [splitLines]
  · cases parts : splitLines rest with
    | nil => simp [parts] at split
    | cons part parts =>
      rw [parts] at split
      obtain ⟨rfl, rfl⟩ := List.cons.inj split
      rfl
  all_goals simp [h, h']

/-- A newline behind a text ends its last line, and the lines of what follows come next. When the
text ends in a carriage return, that one and the newline end a line together. -/
theorem exists_lines_append_newline (text : List Char) : ∃ first others,
    (lines text = first :: others ∨ lines text = first :: others ++ [[]]) ∧
      ∀ more, lines (text ++ '\n' :: more) = first :: others ++ lines more := by
  fun_induction splitLines text with
  | case1 => exact ⟨[], [], .inl rfl, fun _ => rfl⟩
  | case2 rest ih | case3 rest ih =>
    obtain ⟨first, others, alone, seam⟩ := ih
    refine ⟨[], first :: others, ?_, fun more => congrArg ([] :: ·) (seam more)⟩
    exact alone.imp (congrArg ([] :: ·)) (congrArg ([] :: ·))
  | case4 rest single ih =>
    cases rest with
    | nil => exact ⟨[], [], .inr rfl, fun _ => rfl⟩
    | cons c rest =>
      have apart : (c :: rest).head? ≠ some '\n' := by
        rintro ⟨⟩
        exact single rest rfl
      obtain ⟨first, others, alone, seam⟩ := ih
      rw [lines_return apart]
      refine ⟨[], first :: others, ?_, fun more => ?_⟩
      · exact alone.imp (congrArg ([] :: ·)) (congrArg ([] :: ·))
      · have apart' : (c :: rest ++ '\n' :: more).head? ≠ some '\n' := apart
        rw [List.cons_append, lines_return apart', seam]
        rfl
  | case5 c rest newline _ single _ _ _ _ ih | case6 c rest newline _ single _ ih =>
    obtain ⟨first, others, alone, seam⟩ := ih
    refine ⟨c :: first, others, ?_, fun more => lines_other newline single (seam more)⟩
    exact alone.imp (lines_other newline single) (lines_other newline single)

theorem isUnbroken_nil : IsUnbroken [] :=
  ⟨List.not_mem_nil, List.not_mem_nil⟩

theorem isUnbroken_cons_iff {c : Char} {line : List Char} :
    IsUnbroken (c :: line) ↔ c ≠ '\n' ∧ c ≠ '\r' ∧ IsUnbroken line := by
  simp only [IsUnbroken, List.mem_cons, not_or, ne_eq, eq_comm]
  tauto

/-- No line holds a character that ends one. -/
theorem isUnbroken_of_mem_lines (text : List Char) : ∀ line ∈ lines text, IsUnbroken line := by
  fun_induction splitLines text with
  | case1 => exact List.forall_mem_singleton.2 isUnbroken_nil
  | case2 rest ih | case3 rest ih => exact List.forall_mem_cons.2 ⟨isUnbroken_nil, ih⟩
  | case4 rest single ih =>
    have apart : rest.head? ≠ some '\n' := by
      intro found
      obtain ⟨more, rfl⟩ := List.head?_eq_some_iff.1 found
      exact single more rfl
    rw [lines_return apart]
    exact List.forall_mem_cons.2 ⟨isUnbroken_nil, ih⟩
  | case5 c rest newline _ single line ending parts split ih =>
    have whole : lines rest = line :: parts.map Prod.fst := congrArg (List.map Prod.fst) split
    rw [whole] at ih
    rw [lines_other newline single whole]
    obtain ⟨first, others⟩ := List.forall_mem_cons.1 ih
    exact List.forall_mem_cons.2 ⟨isUnbroken_cons_iff.2 ⟨newline, single, first⟩, others⟩
  | case6 c rest _ _ _ split _ => exact absurd split (splitLines_ne_nil rest)

theorem lines_append_newline {line : List Char} (h : IsUnbroken line) (rest : List Char) :
    lines (line ++ '\n' :: rest) = line :: lines rest := by
  induction line with
  | nil => rfl
  | cons c line ih =>
    obtain ⟨newline, single, more⟩ := isUnbroken_cons_iff.1 h
    exact lines_other newline single (ih more)

end Lines

/-- The shape that a written one names. -/
def WrittenShape.Names (written : WrittenShape) (shape : Shape) : Prop :=
  ∃ line, resolveShape line written = .ok shape

theorem resolveShape_eq_ok_iff {line : Nat} {written : WrittenShape} {shape : Shape} :
    resolveShape line written = .ok shape ↔ written.Names shape := by
  refine ⟨fun h => ⟨line, h⟩, ?_⟩
  rintro ⟨line', h⟩
  unfold resolveShape at h ⊢
  cases written with
  | literal text => exact h
  | register name => cases found : Register.ofName? {.canonicalRegisterNamesOnly} name <;> simp_all
  | operandClass name => cases found : OperandClass.ofName? name <;> simp_all

namespace WrittenShape

variable {text name : String} {shape : Shape}

theorem names_literal_iff : (literal text).Names shape ↔ shape = .literal text :=
  ⟨fun ⟨_, h⟩ => (Except.ok.inj h).symm, fun h => ⟨0, h ▸ rfl⟩⟩

theorem names_register_iff : (register name).Names shape ↔
    ∃ wanted, Register.ofName? {.canonicalRegisterNamesOnly} name = some wanted ∧
      shape = .register wanted := by
  simp only [Names, resolveShape]
  cases Register.ofName? {.canonicalRegisterNamesOnly} name <;> simp [eq_comm]

theorem names_operandClass_iff : (operandClass name).Names shape ↔
    ∃ wanted, OperandClass.ofName? name = some wanted ∧ shape = .value wanted := by
  simp only [Names, resolveShape]
  cases OperandClass.ofName? name <;> simp [eq_comm]

end WrittenShape

theorem resolveFeature_eq_ok_iff {line : Nat} {name : String} {feature : Feature} :
    resolveFeature line name = .ok feature ↔ Feature.ofName? name = some feature := by
  unfold resolveFeature
  cases Feature.ofName? name <;> simp

/-- What a line holds: nothing, or one template. -/
inductive Holds (line : List Char) : List Template → Prop
  | blank (h : skip line = []) : Holds line []
  | template {rest text text' : List Char} {mnemonic : String} {written : List WrittenShape}
      {shapes : List Shape} {opcode : UInt8} {names : List String} {features : List Feature}
      (named : word? Char.isAlphanum (skip line) = some (mnemonic, rest))
      (shaped : readShapes (skip rest) = .ok (written, text))
      (encoded : readOpcode text = .ok (opcode, text'))
      (featured : readFeatures text' = .ok (names, []))
      (resolved : List.Forall₂ WrittenShape.Names written shapes)
      (known : List.Forall₂ (Feature.ofName? · = some ·) names features) :
      Holds line [.ofMnemonic mnemonic shapes opcode (.ofList features)]

theorem readTemplate_eq_ok_iff {line : Nat} {mnemonic : String} {text : List Char}
    {written : WrittenTemplate} :
    readTemplate line mnemonic text = .ok written ↔
      ∃ shapes text' opcode text'' features, readShapes text = .ok (shapes, text') ∧
        readOpcode text' = .ok (opcode, text'') ∧ readFeatures text'' = .ok (features, []) ∧
        written = ⟨line, mnemonic, shapes, opcode, features⟩ := by
  simp only [readTemplate, bind_eq_ok_iff, Prod.exists]
  constructor
  · rintro ⟨shapes, text', shaped, opcode, text'', encoded, features, left, featured, h⟩
    split at h
    · next all =>
      cases h
      exact ⟨shapes, text', opcode, text'', features, shaped, encoded, all ▸ featured, rfl⟩
    · cases h
  · rintro ⟨shapes, text', opcode, text'', features, shaped, encoded, featured, rfl⟩
    exact ⟨shapes, text', shaped, opcode, text'', encoded, features, [], featured, if_pos rfl⟩

theorem resolve_eq_ok_iff {written : WrittenTemplate} {template : Template} :
    resolve written = .ok template ↔
      ∃ shapes features, List.Forall₂ WrittenShape.Names written.shapes shapes ∧
        List.Forall₂ (Feature.ofName? · = some ·) written.features features ∧
        template = .ofMnemonic written.mnemonic shapes written.opcode (.ofList features) := by
  simp only [resolve, bind_eq_ok_iff, mapM_eq_ok_iff, resolveShape_eq_ok_iff,
    resolveFeature_eq_ok_iff]
  constructor
  · rintro ⟨shapes, resolved, features, known, h⟩
    exact ⟨shapes, features, resolved, known, (Except.ok.inj h).symm⟩
  · rintro ⟨shapes, features, resolved, known, rfl⟩
    exact ⟨shapes, resolved, features, known, rfl⟩

/-- Reading a line and resolving its names gives what it holds, wherever it stands. -/
theorem readLine_eq_ok_iff {place : Place} {line : List Char} {templates : List Template} :
    (∃ written, readLine place line = .ok written ∧
        List.Forall₂ (resolve · = .ok ·) written.toList templates) ↔ Holds line templates := by
  simp only [readLine]
  constructor
  · rintro ⟨written, read, resolved⟩
    split at read
    · next mnemonic rest named =>
      obtain ⟨template, read', ⟨⟩⟩ := bind_eq_ok_iff.1 read
      obtain ⟨shapes, text', opcode, text'', features, shaped, encoded, featured, rfl⟩ :=
        readTemplate_eq_ok_iff.1 read'
      obtain ⟨template, _, here, none, rfl⟩ := List.forall₂_cons_left_iff.1 resolved
      cases none
      obtain ⟨shapes', features', names, known, rfl⟩ := resolve_eq_ok_iff.1 here
      exact .template named shaped encoded featured names known
    · split at read
      · next blank =>
        cases read
        cases resolved
        exact .blank blank
      · split at read <;> cases read
  · intro holds
    cases holds with
    | blank h => exact ⟨none, by simp [h, word?], .nil⟩
    | @template rest _ _ mnemonic written _ opcode names _ named shaped encoded featured resolved
        known =>
      let template : WrittenTemplate := ⟨place.line, mnemonic, written, opcode, names⟩
      have read : readTemplate place.line mnemonic (skip rest) = .ok template :=
        readTemplate_eq_ok_iff.2 ⟨_, _, _, _, _, shaped, encoded, featured, rfl⟩
      have here : resolve template = .ok _ := resolve_eq_ok_iff.2 ⟨_, _, resolved, known, rfl⟩
      refine ⟨some template, ?_, .cons here .nil⟩
      simp only [named]
      exact bind_eq_ok_iff.2 ⟨template, read, rfl⟩

theorem readLines_eq_ok_iff {place : Place} {lines : List (List Char × List Char)}
    {templates : List Template} :
    (∃ written, readLines place lines = .ok written ∧
        List.Forall₂ (resolve · = .ok ·) written templates) ↔
      ∃ parts, List.Forall₂ Holds (lines.map Prod.fst) parts ∧ templates = parts.flatten := by
  induction lines generalizing place templates with
  | nil =>
    constructor
    · rintro ⟨written, ⟨⟩, ⟨⟩⟩
      exact ⟨[], .nil, rfl⟩
    · rintro ⟨parts, ⟨⟩, rfl⟩
      exact ⟨[], rfl, .nil⟩
  | cons line lines ih =>
    obtain ⟨line, ending⟩ := line
    simp only [readLines]
    constructor
    · rintro ⟨written, read, resolved⟩
      split at read
      · cases read
      · next template here =>
        obtain ⟨rest, further, ⟨⟩⟩ := bind_eq_ok_iff.1 read
        have holds (first : List Template)
            (resolved : List.Forall₂ (resolve · = .ok ·) template.toList first) :
            Holds line first :=
          readLine_eq_ok_iff.1 ⟨template, here, resolved⟩
        cases template with
        | none =>
          obtain ⟨parts, later, rfl⟩ := ih.1 ⟨rest, further, resolved⟩
          exact ⟨[] :: parts, .cons (holds [] .nil) later, rfl⟩
        | some template =>
          obtain ⟨first, second, one, others, rfl⟩ := List.forall₂_cons_left_iff.1 resolved
          obtain ⟨parts, later, rfl⟩ := ih.1 ⟨rest, further, others⟩
          exact ⟨[first] :: parts, .cons (holds _ (.cons one .nil)) later, rfl⟩
    · rintro ⟨parts, holds, rfl⟩
      obtain ⟨first, parts, here, further, rfl⟩ := List.forall₂_cons_left_iff.1 holds
      obtain ⟨template, read, resolved⟩ := readLine_eq_ok_iff.2 here
      obtain ⟨rest, read', resolved'⟩ := ih.2 ⟨parts, further, rfl⟩
      exact ⟨template.toList ++ rest, by rw [read]; exact bind_eq_ok_iff.2 ⟨rest, read', rfl⟩,
        List.rel_append resolved resolved'⟩

/-- The table of a text has what its lines hold. -/
theorem read_eq_ok_iff {text : String} {table : Table} :
    read text = .ok table ↔
      ∃ parts, List.Forall₂ Holds (lines text.toList) parts ∧
        table = .ofTemplates parts.flatten := by
  simp only [read, bind_eq_ok_iff, mapM_eq_ok_iff]
  constructor
  · rintro ⟨written, read, templates, resolved, ⟨⟩⟩
    obtain ⟨parts, holds, rfl⟩ := readLines_eq_ok_iff.1 ⟨written, read, resolved⟩
    exact ⟨parts, holds, rfl⟩
  · rintro ⟨parts, holds, rfl⟩
    have read : ∃ written, readWritten text = .ok written ∧
        List.Forall₂ (resolve · = .ok ·) written parts.flatten :=
      readLines_eq_ok_iff.2 ⟨parts, holds, rfl⟩
    obtain ⟨written, read, resolved⟩ := read
    exact ⟨written, read, _, resolved, rfl⟩

end Asm65.Table
