import Asm65.Proofs.Instruction
import Asm65.Proofs.Lines
import Asm65.Proofs.TableText

/-!
# Extending a table

The text of a table with another one on the lines behind it is the text of a
table with the templates of both, and what assembles under the first table
assembles to the same under both (`ofSource_of_read_append`). For every mnemonic
the templates of the first table are looked at first.
-/

namespace Asm65

/-- Whether a table has the templates of another one in front of its own, mnemonic by mnemonic. -/
def Table.Extends (longer table : Table) : Prop :=
  ∀ mnemonic, table.lookup mnemonic <+: longer.lookup mnemonic

variable {table longer : Table}

/-- What matches in a table matches in one that extends it. -/
theorem Outcome.ofOperands_of_extends (h : longer.Extends table) {features : FeatureSet}
    {operands : List Operand} {found : Instruction}
    (matched : ofOperands table features operands = .matched found) :
    ofOperands longer features operands = .matched found := by
  unfold ofOperands at matched ⊢
  split at matched
  · next mnemonic _ _ =>
    split at matched
    · next known =>
      obtain ⟨more, whole⟩ := h mnemonic
      obtain ⟨chosen, same⟩ := among_eq_matched_iff.1 matched
      have known' : longer.contains mnemonic := by
        rw [Table.contains_iff, ← whole]
        exact List.append_ne_nil_of_left_ne_nil ((table.contains_iff mnemonic).1 known) more
      rw [if_pos known', ← whole]
      apply among_eq_matched_iff.2
      rw [List.find?_append, chosen]
      exact ⟨rfl, same⟩
    · cases matched
  · cases matched

/-- A statement is read the same under a table that extends the one it is read under. -/
theorem Statement.read_of_extends (extended : longer.Extends table) {config : Config}
    {start after : Cursor} {statement : Statement}
    (h : read table config start = .ok statement after) :
    read longer config start = .ok statement after := by
  apply read_of_readInstruction _ h
  intro mnemonic start statement after h
  obtain ⟨name, operands, found, named, items, matched, rfl⟩ := readInstruction_eq_ok_iff.1 h
  have matched' := Outcome.ofOperands_of_extends extended matched
  exact readInstruction_eq_ok_iff.2 ⟨name, operands, found, named, items, matched', rfl⟩

namespace Table

theorem lookup_append (first second : List Template) (mnemonic : String) :
    (ofTemplates (first ++ second)).lookup mnemonic =
      (ofTemplates first).lookup mnemonic ++ (ofTemplates second).lookup mnemonic := by
  simp only [lookup_eq_filter, ofTemplates, List.filter_append]

theorem size_append (first second : List Template) :
    (ofTemplates (first ++ second)).size =
      (ofTemplates first).size + (ofTemplates second).size := by
  simp only [size, ofTemplates, List.size_toArray, List.length_append]

theorem Holds.eq_nil {templates : List Template} (h : Holds [] templates) : templates = [] := by
  cases h with
  | blank => rfl
  | template named => cases named

/-- What a text holds, it holds up to a newline behind it. A line that the newline leaves out is
an empty one. -/
theorem exists_holds_append_newline {text : List Char} {parts : List (List Template)}
    (h : List.Forall₂ Holds (lines text) parts) : ∃ whole parts',
      List.Forall₂ Holds whole parts' ∧ parts'.flatten = parts.flatten ∧
        ∀ more, lines (text ++ '\n' :: more) = whole ++ lines more := by
  obtain ⟨first, others, alone, seam⟩ := exists_lines_append_newline text
  refine ⟨first :: others, ?_⟩
  rcases alone with alone | alone
  · exact ⟨parts, alone ▸ h, rfl, seam⟩
  · rw [alone] at h
    have before := List.forall₂_take (first :: others).length h
    have last := List.forall₂_drop (first :: others).length h
    rw [List.take_left] at before
    rw [List.drop_left, List.forall₂_cons_left_iff] at last
    obtain ⟨part, _, empty, none, rest⟩ := last
    cases none
    cases empty.eq_nil
    have whole := congrArg List.flatten (List.take_append_drop (first :: others).length parts)
    rw [rest, List.flatten_append] at whole
    exact ⟨_, before, (List.append_nil _).symm.trans whole, seam⟩

/-- The lines of two texts with a newline between them hold what the lines of each hold. -/
theorem read_append {first second : String} {table table' : Table}
    (h : read first = .ok table) (h' : read second = .ok table') :
    read (first ++ "\n" ++ second) =
      .ok (.ofTemplates (table.templates.toList ++ table'.templates.toList)) := by
  obtain ⟨parts, holds, rfl⟩ := read_eq_ok_iff.1 h
  obtain ⟨parts', holds', rfl⟩ := read_eq_ok_iff.1 h'
  obtain ⟨whole, parts'', upTo, same, seam⟩ := exists_holds_append_newline holds
  apply read_eq_ok_iff.2
  refine ⟨parts'' ++ parts', ?_, ?_⟩
  · rw [String.append_assoc, String.toList_append, String.toList_append]
    exact (seam second.toList).symm ▸ List.rel_append upTo holds'
  · simp only [ofTemplates, List.flatten_append, same]

end Table

namespace Assembly

/-- Two tables in one text, with a newline between them: the templates are those of both, and a
source keeps every statement that it has under the first table, line by line. -/
theorem ofSource_of_read_append {first second : String} {table table' : Table}
    (h : Table.read first = .ok table) (h' : Table.read second = .ok table') :
    ∃ both, Table.read (first ++ "\n" ++ second) = .ok both ∧
      both.size = table.size + table'.size ∧
      (∀ mnemonic, both.lookup mnemonic = table.lookup mnemonic ++ table'.lookup mnemonic) ∧
      ∀ config,
        (∀ start statement after, Statement.read table config start = .ok statement after →
          Statement.read both config start = .ok statement after) ∧
        ∀ source tokens, Token.lex source = .ok tokens →
          ofSource table config source = ofLines table config (splitLines tokens) ∧
            ofSource both config source = ofLines both config (splitLines tokens) ∧
            ∀ line ∈ splitLines tokens, (ofCursor table config (.ofTokens line)).KeptIn
              (ofCursor both config (.ofTokens line)) := by
  have read := Table.read_append h h'
  obtain ⟨parts, -, rfl⟩ := Table.read_eq_ok_iff.1 h
  obtain ⟨parts', -, rfl⟩ := Table.read_eq_ok_iff.1 h'
  have lookup := Table.lookup_append parts.flatten parts'.flatten
  have extended : (Table.ofTemplates (parts.flatten ++ parts'.flatten)).Extends
      (.ofTemplates parts.flatten) := fun mnemonic => ⟨_, (lookup mnemonic).symm⟩
  refine ⟨_, read, Table.size_append _ _, lookup, fun config => ⟨?_, ?_⟩⟩
  · intro start statement after found
    exact Statement.read_of_extends extended found
  · intro source tokens lexed
    refine ⟨ofSource_eq_ofLines _ _ lexed, ofSource_eq_ofLines _ _ lexed, ?_⟩
    intro line among
    have whole := line_of_mem_splitLines (.inr (Token.endsStatement_of_lex lexed)) line among
    exact keptIn_of_read (fun _ _ _ => Statement.read_of_extends extended) whole rfl

/-- The first text ends in a comment and a carriage return, and the second starts with a comment. -/
theorem ofSource_of_read_append_comments :
    ∃ both, Table.read ("nop => $ea ; idle\r" ++ "\n" ++ "; more\nNOP '#' imm8 => $80") = .ok both ∧
      both.size = 2 ∧
      both.lookup "Nop" =
        [.ofMnemonic "nop" [] 0xEA ∅, .ofMnemonic "nop" [.literal "#", .value .imm8] 0x80 ∅] := by
  have h : Table.read "nop => $ea ; idle\r" = .ok (.ofTemplates [.ofMnemonic "nop" [] 0xEA ∅]) := by
    cbv
  have h' : Table.read "; more\nNOP '#' imm8 => $80" =
      .ok (.ofTemplates [.ofMnemonic "nop" [.literal "#", .value .imm8] 0x80 ∅]) := by
    cbv
  obtain ⟨both, read, size, lookup, -⟩ := ofSource_of_read_append h h'
  refine ⟨both, read, size, (lookup "Nop").trans ?_⟩
  rw [Table.lookup_eq_filter, Table.lookup_eq_filter]
  decide +kernel

end Assembly

end Asm65
