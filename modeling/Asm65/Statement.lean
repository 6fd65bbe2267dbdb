import Asm65.AddressText
import Asm65.Match
import Asm65.Operand.Reader

/-!
# Statements

A statement is a label, an instruction, or the address directive. Its text is
what a listing shows.

## Implementation notes

Commas are dropped when operands are read. In the text of an instruction one
comes back between two operands, unless a delimiter opens before or closes
after the gap.
-/

namespace Asm65

namespace Instruction

/-- Whether an operand opens a group, so that the next one follows without a gap. -/
def opens (operand : Operand) : Bool :=
  operand.isToken "#" || operand.isToken "(" || operand.isToken "["

/-- Whether an operand closes a group, so that it follows the one before without a gap. -/
def closes (operand : Operand) : Bool :=
  operand.isToken ")" || operand.isToken "]"

/-- The text between two operands. -/
def separator (before after : Operand) : String :=
  if opens before || closes after then "" else ", "

/-- The text of the operands behind another one. -/
def restText (before : Operand) : List Operand → String
  | [] => ""
  | operand :: rest => separator before operand ++ operand.text ++ restText operand rest

/-- The text of operands, behind a mnemonic. -/
def operandsText : List Operand → String
  | [] => ""
  | operand :: rest => " " ++ operand.text ++ restText operand rest

/-- The text of an instruction: the mnemonic of its template, and its operands. -/
def text (found : Instruction) : String :=
  found.template.mnemonic ++ operandsText found.operands.tail

end Instruction

/-- A statement of a source. -/
inductive Statement
  | label (name : String) (span : Span)
  | instruction (found : Instruction)
  | addressText (found : AddressText)
deriving DecidableEq

namespace Statement

/-- The text of a statement. -/
def text : Statement → String
  | label name _ => name ++ ":"
  | instruction found =>
    "\t$" ++ Text.hexByte found.template.opcode ++ "\t" ++ found.text
  | addressText found => found.text

/-- Reads the instruction that a mnemonic starts. -/
def readInstruction (table : Table) (config : Config) (mnemonic : Token) : Reader Statement :=
  fun cursor =>
    match Operand.readLine config mnemonic cursor with
    | .error diagnostic after => .error diagnostic after
    | .ok operands after =>
      match (Outcome.ofOperands table config.features operands).result operands with
      | .ok found => .ok (.instruction found) after
      | .error diagnostic => .error diagnostic after

theorem passes_readInstruction (table : Table) (config : Config) (mnemonic : Token) :
    Reader.Passes 0 (readInstruction table config mnemonic) := by
  intro start
  have line := Operand.passes_readLine config mnemonic start
  unfold readInstruction
  cases found : Operand.readLine config mnemonic start with
  | error diagnostic after =>
    rw [found] at line
    exact line
  | ok operands after =>
    rw [found] at line
    dsimp only
    split
    · exact line
    · exact line

theorem readInstruction_eq_ok_iff {table : Table} {config : Config} {mnemonic : Token}
    {cursor after : Cursor} {statement : Statement} :
    readInstruction table config mnemonic cursor = .ok statement after ↔
      ∃ name operands found, mnemonic.kind = .name name ∧
        Operand.readItems config true cursor = .ok operands after ∧
        Outcome.ofOperands table config.features (.token name mnemonic.span :: operands) =
          .matched found ∧ statement = .instruction found := by
  constructor
  · intro h
    unfold readInstruction at h
    split at h
    · cases h
    · next line =>
      obtain ⟨name, operands, named, rfl, items⟩ := Operand.readLine_eq_ok_iff.1 line
      split at h
      · next found matched =>
        cases h
        exact ⟨name, operands, found, named, items, Outcome.result_eq_ok_iff.1 matched, rfl⟩
      · cases h
  · rintro ⟨name, operands, found, named, items, matched, rfl⟩
    have line := Operand.readLine_eq_ok_iff.2 ⟨name, operands, named, rfl, items⟩
    simp only [readInstruction, line, Outcome.result_eq_ok_iff.2 matched]

/-- Reads the operands of a directive. -/
def readDirective (name : String) (span : Span) : Reader Statement := fun cursor =>
  if Text.SameIgnoringCase name AddressText.directive then
    match AddressText.read cursor with
    | .ok found after => .ok (.addressText found) after
    | .error diagnostic after => .error diagnostic after
  else .error ⟨.unsupportedDirective name, span⟩ cursor

theorem passes_readDirective (name : String) (span : Span) :
    Reader.Passes 0 (readDirective name span) := by
  intro start
  have text := AddressText.passes_read start
  unfold readDirective
  split
  · cases found : AddressText.read start with
    | ok address after =>
      rw [found] at text
      exact text
    | error diagnostic after =>
      rw [found] at text
      exact text
  · exact Cursor.LaterBy.refl start

/-- Reads a directive or an instruction, and leaves its end of statement to be read. -/
def read (table : Table) (config : Config) : Reader Statement := fun cursor =>
  match cursor.peek? with
  | none => .error ⟨.expected .statement, cursor.span⟩ cursor
  | some token =>
    match token.kind.name? with
    | none => .error ⟨.expected .statement, token.span⟩ (cursor.advance 1)
    | some name =>
      if name.toList.head? = some '.' then readDirective name token.span (cursor.advance 1)
      else readInstruction table config token (cursor.advance 1)

theorem passes_read (table : Table) (config : Config) :
    Reader.Passes 1 (read table config) := by
  intro start
  unfold read
  cases h : start.peek? with
  | none => exact Cursor.LaterBy.refl start
  | some token =>
    have one := Cursor.laterBy_advance_one h
    dsimp only
    split
    · exact one.mono (Nat.zero_le 1)
    · split
      · exact Reader.Passed.after one (Nat.le_refl 1) (passes_readDirective _ _)
      · exact Reader.Passed.after one (Nat.le_refl 1) (passes_readInstruction _ _ _)

/-- What is read is the text of an address, or an instruction behind a name that is no
directive. -/
theorem read_eq_ok {table : Table} {config : Config} {cursor after : Cursor}
    {statement : Statement} (h : read table config cursor = .ok statement after) :
    (∃ found, AddressText.read (cursor.advance 1) = .ok found after ∧
      statement = .addressText found) ∨
    ∃ token name operands found, cursor.peek? = some token ∧ token.kind = .name name ∧
      name.toList.head? ≠ some '.' ∧
      Operand.readItems config true (cursor.advance 1) = .ok operands after ∧
      Outcome.ofOperands table config.features (.token name token.span :: operands) =
        .matched found ∧ statement = .instruction found := by
  unfold read at h
  split at h
  · cases h
  · next token here =>
    split at h
    · cases h
    · next name named =>
      rw [TokenKind.name?_eq_some_iff] at named
      split at h
      · unfold readDirective at h
        split at h
        · split at h
          · next found after read =>
            cases h
            exact .inl ⟨found, read, rfl⟩
          · cases h
        · cases h
      · next plain =>
        obtain ⟨name', operands, found, named', items, matched, rfl⟩ :=
          readInstruction_eq_ok_iff.1 h
        cases named.symm.trans named'
        exact .inr ⟨token, name, operands, found, here, named, plain, items, matched, rfl⟩

/-- Passes a label: a name and the colon behind it. -/
def readLabel? (cursor : Cursor) : Option (Statement × Cursor) :=
  match cursor.rest with
  | ⟨.name name, span⟩ :: ⟨.punct .colon, _⟩ :: _ => some (.label name span, cursor.advance 2)
  | _ => none

theorem laterBy_of_readLabel? {start after : Cursor} {label : Statement}
    (h : readLabel? start = some (label, after)) : Cursor.LaterBy 2 start after := by
  unfold readLabel? at h
  split at h
  · next rest =>
    cases h
    exact Cursor.laterBy_advance (by simp [rest])
  · cases h

end Statement

end Asm65
