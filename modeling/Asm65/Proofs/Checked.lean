import Asm65.Assembly
import Asm65.Proofs.Checked.Match
import Asm65.Proofs.Checked.Reader

/-!
# Nothing undefined in a run

The assembler once more, out of the checked lexer, readers and matcher: an
operation that may be undefined is, where it is, and so is all that uses it. On
every source, with every table and configuration, the run is defined and is the
one of the assembler (`ofSource_eq_some`).
-/

namespace Asm65.Checked

/-- Reads the instruction that a mnemonic starts. -/
def readInstruction (tokens : List Token) (table : Table) (config : Config) (mnemonic : Token)
    (cursor : Cursor) : Option (EStateM.Result Diagnostic Cursor Statement) := do
  match ← readLine tokens config mnemonic cursor with
  | .error diagnostic after => return .error diagnostic after
  | .ok operands after =>
    let outcome ← ofOperands table config.features operands
    match outcome.result operands with
    | .ok found => return .ok (.instruction found) after
    | .error diagnostic => return .error diagnostic after

/-- Reads the operands of a directive. -/
def readDirective (tokens : List Token) (name : String) (span : Span) (cursor : Cursor) :
    Option (EStateM.Result Diagnostic Cursor Statement) :=
  if Text.SameIgnoringCase name AddressText.directive then do
    match ← readAddress tokens cursor with
    | .ok found after => return .ok (.addressText found) after
    | .error diagnostic after => return .error diagnostic after
  else some (.error ⟨.unsupportedDirective name, span⟩ cursor)

/-- Reads a directive or an instruction. -/
def read (tokens : List Token) (table : Table) (config : Config) (cursor : Cursor) :
    Option (EStateM.Result Diagnostic Cursor Statement) :=
  match cursor.peek? with
  | none => some (.error ⟨.expected .statement, cursor.span⟩ cursor)
  | some token =>
    match token.kind.name? with
    | none => some (.error ⟨.expected .statement, token.span⟩ (cursor.advance 1))
    | some name =>
      if name.toList.head? = some '.' then readDirective tokens name token.span (cursor.advance 1)
      else readInstruction tokens table config token (cursor.advance 1)

/-- What the statement at a cursor gives, and the cursor for the next one. -/
def step (tokens : List Token) (table : Table) (config : Config) (cursor : Cursor) :
    Option (Assembly × Cursor) :=
  if cursor.AtEndOfStatement then some (∅, cursor.advance 1)
  else
    match Statement.readLabel? cursor with
    | some (label, after) => some (.ofStatement label, after)
    | none => do
      match ← read tokens table config cursor with
      | .ok statement after => return (.ofStatement statement, after.next.2)
      | .error diagnostic after => return (.ofDiagnostic diagnostic, after.skipStatement)

/-- Assembles the statements from a cursor on, each of which has to pass some token. -/
def ofCursor (tokens : List Token) (table : Table) (config : Config) (cursor : Cursor) :
    Option Assembly :=
  if cursor.rest = [] then some ∅
  else do
    let (first, after) ← step tokens table config cursor
    if _ : after.rest.length < cursor.rest.length then
      let later ← ofCursor tokens table config after
      return first ++ later
    else none
termination_by cursor.rest.length

/-- Assembles a source. -/
def ofSource (table : Table) (config : Config) (source : String) : Option Assembly := do
  match ← lex source with
  | .ok tokens => ofCursor tokens table config (.ofTokens tokens)
  | .error diagnostic => return .ofDiagnostic diagnostic

variable {tokens : List Token} {cursor : Cursor}

theorem readInstruction_eq (h : cursor.Within tokens) (table : Table) (config : Config)
    (mnemonic : Token) : readInstruction tokens table config mnemonic cursor =
      some (Statement.readInstruction table config mnemonic cursor) := by
  unfold readInstruction Statement.readInstruction
  rw [readLine_eq h]
  cases Operand.readLine config mnemonic cursor with
  | error diagnostic after => rfl
  | ok operands after =>
    simp only [ofOperands_eq, Option.bind_eq_bind, Option.bind_some]
    cases (Outcome.ofOperands table config.features operands).result operands <;> rfl

theorem readDirective_eq (h : cursor.Within tokens) (name : String) (span : Span) :
    readDirective tokens name span cursor = some (Statement.readDirective name span cursor) := by
  unfold readDirective Statement.readDirective
  rw [readAddress_eq h]
  split
  · cases AddressText.read cursor <;> rfl
  · rfl

theorem read_eq (h : cursor.Within tokens) (table : Table) (config : Config) :
    read tokens table config cursor = some (Statement.read table config cursor) := by
  unfold read Statement.read
  cases cursor.peek? with
  | none => rfl
  | some token =>
    dsimp only
    cases token.kind.name? with
    | none => rfl
    | some name =>
      dsimp only
      split
      · exact readDirective_eq (h.advance 1) name token.span
      · exact readInstruction_eq (h.advance 1) table config token

/-- A statement is read with every operation on the way. -/
theorem step_eq (h : cursor.Within tokens) (table : Table) (config : Config) :
    step tokens table config cursor = some (Assembly.step table config cursor) := by
  unfold step Assembly.step
  rw [read_eq h]
  split
  · rfl
  · cases Statement.readLabel? cursor with
    | some found => rfl
    | none => cases Statement.read table config cursor <;> rfl

/-- A run ends, with every operation on the way. -/
theorem ofCursor_eq (h : cursor.Within tokens) (table : Table) (config : Config) :
    ofCursor tokens table config cursor = some (Assembly.ofCursor table config cursor) := by
  fun_induction Assembly.ofCursor table config cursor with
  | case1 cursor ended =>
    rw [ofCursor]
    exact if_pos ended
  | case2 cursor left ih =>
    rw [ofCursor, if_neg left, step_eq h]
    simp only [dif_pos (Assembly.step_shorter table config left),
      ih (h.later (Assembly.laterBy_step table config left)), Option.bind_eq_bind,
      Option.bind_some]
    rfl

theorem ofSource_eq (table : Table) (config : Config) (source : String) :
    ofSource table config source = some (Assembly.ofSource table config source) := by
  unfold ofSource Assembly.ofSource
  rw [lex_eq_some]
  cases lexed : Token.lex source with
  | error diagnostic => rfl
  | ok tokens =>
    have start : (Cursor.ofTokens tokens).Within tokens := ⟨Token.ordered_of_lex lexed, rfl⟩
    exact ofCursor_eq start table config

/-- Every operation in a run of the assembler is defined. The positions in the index of a table
are those of its templates, and a count of characters is only cast when it is one to eight. -/
theorem ofSource_eq_some (table : Table) (config : Config) (source : String) :
    ofSource table config source = some (Assembly.ofSource table config source) ∧
    (∀ mnemonic : String, ∀ positions ∈ table.index[mnemonic]?, ∀ position ∈ positions,
      position < table.size) ∧
    ∀ count, ∀ chars ∈ AddressText.charCount? count,
      1 ≤ chars ∧ chars ≤ 8 ∧ count.toInt = chars := by
  refine ⟨ofSource_eq table config source, fun mnemonic positions found position among => ?_,
    fun count chars counted => ?_⟩
  · exact lt_size_of_index found among
  · unfold AddressText.charCount? at counted
    split at counted
    · cases counted
      omega
    · cases counted

/-- An operand of three tokens is out of range, and the diagnostic has the span of all three. -/
theorem ofSource_eq_some_sum :
    let table := Table.ofTemplates [.ofMnemonic "lda" [.value .addr8] 0xa5 ∅]
    ofSource table {} "lda 255+1" = some (.ofDiagnostic ⟨.invalidAddr8, ⟨4, 5⟩⟩) ∧
      0 < table.size ∧ (8 : Int64).toInt = (8 : Nat) := by
  intro table
  obtain ⟨run, inside, counted⟩ := ofSource_eq_some table {} "lda 255+1"
  let mnemonic : Token := ⟨.name "lda", ⟨0, 3⟩⟩
  let tokens : List Token := [mnemonic, ⟨.number .decimal "255", ⟨4, 3⟩⟩,
    ⟨.punct .plus, ⟨7, 1⟩⟩, ⟨.number .decimal "1", ⟨8, 1⟩⟩, ⟨.endOfStatement, ⟨9, 0⟩⟩]
  let operands : List Operand := [.token "lda" ⟨0, 3⟩,
    .immediate (.plain (.binary .add (.constant 255) (.constant 1))) ⟨4, 5⟩]
  have lexed : Token.lex "lda 255+1" = .ok tokens := by cbv
  have read : Operand.readLine {} mnemonic ((Cursor.ofTokens tokens).advance 1) =
      .ok operands (.atIndex tokens 4) := by cbv
  have outcome : Outcome.ofOperands table ({} : Config).features operands =
      .invalidOperand 1 (some (.value .addr8)) := by
    rw [Outcome.ofOperands_of_token]
    cbv
  have rejected : Statement.readInstruction table {} mnemonic
      ((Cursor.ofTokens tokens).advance 1) =
        .error ⟨.invalidAddr8, ⟨4, 5⟩⟩ (.atIndex tokens 4) := by
    simp only [Statement.readInstruction, read, outcome]
    rfl
  have assembled : Assembly.ofSource table {} "lda 255+1" =
      .ofDiagnostic ⟨.invalidAddr8, ⟨4, 5⟩⟩ := by
    rw [Assembly.ofSource_eq_readInstruction lexed (by decide) (by decide) (by decide), rejected]
  have stored : [0] ∈ table.index["lda"]? := by
    rw [Table.index_agrees]
    decide +kernel
  rw [assembled] at run
  exact ⟨run, inside "lda" [0] stored 0 (List.mem_singleton_self 0),
    (counted 8 8 (by decide)).2.2⟩

end Asm65.Checked
