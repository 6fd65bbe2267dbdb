import Asm65.Statement
import Asm65.Token.Lexer

/-!
# Assembling a source

One cursor passes over the tokens of a source, statement by statement. After a
statement it stands behind its end; after a diagnostic, behind the next end of
statement, so that a bad line does not stop the others.
-/

namespace Asm65

/-- What a source assembles to. A bad line does not stop the others. -/
structure Assembly where
  statements : List Statement
  diagnostics : List Diagnostic
deriving DecidableEq

namespace Assembly

instance : EmptyCollection Assembly := ⟨⟨[], []⟩⟩

instance : Append Assembly :=
  ⟨fun first second =>
    ⟨first.statements ++ second.statements, first.diagnostics ++ second.diagnostics⟩⟩

theorem append_empty (assembly : Assembly) : assembly ++ ∅ = assembly := by
  obtain ⟨statements, diagnostics⟩ := assembly
  change mk (statements ++ []) (diagnostics ++ []) = _
  rw [List.append_nil, List.append_nil]

theorem append_assoc (first second third : Assembly) :
    first ++ second ++ third = first ++ (second ++ third) := by
  change mk (_ ++ _ ++ _) (_ ++ _ ++ _) = mk (_ ++ (_ ++ _)) (_ ++ (_ ++ _))
  rw [List.append_assoc, List.append_assoc]

/-- An assembly of one statement. -/
def ofStatement (statement : Statement) : Assembly :=
  ⟨[statement], []⟩

/-- An assembly of one diagnostic. -/
def ofDiagnostic (diagnostic : Diagnostic) : Assembly :=
  ⟨[], [diagnostic]⟩

/-- What the statement at a cursor gives, and the cursor for the next one. A label is read
alone, since another statement may follow it. -/
def step (table : Table) (config : Config) (cursor : Cursor) : Assembly × Cursor :=
  if cursor.AtEndOfStatement then (∅, cursor.advance 1)
  else
    match Statement.readLabel? cursor with
    | some (label, after) => (ofStatement label, after)
    | none =>
      match Statement.read table config cursor with
      | .ok statement after => (ofStatement statement, after.next.2)
      | .error diagnostic after => (ofDiagnostic diagnostic, after.skipStatement)

theorem step_shorter (table : Table) (config : Config) {cursor : Cursor}
    (h : cursor.rest ≠ []) :
    (step table config cursor).2.rest.length < cursor.rest.length := by
  have some_left := List.length_pos_iff.2 h
  have read := Statement.passes_read table config cursor
  unfold step
  split
  · simp only [Cursor.advance, List.length_drop]
    omega
  · split
    · next label after found =>
      have later := (Statement.laterBy_of_readLabel? found).length_le
      dsimp only
      omega
    · cases found : Statement.read table config cursor with
      | ok statement after =>
        rw [found] at read
        have later := read.length_le
        have next := (Cursor.laterBy_next after).length_le
        dsimp only
        omega
      | error diagnostic after =>
        rw [found] at read
        have later := read.length_le
        have skipped := (Cursor.laterBy_skipStatement after).length_le
        dsimp only
        by_cases left : after.rest = []
        · rw [left] at skipped
          simp only [List.length_nil] at skipped
          omega
        · have passed := Cursor.statementLength_pos left
          omega

/-- Assembles the statements from a cursor on. -/
def ofCursor (table : Table) (config : Config) (cursor : Cursor) : Assembly :=
  if _ : cursor.rest = [] then ∅
  else
    (step table config cursor).1 ++ ofCursor table config (step table config cursor).2
termination_by cursor.rest.length
decreasing_by exact step_shorter table config ‹_›

theorem ofCursor_of_end (table : Table) (config : Config) {cursor : Cursor}
    (h : cursor.rest = []) : ofCursor table config cursor = ∅ := by
  rw [ofCursor, dif_pos h]

theorem ofCursor_of_rest (table : Table) (config : Config) {cursor : Cursor}
    (h : cursor.rest ≠ []) :
    ofCursor table config cursor =
      (step table config cursor).1 ++ ofCursor table config (step table config cursor).2 := by
  rw [ofCursor, dif_neg h]

/-- Assembles a source. -/
def ofSource (table : Table) (config : Config) (source : String) : Assembly :=
  match Token.lex source with
  | .ok tokens => ofCursor table config (.ofTokens tokens)
  | .error diagnostic => ofDiagnostic diagnostic

/-- The listing of an assembly, one statement a line. -/
def listing (assembly : Assembly) : String :=
  String.join (assembly.statements.map fun statement => statement.text ++ "\n")

end Assembly

end Asm65
