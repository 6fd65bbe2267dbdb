import Asm65.Config
import Asm65.Operand
import Asm65.OperandExpr.Reader

/-!
# Reading operand lists

The operands of a line follow its mnemonic: `#e`, `(e)`, on the long chips
`[e]`, a bare expression in the first place, registers, and any other token
as it is. Commas are dropped. Which addressing mode the list is of is decided
by matching, not here.

## Implementation notes

`readItem` reads at least one token (`readItem_shorter`), and says whether the
first operand is still to come. `readItems` repeats it.
-/

namespace Asm65

/-- Whether something else was expected, as opposed to a defect of what was found. -/
def Cause.isExpectation : Cause → Bool
  | .expected _ => true
  | _ => false

/-- The same diagnostic, with another expectation in place of the one it has. -/
def Diagnostic.expecting (what : Expected) (diagnostic : Diagnostic) : Diagnostic :=
  if diagnostic.cause.isExpectation then ⟨.expected what, diagnostic.span⟩ else diagnostic

namespace Operand

/-- A token taken as it is. -/
def verbatim (token : Token) : Operand :=
  .token token.kind.text token.span

/-- The accumulator as an operand. -/
def accumulator : String := "a"

/-- The register that a token names as an operand of an instruction. -/
def registerOf? (features : FeatureSet) (kind : TokenKind) : Option Register :=
  (kind.name?.bind (Register.ofName? features)).filter Register.isOperandClass

/-- Reads an expression as an operand. -/
def readImmediate : Reader Operand := fun cursor =>
  match OperandExpr.read cursor with
  | .ok expr after => .ok (.immediate expr (cursor.spanSince after)) after
  | .error diagnostic after => .error diagnostic after

theorem passes_readImmediate : Reader.Passes 1 readImmediate := by
  intro start
  have read := OperandExpr.passes_read start
  unfold readImmediate
  cases h : OperandExpr.read start with
  | ok expr after =>
    rw [h] at read
    exact read
  | error diagnostic after =>
    rw [h] at read
    exact read

/-- Operands read, and whether the first operand is still to come. -/
structure Item where
  operands : List Operand
  first : Bool
deriving DecidableEq

/-- Reads an operand that no delimiter introduces. -/
def readBare (features : FeatureSet) (first : Bool) (token : Token) : Reader Item := fun cursor =>
  if token.kind = .punct .comma then .ok ⟨[], first⟩ (cursor.advance 1)
  else if first ∧ token.kind.IsName accumulator then
    .ok ⟨[.token accumulator token.span], false⟩ (cursor.advance 1)
  else
    match registerOf? features token.kind with
    | some found => .ok ⟨[.register found token.span], first⟩ (cursor.advance 1)
    | none =>
      if first then
        match readImmediate cursor with
        | .ok operand after => .ok ⟨[operand], false⟩ after
        | .error diagnostic after =>
          if diagnostic.cause.isExpectation then .ok ⟨[verbatim token], false⟩ (cursor.advance 1)
          else .error diagnostic after
      else .ok ⟨[verbatim token], false⟩ (cursor.advance 1)

theorem readBare_passed (features : FeatureSet) (first : Bool) {token : Token} {start : Cursor}
    (h : start.peek? = some token) :
    Reader.Passed 1 start (readBare features first token start) := by
  have one := Cursor.laterBy_advance_one h
  unfold readBare
  split
  · exact one
  split
  · exact one
  split
  · exact one
  split
  · have read := passes_readImmediate start
    cases found : readImmediate start with
    | ok operand after =>
      rw [found] at read
      exact read
    | error diagnostic after =>
      rw [found] at read
      dsimp only
      split
      · exact one
      · exact read
  · exact one

/-- Reads `#` and the expression that has to follow it. -/
def readHash (token : Token) : Reader Item := fun cursor =>
  match readImmediate (cursor.advance 1) with
  | .ok operand after => .ok ⟨[verbatim token, operand], false⟩ after
  | .error diagnostic after => .error (diagnostic.expecting .immediate) after

theorem readHash_passed {token : Token} {start : Cursor} (h : start.peek? = some token) :
    Reader.Passed 1 start (readHash token start) := by
  have one := Cursor.laterBy_advance_one h
  have read := passes_readImmediate (start.advance 1)
  unfold readHash
  cases found : readImmediate (start.advance 1) with
  | ok operand after =>
    rw [found] at read
    exact (one.trans read).mono (by decide)
  | error diagnostic after =>
    rw [found] at read
    exact (one.trans read).mono (by decide)

/-- Reads on behind a delimiter that no expression follows. -/
def readPastDelimiter (features : FeatureSet) (first : Bool) (token : Token) : Reader Item :=
  fun cursor =>
    match cursor.peek? with
    | none => .ok ⟨[verbatim token], first⟩ cursor
    | some following =>
      if following.kind = .endOfStatement then .ok ⟨[verbatim token], first⟩ cursor
      else
        match readBare features first following cursor with
        | .ok item after => .ok ⟨verbatim token :: item.operands, item.first⟩ after
        | .error diagnostic after => .error diagnostic after

theorem passes_readPastDelimiter (features : FeatureSet) (first : Bool) (token : Token) :
    Reader.Passes 0 (readPastDelimiter features first token) := by
  intro start
  unfold readPastDelimiter
  cases h : start.peek? with
  | none => exact Cursor.LaterBy.refl start
  | some following =>
    dsimp only
    split
    · exact Cursor.LaterBy.refl start
    · have read := readBare_passed features first h
      cases found : readBare features first following start with
      | ok item after =>
        rw [found] at read
        exact read.mono (by decide)
      | error diagnostic after =>
        rw [found] at read
        exact read

/-- Reads an opening delimiter and the expression behind it. -/
def readDelimited (config : Config) (what : Expected) (first : Bool) (token : Token) :
    Reader Item := fun cursor =>
  match readImmediate (cursor.advance 1) with
  | .ok operand after => .ok ⟨[verbatim token, operand], false⟩ after
  | .error diagnostic after =>
    if diagnostic.cause.isExpectation ∧ config.policy = .fallThrough then
      readPastDelimiter config.features first token (cursor.advance 1)
    else .error (diagnostic.expecting what) after

theorem readDelimited_passed (config : Config) (what : Expected) (first : Bool) {token : Token}
    {start : Cursor} (h : start.peek? = some token) :
    Reader.Passed 1 start (readDelimited config what first token start) := by
  have one := Cursor.laterBy_advance_one h
  have read := passes_readImmediate (start.advance 1)
  unfold readDelimited
  cases found : readImmediate (start.advance 1) with
  | ok operand after =>
    rw [found] at read
    exact (one.trans read).mono (by decide)
  | error diagnostic after =>
    rw [found] at read
    dsimp only
    split
    · exact Reader.Passed.after one (by decide)
        (passes_readPastDelimiter config.features first token)
    · exact (one.trans read).mono (by decide)

/-- What an opening delimiter asks for. A bracket delimits on the long chips only. -/
def delimiter? (features : FeatureSet) : TokenKind → Option Expected
  | .punct .openParen => some .afterParen
  | .punct .openBracket => if .mosw65816 ∈ features then some .afterBracket else none
  | _ => none

/-- Reads what starts with the token at the cursor. -/
def readItem (config : Config) (first : Bool) (token : Token) : Reader Item := fun cursor =>
  if token.kind = .punct .hash then readHash token cursor
  else
    match delimiter? config.features token.kind with
    | some what => readDelimited config what first token cursor
    | none => readBare config.features first token cursor

theorem readItem_passed (config : Config) (first : Bool) {token : Token} {start : Cursor}
    (h : start.peek? = some token) :
    Reader.Passed 1 start (readItem config first token start) := by
  unfold readItem
  split
  · exact readHash_passed h
  · split
    · next what _ => exact readDelimited_passed config what first h
    · exact readBare_passed config.features first h

theorem readItem_shorter {config : Config} {first : Bool} {token : Token} {start after : Cursor}
    {item : Item} (h : start.peek? = some token)
    (read : readItem config first token start = .ok item after) :
    after.rest.length < start.rest.length := by
  have later := readItem_passed config first h
  rw [read] at later
  exact later.length_le

/-- Reads operands up to the end of the statement, which is left to be read. -/
def readItems (config : Config) (first : Bool) (cursor : Cursor) :
    EStateM.Result Diagnostic Cursor (List Operand) :=
  match _ : cursor.peek? with
  | none => .ok [] cursor
  | some current =>
    if current.kind = .endOfStatement then .ok [] cursor
    else
      match _ : readItem config first current cursor with
      | .ok item after =>
        match readItems config item.first after with
        | .ok operands stop => .ok (item.operands ++ operands) stop
        | .error diagnostic stop => .error diagnostic stop
      | .error diagnostic after => .error diagnostic after
termination_by cursor.rest.length
decreasing_by exact readItem_shorter ‹_› ‹_›

theorem readItems_of_end (config : Config) (first : Bool) {cursor : Cursor}
    (h : cursor.AtEndOfStatement) : readItems config first cursor = .ok [] cursor := by
  rw [readItems]
  split
  · rfl
  · next current here => exact if_pos (h current here)

theorem readItems_of_ok {config : Config} {first : Bool} {token : Token} {cursor after : Cursor}
    {item : Item} (here : cursor.peek? = some token) (inside : token.kind ≠ .endOfStatement)
    (read : readItem config first token cursor = .ok item after) :
    readItems config first cursor =
      match readItems config item.first after with
      | .ok operands stop => .ok (item.operands ++ operands) stop
      | .error diagnostic stop => .error diagnostic stop := by
  rw [readItems]
  split
  · next missing => simp [here] at missing
  · next current found =>
    cases here.symm.trans found
    rw [if_neg inside]
    split
    · next found' =>
      cases read.symm.trans found'
      rfl
    · next failed => cases read.symm.trans failed

theorem readItems_of_error {config : Config} {first : Bool} {token : Token}
    {cursor after : Cursor} {diagnostic : Diagnostic} (here : cursor.peek? = some token)
    (inside : token.kind ≠ .endOfStatement)
    (read : readItem config first token cursor = .error diagnostic after) :
    readItems config first cursor = .error diagnostic after := by
  rw [readItems]
  split
  · next missing => simp [here] at missing
  · next current found =>
    cases here.symm.trans found
    rw [if_neg inside]
    split
    · next found' => cases read.symm.trans found'
    · next failed =>
      cases read.symm.trans failed
      rfl

theorem passes_readItems (config : Config) (first : Bool) :
    Reader.Passes 0 (readItems config first) := by
  intro start
  fun_induction readItems config first start with
  | case1 first start h => exact Cursor.LaterBy.refl start
  | case2 first start current h closed => exact Cursor.LaterBy.refl start
  | case3 first start current h inside item after found operands stop rest ih =>
    have read := readItem_passed config first h
    rw [found] at read
    rw [rest] at ih
    exact (read.mono (Nat.zero_le 1)).trans ih
  | case4 first start current h inside item after found diagnostic stop rest ih =>
    have read := readItem_passed config first h
    rw [found] at read
    rw [rest] at ih
    exact (read.mono (Nat.zero_le 1)).trans ih
  | case5 first start current h inside diagnostic after found =>
    have read := readItem_passed config first h
    rw [found] at read
    exact read

/-- Reads the operands of a line behind its mnemonic, which is the first of them. -/
def readLine (config : Config) (mnemonic : Token) : Reader (List Operand) := fun cursor =>
  match mnemonic.kind.name? with
  | some name =>
    match readItems config true cursor with
    | .ok operands after => .ok (.token name mnemonic.span :: operands) after
    | .error diagnostic after => .error diagnostic after
  | none => .error ⟨.expected .statement, mnemonic.span⟩ cursor

theorem passes_readLine (config : Config) (mnemonic : Token) :
    Reader.Passes 0 (readLine config mnemonic) := by
  intro start
  unfold readLine
  cases mnemonic.kind.name? with
  | none => exact Cursor.LaterBy.refl start
  | some name =>
    have read := passes_readItems config true start
    dsimp only
    cases found : readItems config true start with
    | ok operands after =>
      rw [found] at read
      exact read
    | error diagnostic after =>
      rw [found] at read
      exact read

theorem readLine_eq_ok_iff {config : Config} {mnemonic : Token} {cursor after : Cursor}
    {operands : List Operand} : readLine config mnemonic cursor = .ok operands after ↔
      ∃ name rest, mnemonic.kind = .name name ∧ operands = .token name mnemonic.span :: rest ∧
        readItems config true cursor = .ok rest after := by
  constructor
  · intro h
    unfold readLine at h
    split at h
    · next name named =>
      split at h
      · next rest after found =>
        cases h
        exact ⟨name, rest, TokenKind.name?_eq_some_iff.1 named, rfl, found⟩
      · cases h
    · cases h
  · rintro ⟨name, rest, named, rfl, found⟩
    simp only [readLine, named, TokenKind.name?, found]

end Operand

end Asm65
