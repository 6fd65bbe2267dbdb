import Asm65.Proofs.Accounting
import Asm65.Proofs.Checked.Lexer

/-!
# Reading with checked spans

Reading again, with spans taken from the whole list of tokens: the span since a
place ends with the token before the cursor, and its length is a difference
(`spanSince`). The tokens of a source stand one behind the other and no reader
goes back behind its start, so all spans are defined and the readers do what
those of the assembler do (`readLine_eq`, `readAddress_eq`).

## Implementation notes

Here the spans that the address directive may blame are taken as soon as the
tokens are read, as its diagnostics are not known yet.
-/

namespace Asm65

open Operand (Item verbatim accumulator registerOf? delimiter?)

/-- Whether a cursor stands in a list of tokens that stand one behind the other. -/
structure Cursor.Within (tokens : List Token) (cursor : Cursor) : Prop where
  ordered : tokens.Pairwise fun token later => token.span.stop ≤ later.span.offset
  place : cursor = .atIndex tokens cursor.position

theorem Cursor.Within.later {tokens : List Token} {least : Nat} {start now : Cursor}
    (h : start.Within tokens) (later : Cursor.LaterBy least start now) : now.Within tokens := by
  obtain ⟨count, -, -, rfl⟩ := later
  refine ⟨h.ordered, ?_⟩
  rw [h.place, Cursor.atIndex_advance]
  rfl

theorem Cursor.Within.advance {tokens : List Token} {cursor : Cursor} (h : cursor.Within tokens)
    (count : Nat) : (cursor.advance count).Within tokens := by
  refine ⟨h.ordered, ?_⟩
  rw [h.place, Cursor.atIndex_advance]
  rfl

namespace Checked

/-- The span of the tokens from an index to the cursor. -/
def spanSince (tokens : List Token) (start : Nat) (now : Cursor) : Option Span :=
  match tokens[start]? with
  | none => some now.span
  | some first =>
    if now.position ≤ start then some (.empty first.span.offset)
    else do
      let before ← now.position.psub 1
      let last ← tokens[before]?
      let length ← last.span.stop.psub first.span.offset
      return ⟨first.span.offset, length⟩

/-- Reads an expression as an operand. -/
def readImmediate (tokens : List Token) (cursor : Cursor) :
    Option (EStateM.Result Diagnostic Cursor Operand) :=
  match OperandExpr.read cursor with
  | .ok expr after => do
    let span ← spanSince tokens cursor.position after
    return .ok (.immediate expr span) after
  | .error diagnostic after => some (.error diagnostic after)

/-- Reads an operand that no delimiter introduces. -/
def readBare (tokens : List Token) (features : FeatureSet) (first : Bool) (token : Token)
    (cursor : Cursor) : Option (EStateM.Result Diagnostic Cursor Item) :=
  if token.kind = .punct .comma then some (.ok ⟨[], first⟩ (cursor.advance 1))
  else if first ∧ token.kind.IsName accumulator then
    some (.ok ⟨[.token accumulator token.span], false⟩ (cursor.advance 1))
  else
    match registerOf? features token.kind with
    | some found => some (.ok ⟨[.register found token.span], first⟩ (cursor.advance 1))
    | none =>
      if first then do
        match ← readImmediate tokens cursor with
        | .ok operand after => return .ok ⟨[operand], false⟩ after
        | .error diagnostic after =>
          if diagnostic.cause.isExpectation then
            return .ok ⟨[verbatim token], false⟩ (cursor.advance 1)
          else return .error diagnostic after
      else some (.ok ⟨[verbatim token], false⟩ (cursor.advance 1))

/-- Reads a hash sign and the expression that has to follow it. -/
def readHash (tokens : List Token) (token : Token) (cursor : Cursor) :
    Option (EStateM.Result Diagnostic Cursor Item) := do
  match ← readImmediate tokens (cursor.advance 1) with
  | .ok operand after => return .ok ⟨[verbatim token, operand], false⟩ after
  | .error diagnostic after => return .error (diagnostic.expecting .immediate) after

/-- Reads on behind a delimiter that no expression follows. -/
def readPastDelimiter (tokens : List Token) (features : FeatureSet) (first : Bool) (token : Token)
    (cursor : Cursor) : Option (EStateM.Result Diagnostic Cursor Item) :=
  match cursor.peek? with
  | none => some (.ok ⟨[verbatim token], first⟩ cursor)
  | some following =>
    if following.kind = .endOfStatement then some (.ok ⟨[verbatim token], first⟩ cursor)
    else do
      match ← readBare tokens features first following cursor with
      | .ok item after => return .ok ⟨verbatim token :: item.operands, item.first⟩ after
      | .error diagnostic after => return .error diagnostic after

/-- Reads an opening delimiter and the expression behind it. -/
def readDelimited (tokens : List Token) (config : Config) (what : Expected) (first : Bool)
    (token : Token) (cursor : Cursor) : Option (EStateM.Result Diagnostic Cursor Item) := do
  match ← readImmediate tokens (cursor.advance 1) with
  | .ok operand after => return .ok ⟨[verbatim token, operand], false⟩ after
  | .error diagnostic after =>
    if diagnostic.cause.isExpectation ∧ config.policy = .fallThrough then
      readPastDelimiter tokens config.features first token (cursor.advance 1)
    else return .error (diagnostic.expecting what) after

/-- Reads what starts with the token at the cursor. -/
def readItem (tokens : List Token) (config : Config) (first : Bool) (token : Token)
    (cursor : Cursor) : Option (EStateM.Result Diagnostic Cursor Item) :=
  if token.kind = .punct .hash then readHash tokens token cursor
  else
    match delimiter? config.features token.kind with
    | some what => readDelimited tokens config what first token cursor
    | none => readBare tokens config.features first token cursor

/-- Reads operands up to the end of the statement, each of which has to pass some token. -/
def readItems (tokens : List Token) (config : Config) (first : Bool) (cursor : Cursor) :
    Option (EStateM.Result Diagnostic Cursor (List Operand)) :=
  match cursor.peek? with
  | none => some (.ok [] cursor)
  | some current =>
    if current.kind = .endOfStatement then some (.ok [] cursor)
    else do
      match ← readItem tokens config first current cursor with
      | .ok item after =>
        if _ : after.rest.length < cursor.rest.length then
          match ← readItems tokens config item.first after with
          | .ok operands stop => return .ok (item.operands ++ operands) stop
          | .error diagnostic stop => return .error diagnostic stop
        else none
      | .error diagnostic after => return .error diagnostic after
termination_by cursor.rest.length

/-- Reads the operands of a line behind its mnemonic, which is the first of them. -/
def readLine (tokens : List Token) (config : Config) (mnemonic : Token) (cursor : Cursor) :
    Option (EStateM.Result Diagnostic Cursor (List Operand)) :=
  match mnemonic.kind.name? with
  | some name => do
    match ← readItems tokens config true cursor with
    | .ok operands after => return .ok (.token name mnemonic.span :: operands) after
    | .error diagnostic after => return .error diagnostic after
  | none => some (.error ⟨.expected .statement, mnemonic.span⟩ cursor)

/-- Reads the count behind the comma of the address directive, and takes its span. -/
def readCount (tokens : List Token) (cursor : Cursor) :
    Option (EStateM.Result Diagnostic Cursor (Option Int64 × Span)) :=
  match Expr.read cursor with
  | .ok count after => do
    let span ← spanSince tokens cursor.position after
    return .ok (count.value?, span) after
  | .error diagnostic after => some (.error diagnostic after)

/-- What the operands of the directive make, with the span of the address taken before. The count
is cast once it is known to be in range. -/
def ofParts (tokens : List Token) (start : Nat) (addressSpan : Span) (address : Expr) :
    Option Int64 × Span → Cursor → Option (EStateM.Result Diagnostic Cursor AddressText)
  | (none, countSpan), after => some (.error ⟨.expected .absoluteExpression, countSpan⟩ after)
  | (some count, countSpan), after =>
    if 1 ≤ count.toInt ∧ count.toInt ≤ 8 then do
      let chars ← count.toInt.toNat?
      if after.AtEndOfStatement then do
        let span ← spanSince tokens start after
        match AddressText.ofAddress? address chars span with
        | some text => return .ok text after
        | none => return .error ⟨.literalWidth, addressSpan⟩ after
      else return .error ⟨.expected .endOfStatement, after.span⟩ after
    else some (.error ⟨.charCountRange count, countSpan⟩ after)

/-- Reads what follows the name of the address directive. -/
def readAddress (tokens : List Token) (start : Cursor) :
    Option (EStateM.Result Diagnostic Cursor AddressText) :=
  match Expr.read start with
  | .error diagnostic after => some (.error diagnostic after)
  | .ok address afterAddress => do
    let addressSpan ← spanSince tokens start.position afterAddress
    match Reader.expect (.punct .comma) .charCount afterAddress with
    | .error diagnostic after => return .error diagnostic after
    | .ok _ afterComma =>
      match ← readCount tokens afterComma with
      | .error diagnostic after => return .error diagnostic after
      | .ok counted after => ofParts tokens start.position addressSpan address counted after

section Operands

variable {tokens : List Token} {cursor : Cursor}

/-- The last of some tokens ends behind the start of the first. -/
theorem offset_le_stop_of_ordered {first last : Token} {rest : List Token}
    (ordered : (first :: rest).Pairwise fun token later => token.span.stop ≤ later.span.offset)
    (among : last ∈ first :: rest) : first.span.offset ≤ last.span.stop := by
  rcases List.mem_cons.1 among with rfl | among
  · exact last.span.offset_le_stop
  · have behind := (List.pairwise_cons.1 ordered).1 last among
    exact (first.span.offset_le_stop.trans behind).trans last.span.offset_le_stop

/-- From a place on, a span ends with a token that is read, and not before its start. -/
theorem spanSince_eq {now : Cursor} (h : cursor.Within tokens)
    (later : Cursor.LaterBy 0 cursor now) :
    spanSince tokens cursor.position now = some (cursor.spanSince now) := by
  obtain ⟨count, -, bound, rfl⟩ := later
  obtain ⟨position, rest, stop⟩ := cursor
  have place : rest = tokens.drop position := congrArg Cursor.rest h.place
  have ordered : rest.Pairwise fun token later => token.span.stop ≤ later.span.offset :=
    place ▸ h.ordered.sublist (List.drop_sublist position tokens)
  have here (offset : Nat) : tokens[position + offset]? = rest[offset]? := by
    rw [place, List.getElem?_drop]
  have starts := here 0
  rw [Nat.add_zero] at starts
  simp only [spanSince, Cursor.spanSince, Cursor.advance, starts, Nat.add_sub_cancel_left]
  cases rest with
  | nil => rfl
  | cons first rest =>
    cases count with
    | zero => simp
    | succ count =>
      have inside : count < (first :: rest).length := bound
      have ends : tokens[position + count]? = some (first :: rest)[count] := by
        rw [here, List.getElem?_eq_getElem inside]
      have last : ((first :: rest).take (count + 1)).getLast? = some (first :: rest)[count] := by
        rw [List.getLast?_take, if_neg (Nat.succ_ne_zero count), Nat.add_sub_cancel,
          List.getElem?_eq_getElem inside, Option.some_or]
      have whole := offset_le_stop_of_ordered ordered (List.getElem_mem inside)
      have behind : ¬position + (count + 1) ≤ position := by omega
      have before : (position + (count + 1)).psub 1 = some (position + count) :=
        Nat.psub_eq_sub (by omega)
      simp only [List.getElem?_cons_zero, if_neg behind, before, ends, last,
        Nat.psub_eq_sub whole, Option.bind_eq_bind, Option.bind_some]
      rfl

/-- Tokens in the wrong order have no span. -/
example : spanSince [⟨.endOfStatement, ⟨4, 1⟩⟩, ⟨.endOfStatement, ⟨0, 1⟩⟩] 0 ⟨2, [], 1⟩ = none := by
  decide

theorem readImmediate_eq (h : cursor.Within tokens) :
    readImmediate tokens cursor = some (Operand.readImmediate cursor) := by
  have passed := OperandExpr.passes_read cursor
  unfold readImmediate Operand.readImmediate
  cases read : OperandExpr.read cursor with
  | ok expr after =>
    rw [read] at passed
    simp only [spanSince_eq h (passed.mono (Nat.zero_le 1)), Option.bind_eq_bind, Option.bind_some]
    rfl
  | error diagnostic after => rfl

theorem readBare_eq (h : cursor.Within tokens) (features : FeatureSet) (first : Bool)
    (token : Token) : readBare tokens features first token cursor =
      some (Operand.readBare features first token cursor) := by
  unfold readBare Operand.readBare
  rw [readImmediate_eq h]
  split
  · rfl
  split
  · rfl
  cases registerOf? features token.kind with
  | some found => rfl
  | none =>
    dsimp only
    split
    · cases Operand.readImmediate cursor with
      | ok operand after => rfl
      | error diagnostic after =>
        simp only [Option.bind_eq_bind, Option.bind_some]
        split <;> rfl
    · rfl

theorem readHash_eq (h : cursor.Within tokens) (token : Token) :
    readHash tokens token cursor = some (Operand.readHash token cursor) := by
  unfold readHash Operand.readHash
  rw [readImmediate_eq (h.advance 1)]
  cases Operand.readImmediate (cursor.advance 1) <;> rfl

theorem readPastDelimiter_eq (h : cursor.Within tokens) (features : FeatureSet) (first : Bool)
    (token : Token) : readPastDelimiter tokens features first token cursor =
      some (Operand.readPastDelimiter features first token cursor) := by
  unfold readPastDelimiter Operand.readPastDelimiter
  cases cursor.peek? with
  | none => rfl
  | some following =>
    dsimp only
    rw [readBare_eq h]
    split
    · rfl
    · cases Operand.readBare features first following cursor <;> rfl

theorem readDelimited_eq (h : cursor.Within tokens) (config : Config) (what : Expected)
    (first : Bool) (token : Token) : readDelimited tokens config what first token cursor =
      some (Operand.readDelimited config what first token cursor) := by
  unfold readDelimited Operand.readDelimited
  rw [readImmediate_eq (h.advance 1)]
  cases Operand.readImmediate (cursor.advance 1) with
  | ok operand after => rfl
  | error diagnostic after =>
    simp only [readPastDelimiter_eq (h.advance 1), Option.bind_eq_bind, Option.bind_some]
    split <;> rfl

theorem readItem_eq (h : cursor.Within tokens) (config : Config) (first : Bool) (token : Token) :
    readItem tokens config first token cursor =
      some (Operand.readItem config first token cursor) := by
  unfold readItem Operand.readItem
  split
  · exact readHash_eq h token
  · cases delimiter? config.features token.kind with
    | some what => exact readDelimited_eq h config what first token
    | none => exact readBare_eq h config.features first token

/-- Reading operands ends, with every span on the way. -/
theorem readItems_eq (h : cursor.Within tokens) (config : Config) (first : Bool) :
    readItems tokens config first cursor = some (Operand.readItems config first cursor) := by
  fun_induction Operand.readItems config first cursor with
  | case1 first cursor missing => rw [readItems, missing]
  | case2 first cursor current here closed =>
    rw [readItems, here]
    exact if_pos closed
  | case3 first cursor current here inside item after read _ stop rest ih
  | case4 first cursor current here inside item after read _ stop rest ih =>
    have later := Operand.readItem_passed config first here
    rw [read] at later
    have shorter : after.rest.length < cursor.rest.length := later.length_le
    rw [readItems, here]
    simp only [if_neg inside, readItem_eq h, read, dif_pos shorter, ih (h.later later), rest,
      Option.bind_eq_bind, Option.bind_some]
    rfl
  | case5 first cursor current here inside diagnostic after failed =>
    rw [readItems, here]
    simp only [if_neg inside, readItem_eq h, failed, Option.bind_eq_bind, Option.bind_some]
    rfl

theorem readLine_eq (h : cursor.Within tokens) (config : Config) (mnemonic : Token) :
    readLine tokens config mnemonic cursor = some (Operand.readLine config mnemonic cursor) := by
  unfold readLine Operand.readLine
  rw [readItems_eq h]
  cases mnemonic.kind.name? with
  | none => rfl
  | some name => cases Operand.readItems config true cursor <;> rfl

theorem readCount_eq (h : cursor.Within tokens) :
    readCount tokens cursor = some (AddressText.readCount cursor) := by
  have passed := Expr.passes_read cursor
  unfold readCount AddressText.readCount
  cases read : Expr.read cursor with
  | ok count after =>
    rw [read] at passed
    simp only [spanSince_eq h (passed.mono (Nat.zero_le 1)), Option.bind_eq_bind, Option.bind_some]
    rfl
  | error diagnostic after => rfl

/-- A count in range is cast to the number it is. -/
theorem ofParts_eq {after : Cursor} (h : cursor.Within tokens)
    (later : Cursor.LaterBy 0 cursor after) (afterAddress : Cursor) (address : Expr)
    (counted : Option Int64 × Span) :
    ofParts tokens cursor.position (cursor.spanSince afterAddress) address counted after =
      some (AddressText.ofParts cursor afterAddress address counted after) := by
  obtain ⟨count, countSpan⟩ := counted
  cases count with
  | none => rfl
  | some count =>
    unfold ofParts AddressText.ofParts AddressText.charCount?
    dsimp only
    by_cases inside : 1 ≤ count.toInt ∧ count.toInt ≤ 8
    · have cast : count.toInt.toNat? = some count.toInt.toNat :=
        Int.mem_toNat?.2 (Int.toNat_of_nonneg (by omega)).symm
      simp only [if_pos inside, cast, spanSince_eq h later, Option.bind_eq_bind, Option.bind_some]
      split
      · cases AddressText.ofAddress? address count.toInt.toNat (cursor.spanSince after) <;> rfl
      · rfl
    · rw [if_neg inside, if_neg inside]

theorem readAddress_eq (h : cursor.Within tokens) :
    readAddress tokens cursor = some (AddressText.read cursor) := by
  have address := Expr.passes_read cursor
  unfold readAddress AddressText.read
  cases read : Expr.read cursor with
  | error diagnostic after => rfl
  | ok expr afterAddress =>
    rw [read] at address
    have first := address.mono (Nat.zero_le 1)
    have comma := Reader.passes_expect (.punct .comma) .charCount afterAddress
    simp only [spanSince_eq h first, Option.bind_eq_bind, Option.bind_some]
    cases passed : Reader.expect (.punct .comma) .charCount afterAddress with
    | error diagnostic after => rfl
    | ok _ afterComma =>
      rw [passed] at comma
      have second := first.trans (comma.mono (Nat.zero_le 1))
      have count := AddressText.passes_readCount afterComma
      simp only [readCount_eq (h.later second), Option.bind_some]
      cases counted : AddressText.readCount afterComma with
      | error diagnostic after => rfl
      | ok found after =>
        rw [counted] at count
        exact ofParts_eq h (second.trans (count.mono (Nat.zero_le 1))) afterAddress expr found

end Operands

end Checked

end Asm65
