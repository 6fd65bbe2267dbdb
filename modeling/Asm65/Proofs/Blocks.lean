import Asm65.Proofs.Lines
import Asm65.Proofs.ReadBack.Items

/-!
# The blocks of a line

Reading a line splits its tokens behind the mnemonic into blocks that stand side
by side. Each of them is a comma or the source of exactly one operand, in order
(`Operand.Blocks`), also where an expression has been looked for in vain and the
tokens are read again. Success and failure leave the cursor in the same statement
(`Cursor.InStatement`), and success at its end.

## Implementation notes

That no reader leaves a statement is taken from `Alignment`: what follows a
statement has no influence on its reading. This holds where the statement ends;
tokens without an end of statement cannot be left anyway.
-/

namespace Asm65

namespace Cursor

/-- One place stands behind another one in the same statement. -/
def InStatement (start now : Cursor) : Prop :=
  ∃ count ≤ start.rest.length, now = start.advance count ∧
    ∀ token ∈ start.rest.take count, token.kind ≠ .endOfStatement

/-- Before the length of a statement is reached, no token ends it. -/
theorem inside_of_lt_statementLength {tokens : List Token} {count : Nat}
    (h : count < statementLength tokens) :
    ∀ token ∈ tokens.take count, token.kind ≠ .endOfStatement := by
  induction tokens generalizing count with
  | nil => simp
  | cons token rest ih =>
    cases count with
    | zero => simp
    | succ count =>
      rw [statementLength] at h
      split at h
      · omega
      · next inside =>
        rw [List.take_succ_cons]
        exact List.forall_mem_cons.2 ⟨inside, ih (by omega)⟩

/-- The tokens from a place on that stand before the end of the statement. -/
def line (cursor : Cursor) : List Token :=
  cursor.rest.takeWhile (·.kind ≠ .endOfStatement)

section Line

variable {start now cursor : Cursor} {token : Token} {kinds : List TokenKind}

theorem InStatement.trans {middle : Cursor} (first : start.InStatement middle)
    (second : middle.InStatement now) : start.InStatement now := by
  obtain ⟨count, bound, rfl, inside⟩ := first
  obtain ⟨count', bound', rfl, inside'⟩ := second
  simp only [advance, List.length_drop] at bound'
  refine ⟨count + count', by omega, advance_advance start count count', ?_⟩
  rw [List.take_add]
  exact List.forall_mem_append.2 ⟨inside, inside'⟩

/-- A place further on in the statement stands in front of the same end. -/
theorem InStatement.line_suffix (h : start.InStatement now) : now.line <:+ start.line := by
  obtain ⟨count, -, rfl, inside⟩ := h
  have whole : start.line = start.rest.take count ++ (start.advance count).line := by
    rw [line, ← List.take_append_drop count start.rest, List.takeWhile_append_of_pos (by simpa),
      List.take_append_drop]
    rfl
  exact ⟨_, whole.symm⟩

theorem inStatement_of_starts (starts : cursor.Starts kinds)
    (inside : ∀ kind ∈ kinds, kind ≠ .endOfStatement) :
    cursor.InStatement (cursor.advance kinds.length) := by
  have first := List.prefix_iff_eq_take.1 starts
  rw [← List.map_take] at first
  refine ⟨kinds.length, by simpa using starts.length_le, rfl, fun token among => ?_⟩
  exact inside token.kind (first ▸ List.mem_map_of_mem among)

theorem starts_of_peek (here : cursor.peek? = some token) : cursor.Starts [token.kind] := by
  obtain ⟨rest, whole⟩ := List.head?_eq_some_iff.1 here
  simp [Starts, whole]

theorem inStatement_advance_one (here : cursor.peek? = some token)
    (inside : token.kind ≠ .endOfStatement) : cursor.InStatement (cursor.advance 1) :=
  inStatement_of_starts (starts_of_peek here) (by simpa using inside)

theorem mem_line_of_peek (here : cursor.peek? = some token)
    (inside : token.kind ≠ .endOfStatement) : token ∈ cursor.line := by
  obtain ⟨rest, whole⟩ := List.head?_eq_some_iff.1 here
  simp [line, whole, inside]

end Line

theorem spanSince_advance {cursor : Cursor} {count : Nat} {first last : Token}
    (starts : (cursor.rest.take count).head? = some first)
    (ends : (cursor.rest.take count).getLast? = some last) :
    cursor.spanSince (cursor.advance count) = first.span.through last.span := by
  have same : (cursor.advance count).position - cursor.position = count :=
    Nat.add_sub_cancel_left cursor.position count
  rw [spanSince, same, ends]
  cases here : cursor.rest with
  | nil => simp [here] at starts
  | cons token rest =>
    rw [here] at starts
    cases count with
    | zero => simp at starts
    | succ count =>
      cases starts
      rfl

end Cursor

namespace Alignment

/-- Tokens that end a statement align with themselves. -/
theorem tokens_self {a : Alignment} (anywhere : ∀ span, a.place.Rel span span)
    {tokens : List Token} (ended : ∃ token ∈ tokens, token.kind = .endOfStatement)
    (left : tokens.drop (Cursor.statementLength tokens) = a.more) (same : a.more' = a.more) :
    a.Tokens tokens tokens := by
  induction tokens with
  | nil => simp at ended
  | cons token rest ih =>
    rw [Cursor.statementLength] at left
    split at left
    · next closed =>
      have last : a.Tokens (token :: a.more) (token :: a.more') :=
        .last ⟨rfl, anywhere token.span⟩ closed
      rw [same, ← left] at last
      exact last
    · next inside =>
      have ended' : ∃ token ∈ rest, token.kind = .endOfStatement := by
        simpa [inside] using ended
      exact .cons ⟨rfl, anywhere token.span⟩ inside (ih ended' left)

end Alignment

namespace Reader

variable {α : Type}

/-- Where a result leaves the cursor. -/
def stopOf : EStateM.Result Diagnostic Cursor α → Cursor
  | .ok _ now | .error _ now => now

/-- A result that what follows the statement has no influence on does not leave the statement. -/
theorem inStatement_of_results {related : α → α → Prop} {least : Nat} {start : Cursor}
    {result : EStateM.Result Diagnostic Cursor α} (passed : Passed least start result)
    (agree : ∀ more, (Alignment.mk .anywhere 0 0 more more).Cursors start start →
      (Alignment.mk .anywhere 0 0 more more).Results related result result) :
    start.InStatement (stopOf result) := by
  have later : Cursor.LaterBy 0 start (stopOf result) := by
    cases result with
    | ok value now => exact Cursor.LaterBy.mono (Nat.zero_le least) passed
    | error diagnostic now => exact passed
  by_cases ended : ∃ token ∈ start.rest, token.kind = .endOfStatement
  · let more := start.rest.drop (Cursor.statementLength start.rest)
    let a : Alignment := ⟨.anywhere, 0, 0, more, more⟩
    have aligned : a.Cursors start start :=
      ⟨rfl, Alignment.tokens_self (fun _ => trivial) ended rfl rfl⟩
    have now : a.Cursors (stopOf result) (stopOf result) := by
      rcases agree more aligned with ⟨-, now⟩ | ⟨-, now⟩
      · exact now
      · exact now
    obtain ⟨count, -, bound, same⟩ := later
    refine ⟨count, bound, same, Cursor.inside_of_lt_statementLength ?_⟩
    have whole := aligned.tokens.statementLength_add
    have rest := now.tokens.statementLength_add
    have some_left := Cursor.statementLength_pos now.rest_ne_nil
    rw [same] at rest some_left
    simp only [Cursor.advance, List.length_drop] at rest some_left
    omega
  · obtain ⟨count, -, bound, same⟩ := later
    refine ⟨count, bound, same, fun token among closed => ended ⟨token, ?_, closed⟩⟩
    exact List.mem_of_mem_take among

/-- A reader that does not look behind the end of the statement does not pass it. -/
theorem inStatement_of_respects {related : α → α → Prop} {least : Nat} {reader : Reader α}
    (passes : Passes least reader)
    (respects : ∀ more, (Alignment.mk .anywhere 0 0 more more).Respects related reader reader)
    (start : Cursor) : start.InStatement (stopOf (reader start)) :=
  inStatement_of_results (passes start) fun more aligned => respects more aligned

end Reader

namespace Operand

/-- What the tokens of a block at a place are the source of: one operand, or none for a comma. -/
inductive Block (features : FeatureSet) (cursor : Cursor) : List Token → List Operand → Prop
  | comma (span : Span) : Block features cursor [⟨.punct .comma, span⟩] []
  | token {token : Token} (apart : token.kind ≠ .punct .comma) :
      Block features cursor [token] [.token token.kind.text token.span]
  | accumulator {token : Token} (named : token.kind.IsName accumulator) :
      Block features cursor [token] [.token accumulator token.span]
  | register {token : Token} {found : Register}
      (named : registerOf? features token.kind = some found) :
      Block features cursor [token] [.register found token.span]
  | immediate {first last : Token} {tokens : List Token} {expr : OperandExpr}
      (starts : tokens.head? = some first) (ends : tokens.getLast? = some last)
      (read : OperandExpr.read cursor = .ok expr (cursor.advance tokens.length)) :
      Block features cursor tokens [.immediate expr (first.span.through last.span)]

/-- Blocks that stand side by side from one place to another, and the operands they are the
sources of. -/
inductive Blocks (features : FeatureSet) : Cursor → List Operand → Cursor → Prop
  | nil (cursor : Cursor) : Blocks features cursor [] cursor
  | cons {cursor stop : Cursor} {tokens more : List Token} {made operands : List Operand}
      (here : cursor.rest = tokens ++ more) (block : Block features cursor tokens made)
      (tail : Blocks features (cursor.advance tokens.length) operands stop) :
      Blocks features cursor (made ++ operands) stop

namespace Blocks

variable {features : FeatureSet} {cursor middle stop : Cursor} {operands made : List Operand}
  {token : Token}

theorem append (first : Blocks features cursor made middle)
    (second : Blocks features middle operands stop) :
    Blocks features cursor (made ++ operands) stop := by
  induction first with
  | nil => exact second
  | cons here block _ ih =>
    rw [List.append_assoc]
    exact .cons here block (ih second)

theorem one {tokens more : List Token} (here : cursor.rest = tokens ++ more)
    (block : Block features cursor tokens made) :
    Blocks features cursor made (cursor.advance tokens.length) := by
  rw [← List.append_nil made]
  exact .cons here block (.nil _)

/-- The token at a place is a block. -/
theorem of_peek (here : cursor.peek? = some token) (block : Block features cursor [token] made) :
    Blocks features cursor made (cursor.advance 1) := by
  obtain ⟨more, whole⟩ : ∃ more, cursor.rest = token :: more := List.head?_eq_some_iff.1 here
  exact one whole block

theorem of_readImmediate {operand : Operand} {after : Cursor}
    (read : readImmediate cursor = .ok operand after) :
    Blocks features cursor [operand] after := by
  obtain ⟨expr, rfl, found⟩ := read_of_readImmediate read
  obtain ⟨count, some_read, bound, rfl⟩ := OperandExpr.passes_read.of_ok found
  have length : (cursor.rest.take count).length = count := List.length_take_of_le bound
  have some_token : cursor.rest.take count ≠ [] := by
    apply List.ne_nil_of_length_pos
    omega
  have starts := List.head?_eq_some_head some_token
  have ends := List.getLast?_eq_some_getLast some_token
  have block : Block features cursor (cursor.rest.take count) _ :=
    .immediate starts ends (length.symm ▸ found)
  have whole := one (List.take_append_drop count cursor.rest).symm block
  rwa [length, ← Cursor.spanSince_advance starts ends] at whole

/-- A token is taken as it is, and the operands behind it are read. -/
theorem cons_verbatim (here : cursor.peek? = some token) (apart : token.kind ≠ .punct .comma)
    (rest : Blocks features (cursor.advance 1) operands stop) :
    Blocks features cursor (verbatim token :: operands) stop :=
  (of_peek here (.token apart)).append rest

end Blocks

section Reading

variable {features : FeatureSet} {config : Config} {first : Bool} {token : Token}
  {cursor after : Cursor} {item : Item} {operands : List Operand}

theorem blocks_of_readBare (here : cursor.peek? = some token)
    (read : readBare features first token cursor = .ok item after) :
    Blocks features cursor item.operands after := by
  unfold readBare at read
  split at read
  · next comma =>
    cases read
    obtain ⟨_, span⟩ := token
    cases comma
    exact .of_peek here (.comma span)
  next apart =>
  split at read
  · next named =>
    cases read
    exact .of_peek here (.accumulator named.2)
  split at read
  · next named =>
    cases read
    exact .of_peek here (.register named)
  split at read
  · split at read
    · next found =>
      cases read
      exact .of_readImmediate found
    · split at read
      · cases read
        exact .of_peek here (.token apart)
      · cases read
  · cases read
    exact .of_peek here (.token apart)

theorem blocks_of_readPastDelimiter (here : cursor.peek? = some token)
    (apart : token.kind ≠ .punct .comma)
    (read : readPastDelimiter features first token (cursor.advance 1) = .ok item after) :
    Blocks features cursor item.operands after := by
  unfold readPastDelimiter at read
  split at read
  · cases read
    exact .cons_verbatim here apart (.nil _)
  next following behind =>
  split at read
  · cases read
    exact .cons_verbatim here apart (.nil _)
  split at read
  · next bare =>
    cases read
    exact .cons_verbatim here apart (blocks_of_readBare behind bare)
  · cases read

theorem blocks_of_readItem (here : cursor.peek? = some token)
    (read : readItem config first token cursor = .ok item after) :
    Blocks config.features cursor item.operands after := by
  by_cases opening : Introduces config.features token.kind
  · have apart := comma_of_introduces opening
    rcases readItem_of_introduces opening read with ⟨found, rfl, inside⟩ | ⟨-, -, -, past⟩
    · exact .cons_verbatim here apart (.of_readImmediate inside)
    · exact blocks_of_readPastDelimiter here apart past
  · obtain ⟨hash, delimiter⟩ := not_or.1 opening
    rw [not_not] at delimiter
    simp only [readItem, if_neg hash, delimiter] at read
    exact blocks_of_readBare here read

/-- Reading operands splits the tokens it passes into blocks. -/
theorem blocks_of_readItems (read : readItems config first cursor = .ok operands after) :
    Blocks config.features cursor operands after := by
  fun_induction readItems config first cursor generalizing operands with
  | case1 | case2 =>
    cases read
    exact .nil _
  | case3 first cursor current here inside item between found rest stop later ih =>
    cases read
    exact (blocks_of_readItem here found).append (ih later)
  | case4 => cases read
  | case5 => cases read

/-- Reading at a token of the statement stays in it. -/
theorem inStatement_readItem (config : Config) (first : Bool) (here : cursor.peek? = some token)
    (inside : token.kind ≠ .endOfStatement) :
    cursor.InStatement (Reader.stopOf (readItem config first token cursor)) := by
  have self : token.Agree .anywhere token := ⟨rfl, trivial⟩
  have agree (more : List Token) (aligned : (Alignment.mk .anywhere 0 0 more more).Cursors cursor
      cursor) : (Alignment.mk .anywhere 0 0 more more).Results (Item.Agree .anywhere)
        (readItem config first token cursor) (readItem config first token cursor) :=
    readItem_agree config first aligned here self inside
  exact Reader.inStatement_of_results (readItem_passed config first here) agree

/-- Reading operands stays in the statement. -/
theorem inStatement_readItems (config : Config) (first : Bool) (cursor : Cursor) :
    cursor.InStatement (Reader.stopOf (readItems config first cursor)) := by
  have respects (more : List Token) : (Alignment.mk .anywhere 0 0 more more).Respects
      (List.Forall₂ (Agree .anywhere)) (readItems config first) (readItems config first) :=
    respects_readItems config first
  exact Reader.inStatement_of_respects (passes_readItems config first) respects cursor

end Reading

/-- A line is read to its mnemonic and the operands of its blocks, up to the end of the statement,
or to a diagnostic within the statement. -/
theorem readLine_blocks (config : Config) (name : String) (place : Span) (tokens : List Token)
    (start : Nat) :
    ∃ n ≤ (tokens.drop start).length,
      (∀ token ∈ (tokens.drop start).take n, token.kind ≠ .endOfStatement) ∧
      ((∃ operands, readLine config ⟨.name name, place⟩ (.atIndex tokens start) =
            .ok (.token name place :: operands) (.atIndex tokens (start + n)) ∧
          Blocks config.features (.atIndex tokens start) operands (.atIndex tokens (start + n)) ∧
          ∀ token ∈ tokens[start + n]?, token.kind = .endOfStatement) ∨
        ∃ diagnostic, readLine config ⟨.name name, place⟩ (.atIndex tokens start) =
          .error diagnostic (.atIndex tokens (start + n))) := by
  obtain ⟨n, bound, stop, inside⟩ := inStatement_readItems config true (.atIndex tokens start)
  rw [Cursor.atIndex_advance] at stop
  refine ⟨n, bound, inside, ?_⟩
  cases read : readItems config true (.atIndex tokens start) with
  | ok operands after =>
    rw [read] at stop
    obtain rfl : after = .atIndex tokens (start + n) := stop
    have ended := atEndOfStatement_of_readItems read
    rw [Cursor.AtEndOfStatement, Cursor.peek?, Cursor.atIndex, List.head?_drop] at ended
    exact .inl ⟨operands, readLine_eq_ok_iff.2 ⟨name, operands, rfl, rfl, read⟩,
      blocks_of_readItems read, ended⟩
  | error diagnostic after =>
    rw [read] at stop
    obtain rfl : after = .atIndex tokens (start + n) := stop
    refine .inr ⟨diagnostic, ?_⟩
    simp only [readLine, TokenKind.name?, read]

end Operand

end Asm65
