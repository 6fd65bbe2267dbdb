import Asm65.Proofs.Lines
import Asm65.Proofs.ReadBack.Text

/-!
# Places where the text of operands stands

The tokens that are left at a place may be those of the text of operands
(`StandAt`). The first operand then has the first tokens (`Leads`), and what is
read there is compared with it (`IsReadAs`).
-/

namespace Asm65

open Instruction (opens closes SpellsAll SpellsBehind)

namespace OperandExpr

/-- Whether something other than an expression stands at a place. -/
def Misses (cursor : Cursor) : Prop :=
  ∃ diagnostic after, read cursor = .error diagnostic after ∧ diagnostic.cause.isExpectation

theorem Misses.of_same_kinds {cursor cursor' : Cursor} (h : Misses cursor)
    (line : Line cursor.rest) (same : cursor.rest.map Token.kind = cursor'.rest.map Token.kind) :
    Misses cursor' := by
  have aligned := line.aligned_of_kinds same (List.append_nil _).symm (List.append_nil _).symm
  obtain ⟨diagnostic, after, failed, expected⟩ := h
  have results := respects_read aligned
  rw [failed] at results
  revert results
  generalize found : read cursor' = result
  rintro (_ | @⟨_, diagnostic', _, after', agree, -⟩)
  exact ⟨diagnostic', after', found, agree.cause ▸ expected⟩

end OperandExpr

namespace Operand

/-- Whether an expression is looked for in the text of operands without any being there. -/
def StartsNoExpression (operands : List Operand) : Prop :=
  ∃ tokens, Token.lexFrom .operandExpected 0 (Instruction.textOf operands).toList = .ok tokens ∧
    OperandExpr.Misses (.ofTokens (Token.closeStatement 0 tokens))

/-- Whether the text of operands stands between a place and the end of its statement. -/
def StandAt (features : FeatureSet) (operands : List Operand) (cursor : Cursor) : Prop :=
  ∃ kinds, SpellsAll features operands kinds ∧
    cursor.rest.map Token.kind = kinds ++ [.endOfStatement]

/-- The tokens of the first one of some operands, and those behind it. -/
structure Leads (features : FeatureSet) (operand : Operand) (rest : List Operand)
    (cursor : Cursor) (tokens more : List Token) : Prop where
  whole : cursor.rest = tokens ++ more
  spells : operand.Spells features (tokens.map Token.kind)
  behind : ∃ kinds, SpellsBehind features operand rest kinds ∧
    more.map Token.kind = kinds ++ [.endOfStatement]

theorem StandAt.leads {features : FeatureSet} {operand : Operand} {rest : List Operand}
    {cursor : Cursor} (h : StandAt features (operand :: rest) cursor) :
    ∃ tokens more, Leads features operand rest cursor tokens more := by
  obtain ⟨kinds, spelled, here⟩ := h
  cases spelled with
  | cons head tail =>
    rw [List.append_assoc] at here
    obtain ⟨tokens, more, whole, rfl, second⟩ := List.map_eq_append_iff.1 here
    exact ⟨tokens, more, whole, head, _, tail, second⟩

section Standing

variable {config : Config} {features : FeatureSet} {operand : Operand}
  {operands rest : List Operand} {cursor : Cursor} {token : Token} {tokens more : List Token}
  {first : Bool} {expr : OperandExpr} {span : Span}

theorem StandAt.line (h : StandAt features operands cursor) : Line cursor.rest := by
  obtain ⟨kinds, spelled, here⟩ := h
  exact .of_kinds spelled.inside here

theorem startsNoExpression_iff (h : StandAt features operands cursor) :
    StartsNoExpression operands ↔ OperandExpr.Misses cursor := by
  have line := h.line
  obtain ⟨kinds, spelled, here⟩ := h
  obtain ⟨tokens, lexed, same⟩ := spelled.lexes.lexed 0
  rw [← Token.lexFrom_eq_ok_iff] at lexed
  have closed := Token.kinds_closeStatement same spelled.inside 0
  constructor
  · rintro ⟨tokens', lexed', missed⟩
    cases lexed.symm.trans lexed'
    exact missed.of_same_kinds (.of_kinds spelled.inside closed) (closed.trans here.symm)
  · intro missed
    exact ⟨tokens, lexed, missed.of_same_kinds line (here.trans closed.symm)⟩

/-- Commas are passed. -/
theorem readItems_comma (here : cursor.peek? = some token) (comma : token.kind = .punct .comma) :
    readItems config first cursor = readItems config first (cursor.advance 1) := by
  have read : readItem config first token cursor = .ok ⟨[], first⟩ (cursor.advance 1) := by
    simp only [readItem, readBare, delimiter?, comma, TokenKind.punct.injEq, reduceCtorEq, if_false,
      if_true]
  rw [readItems_of_ok here (comma ▸ nofun) read]
  cases readItems config first (cursor.advance 1) <;> rfl

/-- Nothing stands where no operand does. -/
theorem StandAt.atEndOfStatement (h : StandAt features [] cursor) : cursor.AtEndOfStatement := by
  obtain ⟨kinds, spelled, here⟩ := h
  cases spelled
  obtain ⟨token, rest, closed⟩ := List.map_eq_singleton_iff.1 here
  simpa [Cursor.AtEndOfStatement, Cursor.peek?, rest] using closed

/-- Nor does an expression. -/
theorem StandAt.misses (h : StandAt features [] cursor) : OperandExpr.Misses cursor := by
  obtain ⟨kinds, spelled, here⟩ := h
  cases spelled
  obtain ⟨⟨kind, span⟩, rest, closed⟩ := List.map_eq_singleton_iff.1 here
  obtain ⟨position, tokens, stop⟩ := cursor
  cases rest
  cases closed
  exact ⟨_, _, rfl, rfl⟩

namespace Leads

theorem follows (h : Leads features operand rest cursor tokens more) (apart : ¬opens operand) :
    ∀ token ∈ more.head?, token.kind.Follows := by
  obtain ⟨kinds, spelled, behind⟩ := h.behind
  intro token found
  apply spelled.follows apart token.kind
  rw [← behind, List.head?_map]
  exact Option.mem_map_of_mem Token.kind found

theorem rest_advance (h : Leads features operand rest cursor tokens more) :
    (cursor.advance tokens.length).rest = more :=
  Cursor.rest_advance h.whole

/-- Nothing stands between a group and what is inside it. -/
theorem standAt_of_opens (h : Leads features operand rest cursor tokens more)
    (opening : opens operand) : StandAt features rest (cursor.advance tokens.length) := by
  obtain ⟨kinds, spelled, behind⟩ := h.behind
  rw [← h.rest_advance] at behind
  cases spelled with
  | nil => exact ⟨[], .nil, behind⟩
  | cons head tail =>
    rw [Instruction.gap, if_pos (by simp [opening]), List.nil_append] at behind
    exact ⟨_, .cons head tail, behind⟩

/-- A comma between two operands is passed. -/
theorem exists_standAt (h : Leads features operand rest cursor tokens more) :
    ∃ cursor', StandAt features rest cursor' ∧ ∀ config first,
      readItems config first (cursor.advance tokens.length) = readItems config first cursor' := by
  obtain ⟨kinds, spelled, behind⟩ := h.behind
  rw [← h.rest_advance] at behind
  cases spelled with
  | nil => exact ⟨_, ⟨[], .nil, behind⟩, fun _ _ => rfl⟩
  | @cons _ operand' rest _ _ head tail =>
    unfold Instruction.gap at behind
    split at behind
    · exact ⟨_, ⟨_, .cons head tail, behind⟩, fun _ _ => rfl⟩
    · obtain ⟨comma, others, here, same, left⟩ := List.map_eq_cons_iff.1 behind
      have peek : (cursor.advance tokens.length).peek? = some comma := by
        rw [Cursor.peek?, here]
        rfl
      refine ⟨(cursor.advance tokens.length).advance 1, ⟨_, .cons head tail, ?_⟩,
        fun config first => readItems_comma peek same⟩
      rw [Cursor.advance, here]
      exact left

theorem of_register {found : Register}
    (h : Leads features (.register found span) rest cursor tokens more) :
    ∃ token, tokens = [token] ∧ cursor.peek? = some token ∧
      token.kind = .name found.text ∧ found.isOperandClass := by
  obtain ⟨whole, spelled, -⟩ := h
  generalize same : tokens.map Token.kind = kinds at spelled
  cases spelled with
  | register operandClass =>
    obtain ⟨token, rfl, kind⟩ := List.map_eq_singleton_iff.1 same
    exact ⟨token, rfl, by rw [Cursor.peek?, whole]; rfl, kind, operandClass⟩

theorem of_immediate (h : Leads features (.immediate expr span) rest cursor tokens more) :
    tokens.map Token.kind = expr.kinds ∧ expr.Writable := by
  obtain ⟨whole, spelled, -⟩ := h
  generalize same : tokens.map Token.kind = kinds at spelled
  cases spelled with
  | immediate written => exact ⟨rfl, written⟩

/-- The first token of an expression. -/
theorem peek_immediate (h : Leads features (.immediate expr span) rest cursor tokens more) :
    ∃ token, cursor.peek? = some token ∧ token.kind ∈ expr.kinds.head? ∧
      token.kind ≠ .endOfStatement ∧ token.kind ≠ .punct .comma := by
  obtain ⟨same, -⟩ := h.of_immediate
  obtain ⟨kind, others, starts, comma, -⟩ := expr.exists_first_kind
  have inside := expr.inside_kinds kind (by simp [starts])
  rw [starts] at same
  obtain ⟨token, rest, rfl, rfl, -⟩ := List.map_eq_cons_iff.1 same
  refine ⟨token, ?_, ?_, inside, comma⟩
  · rw [Cursor.peek?, h.whole]
    rfl
  · rw [starts]
    exact Option.mem_some_self _

theorem of_token {text : String}
    (h : Leads features (.token text span) rest cursor tokens more) :
    ∃ token, tokens = [token] ∧ cursor.peek? = some token ∧ token.kind.text = text ∧
      token.kind.IsLexed ∧ token.kind ≠ .endOfStatement ∧ token.kind ≠ .punct .comma ∧
      registerOf? features token.kind = none := by
  obtain ⟨whole, spelled, -⟩ := h
  generalize same : tokens.map Token.kind = kinds at spelled
  cases spelled with
  | token lexed inside apart other =>
    obtain ⟨token, rfl, rfl⟩ := List.map_eq_singleton_iff.1 same
    exact ⟨token, rfl, by rw [Cursor.peek?, whole]; rfl, rfl, lexed, inside, apart, other⟩

/-- A name is an expression. -/
theorem not_misses {name : String}
    (h : Leads features operand rest cursor [token] more) (named : token.kind = .name name)
    (text : TokenKind.IsNameText name) : ¬OperandExpr.Misses cursor := by
  have apart : ¬opens operand := by
    intro opening
    obtain ⟨p, -, same, -⟩ := Instruction.eq_of_opens h.spells opening
    rw [List.map_singleton, named] at same
    cases same
  have written : (OperandExpr.plain (.symbol name)).Writable := text
  have kinds : [token].map Token.kind = (OperandExpr.plain (.symbol name)).kinds := by
    rw [List.map_singleton, named]
    rfl
  have read := OperandExpr.read_of_keepsText written trivial h.whole kinds (h.follows apart)
  rintro ⟨diagnostic, after, failed, -⟩
  cases read.symm.trans failed

end Leads

end Standing

/-- Whether operands are read from a place, wherever else they stood. -/
def IsReadAs (config : Config) (first : Bool) (operands : List Operand) (cursor : Cursor) : Prop :=
  ∃ again after, readItems config first cursor = .ok again after ∧
    List.Forall₂ (Agree .anywhere) operands again

section Reading

variable {config : Config} {first first' : Bool} {operand operand' found found' : Operand}
  {rest : List Operand} {cursor after : Cursor} {token : Token}

theorem IsReadAs.of_same {operands : List Operand} {cursor' : Cursor}
    (same : readItems config first cursor = readItems config first cursor') :
    IsReadAs config first operands cursor ↔ IsReadAs config first operands cursor' := by
  unfold IsReadAs
  rw [same]

theorem isReadAs_of_atEndOfStatement (h : cursor.AtEndOfStatement) :
    IsReadAs config first [] cursor :=
  ⟨[], cursor, readItems_of_end config first h, .nil⟩

theorem isReadAs_cons_iff (here : cursor.peek? = some token)
    (inside : token.kind ≠ .endOfStatement)
    (read : readItem config first token cursor = .ok ⟨[found], first'⟩ after) :
    IsReadAs config first (operand :: rest) cursor ↔
      operand.Agree .anywhere found ∧ IsReadAs config first' rest after := by
  unfold IsReadAs
  rw [readItems_of_ok here inside read]
  cases readItems config first' after with
  | ok operands stop => simp
  | error diagnostic stop => simp

theorem isReadAs_cons_cons_iff (here : cursor.peek? = some token)
    (inside : token.kind ≠ .endOfStatement)
    (read : readItem config first token cursor = .ok ⟨[found, found'], first'⟩ after) :
    IsReadAs config first (operand :: operand' :: rest) cursor ↔
      operand.Agree .anywhere found ∧ operand'.Agree .anywhere found' ∧
        IsReadAs config first' rest after := by
  unfold IsReadAs
  rw [readItems_of_ok here inside read]
  cases readItems config first' after with
  | ok operands stop => simp [and_assoc]
  | error diagnostic stop => simp

end Reading

end Operand

end Asm65
