import Asm65.Proofs.Instruction

/-!
# Unresolved expressions

An expression has no value when it has a symbol, or an operation on known
values that gives none (`Expr.value?_eq_none_iff`). The two reasons are not
told apart: in an operand each kind takes the place of the other
(`ofSource_unresolved`), so `lda 1/0` is left to the linker like `lda table`.
-/

namespace Asm65

/-- Whether an operator has no value on two words. -/
def BinaryOp.Fails : BinaryOp → Int64 → Int64 → Prop
  | shl, _, right | shr, _, right => ¬IsShiftAmount right
  | div, left, right | mod, left, right => ¬HasQuotient left right
  | or, _, _ | xor, _, _ | and, _, _ | add, _, _ | sub, _, _ | mul, _, _ => False

theorem BinaryOp.value?_eq_none_iff {op : BinaryOp} {left right : Int64} :
    op.value? left right = none ↔ op.Fails left right := by
  cases op <;> simp [value?, Fails]

namespace Expr

/-- Whether a symbol occurs in an expression. -/
def HasSymbol : Expr → Prop
  | constant _ => False
  | symbol _ => True
  | unary _ operand => operand.HasSymbol
  | binary _ left right => left.HasSymbol ∨ right.HasSymbol

/-- Whether an operation on known values that gives none occurs in an expression. -/
def HasFailure : Expr → Prop
  | constant _ | symbol _ => False
  | unary _ operand => operand.HasFailure
  | binary op left right =>
    left.HasFailure ∨ right.HasFailure ∨
      ∃ first second, left.value? = some first ∧ right.value? = some second ∧
        op.Fails first second

theorem value?_binary_eq_none_iff {op : BinaryOp} {left right : Expr} :
    (binary op left right).value? = none ↔ left.value? = none ∨ right.value? = none ∨
      ∃ first second, left.value? = some first ∧ right.value? = some second ∧
        op.Fails first second := by
  rw [value?]
  cases left.value? with
  | none => simp
  | some first =>
    cases right.value? with
    | none => simp
    | some second => simp [BinaryOp.value?_eq_none_iff]

/-- An expression without a value has a symbol, or a failing operation. -/
theorem value?_eq_none_iff {expr : Expr} :
    expr.value? = none ↔ expr.HasSymbol ∨ expr.HasFailure := by
  induction expr with
  | constant value => simp [value?, HasSymbol, HasFailure]
  | symbol name => simp [value?, HasSymbol]
  | unary op operand ih => rw [value?, Option.map_eq_none_iff, ih, HasSymbol, HasFailure]
  | binary op left right ihLeft ihRight =>
    rw [value?_binary_eq_none_iff, ihLeft, ihRight, HasSymbol, HasFailure]
    tauto

end Expr

namespace OperandExpr

theorem value?_eq_none_iff {expr : OperandExpr} :
    expr.value? = none ↔ expr.inner.value? = none := by
  cases expr with
  | plain => rfl
  | modified => exact Option.map_eq_none_iff

/-- An expression of an operand without a value has a symbol, or a failing operation. -/
theorem hasSymbol_or_hasFailure {expr : OperandExpr} (unknown : expr.value? = none) :
    expr.inner.HasSymbol ∨ expr.inner.HasFailure :=
  Expr.value?_eq_none_iff.1 (value?_eq_none_iff.1 unknown)

/-- An expression of an operand has a value, a symbol or a failing operation. -/
theorem exists_value?_or_hasSymbol_or_hasFailure (expr : OperandExpr) :
    (∃ value, expr.value? = some value) ∨ expr.inner.HasSymbol ∨ expr.inner.HasFailure := by
  cases known : expr.value? with
  | some value => exact .inl ⟨value, rfl⟩
  | none => exact .inr (hasSymbol_or_hasFailure known)

/-- The same expression, or two without values under the same modifier. -/
inductive Interchangeable : OperandExpr → OperandExpr → Prop
  | same (expr : OperandExpr) : Interchangeable expr expr
  | plain {expr expr' : Expr} (unknown : expr.value? = none) (unknown' : expr'.value? = none) :
      Interchangeable (.plain expr) (.plain expr')
  | modified (kind : Modifier) (negated negated' : Bool) {expr expr' : Expr}
      (unknown : expr.value? = none) (unknown' : expr'.value? = none) :
      Interchangeable (.modified kind expr negated) (.modified kind expr' negated')

theorem Interchangeable.fits_eq {expr expr' : OperandExpr} (h : expr.Interchangeable expr')
    (low high : Int) : expr.fits low high = expr'.fits low high := by
  cases h with
  | same => rfl
  | plain unknown unknown' => simp only [fits, unknown, unknown']
  | modified kind negated negated' unknown unknown' =>
    simp only [fits, value?, unknown, unknown', Option.map_none]

end OperandExpr

namespace Operand

/-- The same operand, or two interchangeable expressions. -/
inductive Interchangeable : Operand → Operand → Prop
  | same (operand : Operand) : Interchangeable operand operand
  | immediate {expr expr' : OperandExpr} (span span' : Span) (h : expr.Interchangeable expr') :
      Interchangeable (.immediate expr span) (.immediate expr' span')

namespace Interchangeable

variable {operand operand' : Operand}

theorem fits_eq (h : operand.Interchangeable operand') (low high : Int) :
    operand.fits low high = operand'.fits low high := by
  cases h with
  | same => rfl
  | immediate span span' h => exact h.fits_eq low high

theorem sameShapes (h : operand.Interchangeable operand') : operand.SameShapes operand' := by
  intro shape
  cases shape with
  | literal | register => cases h <;> rfl
  | value operandClass =>
    cases operandClass <;> simp only [Shape.admits, OperandClass.admits, h.fits_eq]

end Interchangeable

end Operand

/-- A matched instruction is matched with interchangeable operands too. -/
theorem Instruction.IsMatched.interchange {table : Table} {config : Config}
    {found : Instruction} (h : found.IsMatched table config) {operands : List Operand}
    (alike : List.Forall₂ Operand.Interchangeable found.operands operands) :
    Outcome.ofOperands table config.features operands = .matched ⟨found.template, operands⟩ := by
  obtain ⟨name, span, rest, whole, -⟩ := h.mnemonic
  have outcome := h.outcome
  rw [whole] at alike outcome
  obtain ⟨_, rest', head, tail, rfl⟩ := List.forall₂_cons_left_iff.1 alike
  cases head
  have sameShapes := tail.imp fun _ _ h => h.sameShapes
  have letters : Text.SameIgnoringCase name name := rfl
  have outcomes :=
    Outcome.ofOperands_sameShapes table config.features letters span span sameShapes
  rw [outcome] at outcomes
  exact outcomes.eq_matched

namespace AddressText

variable {start after : Cursor} {found : OperandExpr} {chars : Nat} {span : Span}

theorem value?_eq_none_of_ofAddress? {address : Expr} {chars' : Nat} {span' : Span}
    (h : ofAddress? address chars' span' = some (.deferred found chars span)) :
    found.value? = none := by
  unfold ofAddress? at h
  split at h
  · next unknown =>
    cases h
    exact OperandExpr.value?_eq_none_iff.2 unknown
  · dsimp only at h
    split at h <;> cases h

theorem value?_eq_none_of_ofParts {afterAddress cursor : Cursor} {address : Expr}
    {counted : Option Int64 × Span}
    (h : ofParts start afterAddress address counted cursor =
      .ok (.deferred found chars span) after) : found.value? = none := by
  unfold ofParts at h
  split at h
  · cases h
  split at h
  · cases h
  split at h
  · split at h
    · next made =>
      cases h
      exact value?_eq_none_of_ofAddress? made
    · cases h
  · cases h

/-- An address that is left to the linker has no value. -/
theorem value?_eq_none_of_read (h : read start = .ok (.deferred found chars span) after) :
    found.value? = none := by
  unfold read at h
  split at h
  · cases h
  split at h
  · cases h
  split at h
  · cases h
  · exact value?_eq_none_of_ofParts h

end AddressText

namespace Assembly

variable {table : Table} {config : Config} {source : String}

theorem value?_eq_none_of_mem {address : OperandExpr} {chars : Nat} {span : Span}
    (h : .addressText (.deferred address chars span) ∈ (ofSource table config source).statements) :
    address.value? = none := by
  unfold ofSource at h
  split at h
  · next tokens lexed =>
    have lexed : (Cursor.ofTokens tokens).IsLexed := Token.isLexed_of_lex lexed
    rcases mem_statements_ofCursor lexed _ h with ⟨_, _, label⟩ | ⟨start, after, -, read⟩
    · cases label
    · obtain ⟨_, found, same⟩ | ⟨_, _, _, _, -, -, -, -, -, other⟩ := Statement.read_eq_ok read
      · cases same
        exact AddressText.value?_eq_none_of_read found
      · cases other
  · cases h

/-- An operand without a value has a symbol or a failing operation, and any other expression
without a value matches in its place. So it is with an address left to the linker. -/
theorem ofSource_unresolved :
    (∀ found, .instruction found ∈ (ofSource table config source).statements →
      (∀ expr span, .immediate expr span ∈ found.operands →
        (∃ value, expr.value? = some value) ∨ expr.inner.HasSymbol ∨ expr.inner.HasFailure) ∧
      ∀ operands, List.Forall₂ Operand.Interchangeable found.operands operands →
        Outcome.ofOperands table config.features operands =
          .matched ⟨found.template, operands⟩) ∧
    ∀ address chars span,
      .addressText (.deferred address chars span) ∈ (ofSource table config source).statements →
        address.value? = none ∧ (address.inner.HasSymbol ∨ address.inner.HasFailure) := by
  constructor
  · intro found among
    exact ⟨fun expr _ _ => expr.exists_value?_or_hasSymbol_or_hasFailure,
      fun operands => (isMatched_of_mem among).interchange⟩
  · intro address chars span among
    have unknown := value?_eq_none_of_mem among
    exact ⟨unknown, OperandExpr.hasSymbol_or_hasFailure unknown⟩

/-- A load from an address of one byte. -/
def zeroPageLoad : Template :=
  .ofMnemonic "lda" [.value .addr8] 0xA5 ∅

/-- The operands of `lda` with an expression between two places of a source. -/
def loadOperands (expr : Expr) (span : Span) : List Operand :=
  [.token "lda" ⟨0, 3⟩, .immediate (.plain expr) span]

/-- One divided by zero. -/
def quotientByZero : Expr :=
  .binary .div (.constant 1) (.constant 0)

theorem ofSource_quotientByZero :
    ofSource (.ofTemplates [zeroPageLoad]) {} "lda 1/0" =
      ofStatement (.instruction ⟨zeroPageLoad, loadOperands quotientByZero ⟨4, 3⟩⟩) := by
  have lexed : Token.lex "lda 1/0" = .ok [⟨.name "lda", ⟨0, 3⟩⟩, ⟨.number .decimal "1", ⟨4, 1⟩⟩,
      ⟨.punct .slash, ⟨5, 1⟩⟩, ⟨.number .decimal "0", ⟨6, 1⟩⟩, ⟨.endOfStatement, ⟨7, 0⟩⟩] := by cbv
  refine (ofSource_eq_instruction_iff lexed (by decide) (by decide) (by decide)).2
    ⟨_, _, by cbv, ?_⟩
  rw [Outcome.ofOperands_of_token]
  cbv

/-- A symbol matches where a quotient by zero does. -/
theorem ofSource_unresolved_quotientByZero :
    .instruction ⟨zeroPageLoad, loadOperands quotientByZero ⟨4, 3⟩⟩ ∈
        (ofSource (.ofTemplates [zeroPageLoad]) {} "lda 1/0").statements ∧
      Outcome.ofOperands (.ofTemplates [zeroPageLoad]) ({} : Config).features
          (loadOperands (.symbol "table") ⟨4, 5⟩) =
        .matched ⟨zeroPageLoad, loadOperands (.symbol "table") ⟨4, 5⟩⟩ := by
  have among : .instruction ⟨zeroPageLoad, loadOperands quotientByZero ⟨4, 3⟩⟩ ∈
      (ofSource (.ofTemplates [zeroPageLoad]) {} "lda 1/0").statements := by
    rw [ofSource_quotientByZero]
    exact List.mem_singleton_self _
  refine ⟨among, (ofSource_unresolved.1 _ among).2 _ (.cons (.same _) (.cons ?_ .nil))⟩
  exact .immediate _ _ (.plain (by decide) rfl)

/-- A quotient by zero is accepted, though no symbol occurs in it. -/
theorem exists_unresolved_without_symbol : ∃ found expr span,
    .instruction found ∈ (ofSource (.ofTemplates [zeroPageLoad]) {} "lda 1/0").statements ∧
      .immediate expr span ∈ found.operands ∧ expr.value? = none ∧ ¬expr.inner.HasSymbol := by
  rw [ofSource_quotientByZero]
  refine ⟨_, .plain quotientByZero, ⟨4, 3⟩, List.mem_singleton_self _, ?_, by decide, ?_⟩
  · exact List.mem_cons_of_mem _ (List.mem_singleton_self _)
  · simp [OperandExpr.inner, quotientByZero, Expr.HasSymbol]

end Assembly

end Asm65
