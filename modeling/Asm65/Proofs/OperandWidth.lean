import Asm65.Proofs.Instruction

/-!
# Operand widths

No instruction of a source holds an operand too wide for its encoding
(`ofSource_operand_width`). An expression known by its value is within the
range itself; one under a modifier is within it for every choice of values for
its symbols, since a modifier makes no value above its largest one.
-/

namespace Asm65

namespace Modifier

/-- A mask leaves values from zero up to the mask. -/
theorem within_and {mask : Int64} (h : 0 ≤ mask.toInt) (value : Int64) :
    Within 0 mask.toInt (value &&& mask) := by
  have low : mask.toBitVec.msb = false := by
    rw [BitVec.msb_eq_toInt, Int64.toInt_toBitVec]
    exact decide_eq_false (Int.not_lt.2 h)
  have low' : (value &&& mask).toBitVec.msb = false := by
    rw [Int64.toBitVec_and, BitVec.msb_and, low, Bool.and_false]
  have bound : (value &&& mask).toBitVec.toNat ≤ mask.toBitVec.toNat := by
    rw [Int64.toBitVec_and, BitVec.toNat_and]
    exact Nat.and_le_right
  rw [Within, ← Int64.toInt_toBitVec, ← Int64.toInt_toBitVec, BitVec.toInt_eq_toNat_of_msb low,
    BitVec.toInt_eq_toNat_of_msb low']
  exact ⟨Int.natCast_nonneg _, Int.ofNat_le.2 bound⟩

/-- A modifier with a name makes values from zero up to its largest one. -/
theorem within_apply {kind : Modifier} (named : kind ≠ .addressText) (value : Int64) :
    Within 0 kind.maxValue (kind.apply value) := by
  have byte (value : Int64) : Within 0 0xFF (value &&& 0xFF) := within_and (by decide) value
  have thirteen : Within 0 0x1FFF (value &&& 0x1FFF) := within_and (by decide) value
  have word : Within 0 0xFFFF (value &&& 0xFFFF) := within_and (by decide) value
  have long : Within 0 0xFFFFFF (value &&& 0xFFFFFF) := within_and (by decide) value
  cases kind with
  | addressText => exact absurd rfl named
  | addr13 => exact thirteen
  | addr16 | addr24Segment => exact word
  | addr24 => exact long
  | low8 | low8Stub | addr8 | addr16Low | addr16LowStub | addr24SegmentLow | high8 | high8Stub
  | addr16High | addr16HighStub | addr24SegmentHigh | addr24Bank => exact byte _

end Modifier

namespace Expr

/-- The value of an expression when its symbols have values. -/
def valueUnder (symbols : String → Int64) : Expr → Option Int64
  | constant value => some value
  | symbol name => some (symbols name)
  | unary op operand => (operand.valueUnder symbols).map op.apply
  | binary op left right =>
    match left.valueUnder symbols, right.valueUnder symbols with
    | some left, some right => op.value? left right
    | _, _ => none

/-- A value known without symbols is the value under any choice for them. -/
theorem valueUnder_of_value? (symbols : String → Int64) {expr : Expr} {value : Int64}
    (h : expr.value? = some value) : expr.valueUnder symbols = some value := by
  induction expr generalizing value with
  | constant => exact h
  | symbol => cases h
  | unary op operand ih =>
    obtain ⟨inner, found, rfl⟩ := Option.map_eq_some_iff.1 h
    rw [valueUnder, ih found]
    rfl
  | binary op left right ihLeft ihRight =>
    rw [value?] at h
    split at h
    · next first second =>
      rw [valueUnder, ihLeft first, ihRight second]
      exact h
    · cases h

end Expr

namespace OperandExpr

/-- Whether the values that an expression can have take no more than a number of bits. What a
plain expression with symbols stands for is not known. -/
def IsBounded (width : Nat) : OperandExpr → Prop
  | plain expr => ∀ value, expr.value? = some value → 0 ≤ value.toInt ∧ value.toInt < 2 ^ width
  | modified kind inner negated => ∀ symbols value, inner.valueUnder symbols = some value →
    0 ≤ (kind.apply (if negated then -value else value)).toInt ∧
      (kind.apply (if negated then -value else value)).toInt < 2 ^ width

theorem isBounded_of_fits {width : Nat} {expr : OperandExpr} (written : expr.Writable)
    (h : expr.fits 0 (2 ^ width - 1)) : expr.IsBounded width := by
  cases expr with
  | plain expr =>
    intro value found
    have within : Within 0 (2 ^ width - 1) value := by simpa [fits, found] using h
    obtain ⟨low, high⟩ := within
    exact ⟨low, by omega⟩
  | modified kind inner negated =>
    intro symbols value found
    obtain ⟨low, high⟩ := Modifier.within_apply written.1 (if negated then -value else value)
    refine ⟨low, ?_⟩
    simp only [fits] at h
    split at h
    · cases h
    · split at h
      · next known closed =>
        -- The value that was judged is the value under any choice for the symbols.
        obtain ⟨value', found', applied⟩ := Option.map_eq_some_iff.1 closed
        cases (Expr.valueUnder_of_value? symbols found').symm.trans found
        rw [applied] at high ⊢
        split at h
        · have within := (of_decide_eq_true h).2
          omega
        · have largest := of_decide_eq_true h
          omega
      · have largest := of_decide_eq_true h
        omega

end OperandExpr

namespace OperandClass

/-- The number of bits that an operand class encodes. -/
def width : OperandClass → Nat
  | imm8 | pcRel8 | addr8 => 8
  | imm16 | pcRel16 | addr16 | imm8To16 => 16
  | imm24 | addr24 | imm16To24 => 24

theorem fits_of_admits {operandClass : OperandClass} {operand : Operand}
    (h : operandClass.admits operand) : operand.fits 0 (2 ^ operandClass.width - 1) := by
  cases operandClass with
  | imm8 | imm16 | imm24 | pcRel8 | pcRel16 | addr8 | addr16 | addr24 => exact h
  | imm8To16 | imm16To24 => exact ((Bool.and_eq_true _ _).mp h).2

end OperandClass

/-- Without a mismatch, the operand at every position has the shape there. -/
theorem admits_of_mismatchesFrom {start index : Nat} {shapes : List Shape}
    {operands : List Operand} {shape : Shape} (h : mismatchesFrom start shapes operands = [])
    (here : shapes[index]? = some shape) :
    ∃ operand, operands[index]? = some operand ∧ shape.admits operand := by
  fun_induction mismatchesFrom start shapes operands generalizing index with
  | case1 => cases here
  | case2 | case3 | case5 => cases h
  | case4 start first shapes operand operands admitted ih =>
    cases index with
    | zero =>
      cases here
      exact ⟨operand, rfl, admitted⟩
    | succ index => exact ih h here

namespace Assembly

/-- Every operand value of an instruction is within the width of its class. -/
theorem ofSource_operand_width {table : Table} {config : Config} {source : String}
    {found : Instruction} (h : .instruction found ∈ (ofSource table config source).statements)
    {index : Nat} {operandClass : OperandClass}
    (shape : found.template.shapes[index]? = some (.value operandClass)) :
    ∃ expr span, found.operands[index + 1]? = some (.immediate expr span) ∧
      expr.IsBounded operandClass.width := by
  have matched := isMatched_of_mem h
  obtain ⟨name, span, rest, same, -, -, spelled⟩ := matched.mnemonic
  obtain ⟨_, _, _, -, -, -, fits, -⟩ := Outcome.ofOperands_eq_matched matched.outcome
  rw [Template.Fits, Template.mismatches, same] at fits
  obtain ⟨operand, here, admitted⟩ := admits_of_mismatchesFrom fits shape
  have fits := OperandClass.fits_of_admits admitted
  obtain ⟨kinds, spells⟩ := spelled operand (List.mem_of_getElem? here)
  cases spells with
  | token | register => cases fits
  | @immediate expr span written =>
    refine ⟨expr, span, ?_, OperandExpr.isBounded_of_fits written fits⟩
    rw [same]
    exact here

/-- The low byte of a symbol in `lda #<label`, whatever the symbol stands for. -/
theorem ofSource_operand_width_low_byte :
    (OperandExpr.modified .addr16Low (.symbol "label") false).IsBounded
      OperandClass.imm8.width := by
  let template : Template := .ofMnemonic "lda" [.literal "#", .value .imm8] 0xA9 ∅
  let rest : List Token := [⟨.punct .hash, ⟨4, 1⟩⟩, ⟨.punct .less, ⟨5, 1⟩⟩,
    ⟨.name "label", ⟨6, 5⟩⟩, ⟨.endOfStatement, ⟨11, 0⟩⟩]
  let tokens : List Token := ⟨.name "lda", ⟨0, 3⟩⟩ :: rest
  let operands : List Operand := [.token "#" ⟨4, 1⟩,
    .immediate (.modified .addr16Low (.symbol "label") false) ⟨5, 6⟩]
  have lexed : Token.lex "lda #<label" = .ok tokens := by cbv
  have items : Operand.readItems {} true ((Cursor.ofTokens tokens).advance 1) =
      .ok operands ((Cursor.ofTokens tokens).advance 4) := by cbv
  have outcome : Outcome.ofOperands (.ofTemplates [template]) ({} : Config).features
      (.token "lda" ⟨0, 3⟩ :: operands) =
        .matched ⟨template, .token "lda" ⟨0, 3⟩ :: operands⟩ := by
    rw [Outcome.ofOperands_of_token]
    cbv
  have assembled := (ofSource_eq_instruction_iff lexed (by decide) (by decide) (by decide)).2
    ⟨operands, _, items, outcome⟩
  have among : .instruction ⟨template, .token "lda" ⟨0, 3⟩ :: operands⟩ ∈
      (ofSource (.ofTemplates [template]) {} "lda #<label").statements := by
    rw [assembled]
    exact List.mem_singleton_self _
  have shape : template.shapes[1]? = some (.value .imm8) := rfl
  obtain ⟨expr, span, here, bounded⟩ := ofSource_operand_width among shape
  cases here
  exact bounded

end Assembly

end Asm65
