import Asm65.Template

/-!
# Width classes

An operand that fits a range of values fits every wider range
(`Operand.fits_mono`). So it belongs to exactly one of the classes of 8, of 8 to
16 and of 16 to 24 bits, or it fits no class at all, and its least width is that
of its class unless the linker has to supply its value
(`Operand.widths_nested`).

## Implementation notes

A plain expression without a value fits everywhere, and so it belongs to the class
of 8 bits. Its least width is not known, which is the one difference between the
classes and `Operand.range?`.
-/

namespace Asm65

variable {low low' high high' : Int}

theorem Within.mono {value : Int64} (h : Within low high value) (lower : low' ≤ low)
    (higher : high ≤ high') : Within low' high' value :=
  ⟨Int.le_trans lower h.1, Int.le_trans h.2 higher⟩

namespace OperandExpr

theorem fits_mono {expr : OperandExpr} (h : expr.fits low high) (lower : low' ≤ low)
    (higher : high ≤ high') : expr.fits low' high' := by
  cases expr with
  | plain expr =>
    cases found : expr.value? with
    | none => simp only [fits, found]
    | some value =>
      simp only [fits, found, decide_eq_true_eq] at h ⊢
      exact h.mono lower higher
  | modified kind inner negated =>
    simp only [fits] at h ⊢
    split at h
    · cases h
    · next wide =>
      -- A range wide enough for a 16-bit address only gets wider.
      have wide' : ¬(kind = .addr16 ∧ high' < max16) :=
        fun narrow => wide ⟨narrow.1, Int.lt_of_le_of_lt higher narrow.2⟩
      rw [if_neg wide']
      have largest (fits : decide (kind.maxValue ≤ high)) : decide (kind.maxValue ≤ high') :=
        decide_eq_true (Int.le_trans (of_decide_eq_true fits) higher)
      cases found : (modified kind inner negated).value? with
      | none =>
        simp only [found] at h ⊢
        exact largest h
      | some value =>
        simp only [found] at h ⊢
        split at h
        · next positive =>
          rw [if_pos positive]
          exact decide_eq_true ((of_decide_eq_true h).mono lower higher)
        · next positive =>
          rw [if_neg positive]
          exact largest h

end OperandExpr

namespace Operand

variable {operand : Operand}

theorem fits_mono (h : operand.fits low high) (lower : low' ≤ low) (higher : high ≤ high') :
    operand.fits low' high' := by
  cases operand with
  | token | register => cases h
  | immediate expr => exact OperandExpr.fits_mono h lower higher

theorem fits_max16 (h : operand.fits 0 max8) : operand.fits 0 max16 :=
  fits_mono h (Int.le_refl 0) (by decide)

theorem fits_max24 (h : operand.fits 0 max16) : operand.fits 0 max24 :=
  fits_mono h (Int.le_refl 0) (by decide)

/-- Whether an operand is a plain expression that has no value before linking. -/
def IsSymbolic (operand : Operand) : Prop :=
  ∃ expr span, operand = immediate (.plain expr) span ∧ expr.value? = none

theorem isSymbolic_immediate_iff {expr : OperandExpr} {span : Span} :
    (immediate expr span).IsSymbolic ↔ expr.isSymbolic := by
  cases expr with
  | plain expr => simp [IsSymbolic, OperandExpr.isSymbolic]
  | modified kind inner negated => simp [IsSymbolic, OperandExpr.isSymbolic]

theorem IsSymbolic.fits (h : operand.IsSymbolic) (low high : Int) : operand.fits low high := by
  obtain ⟨expr, span, rfl, unknown⟩ := h
  simp only [Operand.fits, OperandExpr.fits, unknown]

/-- The least width of an operand goes by the first range that it fits. -/
theorem range?_of_not_isSymbolic (h : ¬operand.IsSymbolic) :
    operand.range? = if operand.fits 0 max8 then some .bits8
      else if operand.fits 0 max16 then some .bits16
      else if operand.fits 0 max24 then some .bits24 else none := by
  cases operand with
  | token | register => rfl
  | immediate expr span =>
    rw [isSymbolic_immediate_iff] at h
    rw [range?, OperandExpr.range?, if_neg h]
    rfl

theorem IsSymbolic.range? (h : operand.IsSymbolic) : operand.range? = some .symbolic := by
  obtain ⟨expr, span, rfl, unknown⟩ := h
  simp [Operand.range?, OperandExpr.range?, OperandExpr.isSymbolic, unknown]

/-- Whether an operand is of 8 bits, of 8 to 16, of 16 to 24, and of no width at all. -/
def widths (operand : Operand) : List Bool :=
  [OperandClass.imm8.admits operand, OperandClass.imm8To16.admits operand,
    OperandClass.imm16To24.admits operand, !OperandClass.imm24.admits operand]

theorem count_widths (operand : Operand) : operand.widths.count true = 1 := by
  have wider := operand.fits_max16
  have widest := operand.fits_max24
  simp only [widths, OperandClass.admits]
  cases h : operand.fits 0 max8 with
  | true => simp [wider h, widest (wider h)]
  | false =>
    cases h' : operand.fits 0 max16 with
    | true => simp [widest h']
    | false => cases operand.fits 0 max24 <;> simp

/-- An operand keeps fitting when the range gets wider, so exactly one width is its own. Its least
width names that one, and tells apart a plain expression that has no value yet. -/
theorem widths_nested (operand : Operand) :
    (∀ low low' high high', low' ≤ low → high ≤ high' → operand.fits low high →
        operand.fits low' high') ∧
      operand.widths.count true = 1 ∧
      (operand.range? = none ↔ ¬OperandClass.imm24.admits operand) ∧
      (operand.range? = some .bits8 ↔
        OperandClass.imm8.admits operand ∧ ¬operand.IsSymbolic) ∧
      (operand.range? = some .bits16 ↔
        OperandClass.imm8To16.admits operand ∧ ¬operand.IsSymbolic) ∧
      (operand.range? = some .bits24 ↔
        OperandClass.imm16To24.admits operand ∧ ¬operand.IsSymbolic) ∧
      (operand.range? = some .symbolic ↔ operand.IsSymbolic) := by
  refine ⟨fun _ _ _ _ lower higher h => fits_mono h lower higher, operand.count_widths, ?_⟩
  have wider := operand.fits_max16
  have widest := operand.fits_max24
  simp only [OperandClass.admits]
  by_cases symbolic : operand.IsSymbolic
  · simp [symbolic.range?, symbolic.fits, symbolic]
  · rw [range?_of_not_isSymbolic symbolic]
    cases h : operand.fits 0 max8 with
    | true => simp [wider h, widest (wider h), symbolic]
    | false =>
      cases h' : operand.fits 0 max16 with
      | true => simp [widest h', symbolic]
      | false => cases operand.fits 0 max24 <;> simp [symbolic]

/-- A modifier without a positive value is as wide as the largest value that it gives. -/
example : (immediate (.modified .addr24 (.constant 0) false) ⟨0, 8⟩).range? = some .bits24 := by
  decide

end Operand

end Asm65
