import Asm65.Proofs.ModifierSigns
import Asm65.Proofs.OperandWidth
import Asm65.Proofs.WidthClasses

/-!
# Resolved symbols

The symbols of an expression get their values when a program is linked, one after
the other. An operand under a modifier that fits a range keeps fitting it,
whichever of its symbols are resolved, and to whatever values
(`Operand.fits_resolve_modified`).

## Implementation notes

A value that is known without symbols stays what it is (`Expr.value?_resolve`). An
operand without one is judged by the largest value of its modifier, and no value
that it gets later is larger (`OperandExpr.fits_of_maxValue_le`).
-/

namespace Asm65

variable {symbols : String → Option Int64}

namespace Expr

/-- The expression with constants in place of the symbols that are resolved. -/
def resolve (symbols : String → Option Int64) : Expr → Expr
  | constant value => constant value
  | symbol name =>
    match symbols name with
    | some value => constant value
    | none => symbol name
  | unary op operand => unary op (operand.resolve symbols)
  | binary op left right => binary op (left.resolve symbols) (right.resolve symbols)

/-- A value that is known without symbols stays when symbols are resolved. -/
theorem value?_resolve {expr : Expr} {value : Int64} (h : expr.value? = some value) :
    (expr.resolve symbols).value? = some value := by
  induction expr generalizing value with
  | constant => exact h
  | symbol => cases h
  | unary op operand ih =>
    obtain ⟨inner, found, rfl⟩ := Option.map_eq_some_iff.1 h
    rw [resolve, value?, ih found, Option.map_some]
  | binary op left right ihLeft ihRight =>
    rw [value?] at h
    split at h
    · next first second =>
      rw [resolve, value?, ihLeft first, ihRight second]
      exact h
    · cases h

end Expr

namespace OperandExpr

variable {kind : Modifier} {inner : Expr} {negated : Bool} {high : Int}

/-- The operand expression with constants in place of the symbols that are resolved. -/
def resolve (symbols : String → Option Int64) : OperandExpr → OperandExpr
  | plain expr => plain (expr.resolve symbols)
  | modified kind inner negated => modified kind (inner.resolve symbols) negated

theorem value?_resolve {expr : OperandExpr} {value : Int64} (h : expr.value? = some value) :
    (expr.resolve symbols).value? = some value := by
  cases expr with
  | plain expr => exact Expr.value?_resolve h
  | modified kind inner negated =>
    obtain ⟨inside, found, rfl⟩ := Option.map_eq_some_iff.1 h
    rw [resolve, value?, Expr.value?_resolve found, Option.map_some]

theorem within_of_value? (named : kind ≠ .addressText) {value : Int64}
    (h : (modified kind inner negated).value? = some value) : Within 0 kind.maxValue value := by
  obtain ⟨inside, -, rfl⟩ := Option.map_eq_some_iff.1 h
  exact Modifier.within_apply named _

/-- Where the largest value of a modifier fits, everything under it does. -/
theorem fits_of_maxValue_le (named : kind ≠ .addressText) (largest : kind.maxValue ≤ high) :
    (modified kind inner negated).fits 0 high := by
  have wide : ¬(kind = .addr16 ∧ high < max16) := by
    rintro ⟨rfl, narrow⟩
    exact absurd narrow (Int.not_lt.2 largest)
  rw [fits, if_neg wide]
  cases known : (modified kind inner negated).value? with
  | none => exact decide_eq_true largest
  | some value =>
    have within := within_of_value? named known
    dsimp only
    split
    · exact decide_eq_true (within.mono (Int.le_refl 0) largest)
    · exact decide_eq_true largest

/-- Without a value, an expression under a modifier is judged by the largest one. -/
theorem maxValue_le_of_fits (unknown : (modified kind inner negated).value? = none)
    (h : (modified kind inner negated).fits 0 high) : kind.maxValue ≤ high := by
  rw [fits] at h
  split at h
  · cases h
  · rw [unknown] at h
    exact of_decide_eq_true h

theorem fits_resolve (named : kind ≠ .addressText)
    (h : (modified kind inner negated).fits 0 high) :
    ((modified kind inner negated).resolve symbols).fits 0 high := by
  cases known : (modified kind inner negated).value? with
  | none => exact fits_of_maxValue_le named (maxValue_le_of_fits known h)
  | some value =>
    have same : ((modified kind inner negated).resolve symbols).value? =
        (modified kind inner negated).value? := by
      rw [known]
      exact value?_resolve known
    rw [resolve] at same ⊢
    rw [fits_of_value? same]
    exact h

end OperandExpr

namespace Operand

/-- An operand under a modifier that fits a range keeps fitting it when some or all of its symbols
are resolved. -/
theorem fits_resolve_modified {name : String} {kind : Modifier}
    (known : Modifier.ofName? name = some kind) {inner : Expr} {negated : Bool} {span : Span}
    {high : Int} (h : (immediate (.modified kind inner negated) span).fits 0 high)
    (symbols : String → Option Int64) :
    (immediate ((OperandExpr.modified kind inner negated).resolve symbols) span).fits 0 high :=
  OperandExpr.fits_resolve (OperandExpr.ne_addressText_of_ofName? known) h

/-- In `-mos16lo(table - page)`, of which only `table` is resolved. -/
theorem fits_resolve_modified_difference :
    let expr : OperandExpr :=
      .modified .addr16Low (.binary .sub (.symbol "table") (.symbol "page")) true
    let symbols (name : String) : Option Int64 := if name = "table" then some 0x1234 else none
    Modifier.ofName? "mos16lo" = some .addr16Low ∧
      expr.resolve symbols =
        .modified .addr16Low (.binary .sub (.constant 0x1234) (.symbol "page")) true ∧
      (immediate expr ⟨0, 22⟩).fits 0 max8 ∧
      (immediate (expr.resolve symbols) ⟨0, 22⟩).fits 0 max8 := by
  intro expr symbols
  have known : Modifier.ofName? "mos16lo" = some .addr16Low := by decide +kernel
  have fits : (immediate expr ⟨0, 22⟩).fits 0 max8 := by decide
  exact ⟨known, rfl, fits, fits_resolve_modified known fits symbols⟩

end Operand

end Asm65
