import Asm65.Expr
import Asm65.Modifier

/-!
# Operand expressions

An arithmetic expression, or one under a relocation modifier. A sign before
the modifier negates the inner value before its bits are selected.
-/

namespace Asm65

/-- An expression that may carry a relocation modifier. -/
inductive OperandExpr
  | plain (expr : Expr)
  | modified (kind : Modifier) (inner : Expr) (negated : Bool)
deriving DecidableEq

namespace OperandExpr

/-- The value of an operand expression, if it has one without knowing any symbol. -/
def value? : OperandExpr → Option Int64
  | plain expr => expr.value?
  | modified kind inner negated =>
    inner.value?.map fun value => kind.apply (if negated then -value else value)

/-- The arithmetic expression inside. -/
def inner : OperandExpr → Expr
  | plain expr => expr
  | modified _ expr _ => expr

/-- The text of an operand expression. -/
def text : OperandExpr → String
  | plain expr => expr.text
  | modified kind expr negated =>
    (if negated then "-" else "") ++ kind.text ++ "(" ++ expr.text ++ ")"

end OperandExpr

end Asm65
