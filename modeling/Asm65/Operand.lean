import Asm65.OperandExpr
import Asm65.Register
import Asm65.Span
import Asm65.Text.Case

/-!
# Operands

The elements of an operand list: tokens taken as they are, registers, and
expressions. The mnemonic is the first element, as a token.

## Implementation notes

An expression is judged by its value when it has one. A plain expression
without a value fits everywhere, since the linker supplies it. Under a
modifier only a positive value counts; zero, a negative value or none is
judged by the largest value that the modifier can make.
-/

namespace Asm65

/-- One element of an operand list. -/
inductive Operand
  | token (text : String) (span : Span)
  | register (found : Register) (span : Span)
  | immediate (expr : OperandExpr) (span : Span)
deriving DecidableEq

/-- How wide the value of an operand is known to be. -/
inductive RangeClass
  | bits8
  | bits16
  | bits24
  /-- The value is known after linking only. -/
  | symbolic
deriving DecidableEq

/-- The largest values of 8, 16 and 24 bits. -/
def max8 : Int := 0xFF

@[inherit_doc max8]
def max16 : Int := 0xFFFF

@[inherit_doc max8]
def max24 : Int := 0xFFFFFF

/-- Whether a value lies between two bounds. -/
def Within (low high : Int) (value : Int64) : Prop :=
  low ≤ value.toInt ∧ value.toInt ≤ high

instance (low high : Int) (value : Int64) : Decidable (Within low high value) :=
  inferInstanceAs (Decidable (_ ∧ _))

namespace OperandExpr

/-- Whether an expression may stand for a value between two bounds. -/
def fits (low high : Int) : OperandExpr → Bool
  | plain expr =>
    match expr.value? with
    | some value => Within low high value
    | none => true
  | modified kind expr negated =>
    if kind = .addr16 ∧ high < max16 then false
    else
      match (modified kind expr negated).value? with
      | some value => if 0 < value.toInt then Within low high value else kind.maxValue ≤ high
      | none => kind.maxValue ≤ high

/-- Whether an expression waits for the linker without naming a width. -/
def isSymbolic : OperandExpr → Bool
  | plain expr => expr.value?.isNone
  | modified .. => false

/-- The least width an expression fits. -/
def range? (expr : OperandExpr) : Option RangeClass :=
  if expr.isSymbolic then some .symbolic
  else if expr.fits 0 max8 then some .bits8
  else if expr.fits 0 max16 then some .bits16
  else if expr.fits 0 max24 then some .bits24
  else none

end OperandExpr

namespace Operand

/-- Where an operand stands. -/
def span : Operand → Span
  | token _ span | register _ span | immediate _ span => span

/-- The text of an operand. -/
def text : Operand → String
  | token text _ => text
  | register found _ => found.text
  | immediate expr _ => expr.text

/-- Whether an operand is a token with this text, in any letter case. -/
def isToken (text : String) : Operand → Bool
  | token spelling _ => Text.SameIgnoringCase spelling text
  | _ => false

/-- Whether an operand is this register. -/
def isRegister (register : Register) : Operand → Bool
  | .register found _ => found = register
  | _ => false

/-- Whether an operand is an expression that may stand for a value between two bounds. -/
def fits (low high : Int) : Operand → Bool
  | immediate expr _ => expr.fits low high
  | _ => false

/-- The least width an operand fits, if it is an expression that fits one. -/
def range? : Operand → Option RangeClass
  | immediate expr _ => expr.range?
  | _ => none

end Operand

end Asm65
