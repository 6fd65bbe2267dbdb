import Asm65.Text.Numeral

/-!
# Arithmetic expressions

Expressions over literals and symbols, their text, and their value in 64-bit
two's complement arithmetic.

## Implementation notes

Sums, products and negation wrap. A symbol has no value before linking, and
neither have a division by zero, the one quotient that overflows, or a shift
by a negative amount or by a whole word.
-/

namespace Asm65

/-- Operators written before their operand. -/
inductive UnaryOp
  | neg
  | plus
  | not
deriving DecidableEq

namespace UnaryOp

def text : UnaryOp → String
  | neg => "-"
  | plus => "+"
  | not => "~"

def apply : UnaryOp → Int64 → Int64
  | neg, value => -value
  | plus, value => value
  | not, value => ~~~value

end UnaryOp

/-- Operators written between their operands. -/
inductive BinaryOp
  | or
  | xor
  | and
  | shl
  | shr
  | add
  | sub
  | mul
  | div
  | mod
deriving DecidableEq

namespace BinaryOp

def text : BinaryOp → String
  | or => "|"
  | xor => "^"
  | and => "&"
  | shl => "<<"
  | shr => ">>"
  | add => "+"
  | sub => "-"
  | mul => "*"
  | div => "/"
  | mod => "%"

/-- How tightly an operator binds; a higher number binds tighter. -/
def precedence : BinaryOp → Nat
  | or => 1
  | xor => 2
  | and => 3
  | shl | shr => 4
  | add | sub => 5
  | mul | div | mod => 6

theorem precedence_pos (op : BinaryOp) : 0 < op.precedence := by
  cases op <;> decide

/-- The amounts that a word can be shifted by. -/
def IsShiftAmount (amount : Int64) : Prop :=
  0 ≤ amount ∧ amount < 64

instance (amount : Int64) : Decidable (IsShiftAmount amount) :=
  inferInstanceAs (Decidable (_ ∧ _))

/-- The pairs of words that have a quotient: not by zero, and no overflow. -/
def HasQuotient (left right : Int64) : Prop :=
  right ≠ 0 ∧ ¬(left = Int64.minValue ∧ right = -1)

instance (left right : Int64) : Decidable (HasQuotient left right) :=
  inferInstanceAs (Decidable (_ ∧ _))

/-- The value of an operator, if its operands have one. -/
def value? : BinaryOp → Int64 → Int64 → Option Int64
  | or, left, right => some (left ||| right)
  | xor, left, right => some (left ^^^ right)
  | and, left, right => some (left &&& right)
  | shl, left, right => if IsShiftAmount right then some (left <<< right) else none
  | shr, left, right => if IsShiftAmount right then some (left >>> right) else none
  | add, left, right => some (left + right)
  | sub, left, right => some (left - right)
  | mul, left, right => some (left * right)
  | div, left, right => if HasQuotient left right then some (left / right) else none
  | mod, left, right => if HasQuotient left right then some (left % right) else none

end BinaryOp

/-- An arithmetic expression. -/
inductive Expr
  | constant (value : Int64)
  | symbol (name : String)
  | unary (op : UnaryOp) (operand : Expr)
  | binary (op : BinaryOp) (left right : Expr)
deriving DecidableEq

namespace Expr

/-- The value of an expression, if it has one without knowing any symbol. -/
def value? : Expr → Option Int64
  | constant value => some value
  | symbol _ => none
  | unary op operand => operand.value?.map op.apply
  | binary op left right =>
    match left.value?, right.value? with
    | some left, some right => op.value? left right
    | _, _ => none

/-- The text of an expression, with parentheses around every binary operator. -/
def text : Expr → String
  | constant value => Text.signedDecimal value.toInt
  | symbol name => name
  | unary op operand => op.text ++ operand.text
  | binary op left right => "(" ++ left.text ++ " " ++ op.text ++ " " ++ right.text ++ ")"

/-- Whether an expression is a symbol alone. -/
def isSymbol : Expr → Bool
  | symbol _ => true
  | _ => false

end Expr

end Asm65
