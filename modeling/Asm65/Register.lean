import Asm65.Cursor

/-!
# Registers

The five processor registers and the imaginary ones: 256 bytes of the zero
page, and 128 pairs of them.

## Implementation notes

A register number has no leading zeros, so every register has one full name.
The short names `rcN` and `rsN` are other names of the imaginary registers,
unless only full names are accepted.
-/

namespace Asm65

/-- The registers an operand can name. -/
inductive Register
  | a
  | x
  | y
  | s
  | p
  /-- An imaginary byte register. -/
  | rc (number : Fin 256)
  /-- An imaginary pair of byte registers. -/
  | rs (number : Fin 128)
deriving DecidableEq

namespace Register

/-- The full name of a register. -/
def text : Register → String
  | a => "a"
  | x => "x"
  | y => "y"
  | s => "s"
  | p => "p"
  | rc number => "__rc" ++ Text.decimal number
  | rs number => "__rs" ++ Text.decimal number

/-- The registers that stand as operands of instructions. -/
def isOperandClass : Register → Bool
  | x | y | s => true
  | _ => false

/-- A decimal number below a limit, without leading zeros. -/
def number? (limit : Nat) (digits : List Char) : Option (Fin limit) :=
  if digits ≠ [] ∧ digits.all Char.isDigit ∧ (digits.head? = some '0' → digits.length = 1) then
    if h : Text.positionalValue 10 digits < limit then some ⟨_, h⟩ else none
  else none

/-- The register with a name like `rc4` or `rs1`, in lower case. -/
def imaginary? : List Char → Option Register
  | 'r' :: 'c' :: digits => (number? 256 digits).map rc
  | 'r' :: 's' :: digits => (number? 128 digits).map rs
  | _ => none

/-- The register with a full name, in lower case. -/
def canonical? : List Char → Option Register
  | ['a'] => some a
  | ['x'] => some x
  | ['y'] => some y
  | ['s'] => some s
  | ['p'] => some p
  | '_' :: '_' :: name => imaginary? name
  | _ => none

/-- The register with a name in any letter case. -/
def ofName? (features : FeatureSet) (name : String) : Option Register :=
  let spelling := name.toLower.toList
  match canonical? spelling with
  | some register => some register
  | none =>
    if .canonicalRegisterNamesOnly ∈ features then none else imaginary? spelling

/-- Passes the token at a cursor if it names a register. -/
def read? (features : FeatureSet) (cursor : Cursor) : Option (Register × Span) × Cursor :=
  match cursor.peek? with
  | some token =>
    match token.kind.name?.bind (ofName? features) with
    | some register => (some (register, token.span), cursor.advance 1)
    | none => (none, cursor)
  | none => (none, cursor)

end Register

end Asm65
