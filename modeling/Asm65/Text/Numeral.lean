/-!
# Numerals

Positional numerals in the three radixes of assembly source, their value, and
the decimal and hexadecimal texts that the assembler writes.

## Implementation notes

A numeral may hold `_` between, before or after its digits. Separators have no
value, so they are dropped first. What is left has a value when it is made of
digits of the radix, behind a plus sign or not (`numeralValue?_of_isDigit`).
-/

namespace Asm65.Text

/-- The radix a numeral is written in. -/
inductive Radix
  | binary
  | decimal
  | hexadecimal
deriving DecidableEq

namespace Radix

def base : Radix → Nat
  | binary => 2
  | decimal => 10
  | hexadecimal => 16

/-- The digits of a radix, in either letter case. -/
def isDigit : Radix → Char → Bool
  | binary, c => c = '0' || c = '1'
  | decimal, c => c.isDigit
  | hexadecimal, c => c.isDigit || ('a' ≤ c && c ≤ 'f') || ('A' ≤ c && c ≤ 'F')

/-- The characters a numeral is made of: digits and the separator. -/
def isNumeralChar (radix : Radix) (c : Char) : Bool :=
  radix.isDigit c || c = '_'

end Radix

/-- The value of one digit, in either letter case. -/
def digitValue (c : Char) : Nat :=
  if 'a' ≤ c then c.toNat - 'a'.toNat + 10
  else if 'A' ≤ c then c.toNat - 'A'.toNat + 10
  else c.toNat - '0'.toNat

/-- The value of a list of digits, the most significant first. -/
def positionalValue (base : Nat) (digits : List Char) : Nat :=
  digits.foldl (fun acc c => acc * base + digitValue c) 0

/-- The digits of a numeral without its separators. -/
def numeralDigits (numeral : String) : List Char :=
  numeral.toList.filter (· ≠ '_')

/-- The digits of a numeral without the plus sign that may stand before them. -/
def dropPlus (digits : List Char) : List Char :=
  if digits.head? = some '+' then digits.tail else digits

/-- The value of a numeral, which has a digit and nothing but digits of its radix behind a plus
sign that may be missing. -/
def numeralValue? (radix : Radix) (numeral : String) : Option Nat :=
  match dropPlus (numeralDigits numeral) with
  | [] => none
  | digits => if digits.all radix.isDigit then some (positionalValue radix.base digits) else none

theorem Radix.isDigit_plus (radix : Radix) : radix.isDigit '+' = false := by
  cases radix <;> decide

theorem dropPlus_of_isDigit {radix : Radix} {digits : List Char}
    (h : ∀ c ∈ digits, radix.isDigit c) : dropPlus digits = digits := by
  refine if_neg fun first => ?_
  have digit := h '+' (List.mem_of_head? first)
  rw [radix.isDigit_plus] at digit
  cases digit

/-- A numeral of digits has the value of its digits, if there are any. -/
theorem numeralValue?_of_isDigit {radix : Radix} {numeral : String}
    (h : ∀ c ∈ numeralDigits numeral, radix.isDigit c) :
    numeralValue? radix numeral =
      if numeralDigits numeral = [] then none
      else some (positionalValue radix.base (numeralDigits numeral)) := by
  rw [numeralValue?, dropPlus_of_isDigit h]
  split
  · next none => rw [if_pos none]
  · next some_digit => rw [if_neg some_digit, if_pos (List.all_eq_true.2 h)]

/-- A character that is no digit leaves a numeral without a value. -/
example : numeralValue? .hexadecimal "+f_f" = some 255 ∧ numeralValue? .binary "1_2" = none := by
  cbv

/-- The decimal text of a natural number. -/
def decimal (n : Nat) : String :=
  String.ofList (Nat.toDigits 10 n)

/-- The decimal text of an integer, with `-` before a negative one. -/
def signedDecimal (n : Int) : String :=
  if n < 0 then "-" ++ decimal n.natAbs else decimal n.natAbs

/-- The hexadecimal text of a natural number, in lower case. -/
def hexadecimal (n : Nat) : String :=
  String.ofList (Nat.toDigits 16 n)

/-- The two hexadecimal digits of a byte. -/
def hexByte (byte : UInt8) : String :=
  String.ofList [Nat.digitChar (byte.toNat / 16), Nat.digitChar (byte.toNat % 16)]

end Asm65.Text
