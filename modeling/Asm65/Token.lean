import Asm65.Span
import Asm65.Text.Case
import Asm65.Text.Numeral

/-!
# Tokens

The tokens of assembly source, the text each is shown as, and the value of a
literal. Every statement ends with a token of its own.
-/

namespace Asm65

open Text (Radix)

/-- Operators and delimiters. -/
inductive Punct
  | plus
  | dash
  | star
  | slash
  | percent
  | amp
  | pipe
  | caret
  | tilde
  | shl
  | shr
  | less
  | greater
  | hash
  | openParen
  | closeParen
  | openBracket
  | closeBracket
  | comma
  | colon
  | equals
deriving DecidableEq

/-- The spelling of an operator or delimiter. -/
def Punct.text : Punct → String
  | plus => "+"
  | dash => "-"
  | star => "*"
  | slash => "/"
  | percent => "%"
  | amp => "&"
  | pipe => "|"
  | caret => "^"
  | tilde => "~"
  | shl => "<<"
  | shr => ">>"
  | less => "<"
  | greater => ">"
  | hash => "#"
  | openParen => "("
  | closeParen => ")"
  | openBracket => "["
  | closeBracket => "]"
  | comma => ","
  | colon => ":"
  | equals => "="

/-- What a token is, apart from where it stands. -/
inductive TokenKind
  | endOfStatement
  | name (text : String)
  | number (radix : Radix) (numeral : String)
  | char (c : Char)
  | punct (p : Punct)
  /-- A character that starts no other token. -/
  | unknown (c : Char)
deriving DecidableEq

namespace TokenKind

/-- The text a token is shown as. -/
def text : TokenKind → String
  | endOfStatement => "end of statement"
  | name text => text
  | number .binary numeral => "%" ++ numeral
  | number .decimal numeral => numeral
  | number .hexadecimal numeral => "$" ++ numeral
  | char c => String.ofList ['\'', c, '\'']
  | punct p => p.text
  | unknown c => String.ofList [c]

/-- The value of a literal. A number needs digits of its radix, and a value below 2^32. -/
def value? : TokenKind → Option Nat
  | number radix numeral => (Text.numeralValue? radix numeral).filter (· < 0x100000000)
  | char c => some c.toNat
  | _ => none

theorem value?_lt {kind : TokenKind} {n : Nat} (h : kind.value? = some n) : n < 0x100000000 := by
  cases kind with
  | number radix numeral =>
    have := Option.mem_filter_iff.1 h
    simpa using this.2
  | char c =>
    have valid := c.valid
    simp only [value?, Option.some.injEq] at h
    simp only [UInt32.isValidChar, Nat.isValidChar, UInt32.toNat] at valid
    have : c.toNat = c.val.toNat := rfl
    simp only [UInt32.toNat] at this
    omega
  | endOfStatement | name | punct | unknown => simp [value?] at h

/-- The text of a name. -/
def name? : TokenKind → Option String
  | name text => some text
  | _ => none

theorem name?_eq_some_iff {kind : TokenKind} {text : String} :
    kind.name? = some text ↔ kind = name text := by
  cases kind <;> simp [name?]

/-- Whether a token is this name, in any letter case. -/
def IsName (kind : TokenKind) (text : String) : Prop :=
  ∃ spelling, kind = name spelling ∧ Text.SameIgnoringCase spelling text

instance (kind : TokenKind) (text : String) : Decidable (kind.IsName text) :=
  match kind with
  | name spelling =>
    if h : Text.SameIgnoringCase spelling text then .isTrue ⟨spelling, rfl, h⟩
    else .isFalse (by rintro ⟨_, same, h'⟩; cases same; exact h h')
  | endOfStatement | number .. | char _ | punct _ | unknown _ =>
    .isFalse (by rintro ⟨_, same, _⟩; cases same)

end TokenKind

/-- A token and where it stands. -/
structure Token where
  kind : TokenKind
  span : Span
deriving DecidableEq

end Asm65
