import Asm65.Expr.Reader
import Asm65.OperandExpr

/-!
# Addresses as text

The directive `.mos_addr_asciz` writes an address as decimal text, padded with
zero bytes to a number of characters and closed by one more. An address that
is known after linking only is left to the linker.
-/

namespace Asm65

/-- The name of the directive. -/
def AddressText.directive : String := ".mos_addr_asciz"

/-- An address written as text. -/
inductive AddressText
  | bytes (written : List UInt8) (span : Span)
  /-- The address is filled in by the linker, in this number of characters. -/
  | deferred (address : OperandExpr) (chars : Nat) (span : Span)
deriving DecidableEq

namespace AddressText

/-- The number of bytes written, the closing one included. -/
def size : AddressText → Nat
  | bytes written _ => written.length
  | deferred _ chars _ => chars + 1

/-- A text padded with zero bytes to a number of characters, and closed by one more. -/
def pad (chars : Nat) (text : List Char) : List UInt8 :=
  text.map (fun c => UInt8.ofNat c.toNat) ++ List.replicate (chars + 1 - text.length) 0

theorem length_pad {chars : Nat} {text : List Char} (h : text.length ≤ chars) :
    (pad chars text).length = chars + 1 := by
  simp only [pad, List.length_append, List.length_map, List.length_replicate]
  omega

/-- The number of characters that a count asks for. -/
def charCount? (count : Int64) : Option Nat :=
  if 1 ≤ count.toInt ∧ count.toInt ≤ 8 then some count.toInt.toNat else none

/-- The text of an address in a number of characters, or nothing if it is too long. -/
def ofAddress? (address : Expr) (chars : Nat) (span : Span) : Option AddressText :=
  match address.value? with
  | none => some (.deferred (.modified .addressText address false) chars span)
  | some value =>
    let text := (Text.signedDecimal value.toInt).toList
    if text.length ≤ chars then some (.bytes (pad chars text) span) else none

/-- The count behind the comma, and its span. -/
def readCount : Reader (Option Int64 × Span) := fun cursor =>
  match Expr.read cursor with
  | .ok count after => .ok (count.value?, cursor.spanSince after) after
  | .error diagnostic after => .error diagnostic after

theorem passes_readCount : Reader.Passes 1 readCount := by
  intro start
  have read := Expr.passes_read start
  unfold readCount
  cases found : Expr.read start with
  | ok count after =>
    rw [found] at read
    exact read
  | error diagnostic after =>
    rw [found] at read
    exact read

/-- What the operands of the directive make, once they are read: the address up to one place,
and a count with its span. -/
def ofParts (start afterAddress : Cursor) (address : Expr) :
    Option Int64 × Span → Reader AddressText
  | (none, countSpan) => fun after => .error ⟨.expected .absoluteExpression, countSpan⟩ after
  | (some count, countSpan) => fun after =>
    match charCount? count with
    | none => .error ⟨.charCountRange count, countSpan⟩ after
    | some chars =>
      if after.AtEndOfStatement then
        match ofAddress? address chars (start.spanSince after) with
        | some text => .ok text after
        | none => .error ⟨.literalWidth, start.spanSince afterAddress⟩ after
      else .error ⟨.expected .endOfStatement, after.span⟩ after

theorem passes_ofParts (start afterAddress : Cursor) (address : Expr)
    (counted : Option Int64 × Span) :
    Reader.Passes 0 (ofParts start afterAddress address counted) := by
  intro after
  have here := Cursor.LaterBy.refl after
  obtain ⟨count, countSpan⟩ := counted
  cases count with
  | none => exact here
  | some count =>
    unfold ofParts
    dsimp only
    split
    · exact here
    · split
      · split
        · exact here
        · exact here
      · exact here

/-- Reads what follows the name of the directive, up to the end of the statement. -/
def read : Reader AddressText := fun start =>
  match Expr.read start with
  | .error diagnostic after => .error diagnostic after
  | .ok address afterAddress =>
    match Reader.expect (.punct .comma) .charCount afterAddress with
    | .error diagnostic after => .error diagnostic after
    | .ok _ afterComma =>
      match readCount afterComma with
      | .error diagnostic after => .error diagnostic after
      | .ok counted after => ofParts start afterAddress address counted after

theorem passes_read : Reader.Passes 0 read := by
  intro start
  have address := Expr.passes_read start
  unfold read
  cases found : Expr.read start with
  | error diagnostic after =>
    rw [found] at address
    exact address
  | ok expr afterAddress =>
    rw [found] at address
    have comma := Reader.passes_expect (.punct .comma) .charCount afterAddress
    dsimp only
    cases found' : Reader.expect (.punct .comma) .charCount afterAddress with
    | error diagnostic after =>
      rw [found'] at comma
      exact (address.mono (Nat.zero_le 1)).trans comma
    | ok passed afterComma =>
      rw [found'] at comma
      have before := (address.trans comma).mono (Nat.zero_le 2)
      have count := passes_readCount afterComma
      dsimp only
      cases found'' : readCount afterComma with
      | error diagnostic after =>
        rw [found''] at count
        exact before.trans count
      | ok counted after =>
        rw [found''] at count
        have whole := before.trans (count.mono (Nat.zero_le 1))
        exact Reader.Passed.after whole (Nat.zero_le _) (passes_ofParts start _ expr counted)

/-- The text of the directive with its bytes, or with the address and the count. -/
def text : AddressText → String
  | bytes written _ =>
    "\t" ++ directive ++ "\t[" ++ String.intercalate ", " (written.map Text.hexByte) ++ "]"
  | deferred address chars _ =>
    "\t" ++ directive ++ "\t" ++ address.text ++ ", " ++ Text.decimal chars

end AddressText

end Asm65
