import Asm65.Expr.Reader
import Asm65.OperandExpr

/-!
# Reading operand expressions

`<e`, `>e`, `name(e)`, `name(gs e)`, and a sign before or just inside the
parentheses of a named modifier. Anything else is an arithmetic expression.

## Implementation notes

A sign belongs to a modifier only when a name and `(` follow it. Inside the
parentheses, a sign before `(` belongs to the whole inner expression.
-/

namespace Asm65.OperandExpr

/-- Passes a sign that a named modifier follows, and says whether it was `-`. -/
def readSign : Reader Bool := fun cursor =>
  match cursor.rest with
  | ⟨.punct .dash, _⟩ :: ⟨.name _, _⟩ :: ⟨.punct .openParen, _⟩ :: _ =>
    .ok true (cursor.advance 1)
  | ⟨.punct .plus, _⟩ :: ⟨.name _, _⟩ :: ⟨.punct .openParen, _⟩ :: _ =>
    .ok false (cursor.advance 1)
  | _ => .ok false cursor

theorem passes_readSign : Reader.Passes 0 readSign := by
  intro start
  unfold readSign
  split
  · next h => exact (Cursor.laterBy_advance (by simp [h])).mono (Nat.zero_le 1)
  · next h => exact (Cursor.laterBy_advance (by simp [h])).mono (Nat.zero_le 1)
  · exact Cursor.LaterBy.refl start

/-- Passes the word that asks for a stub, if the named modifier has one. -/
def readStub (name : String) (kind : Modifier) : Reader Modifier := fun cursor =>
  match cursor.peek? with
  | some token =>
    match Modifier.stub? name with
    | some stub =>
      if token.kind.IsName Modifier.stubWord then .ok stub (cursor.advance 1)
      else .ok kind cursor
    | none => .ok kind cursor
  | none => .ok kind cursor

theorem passes_readStub (name : String) (kind : Modifier) :
    Reader.Passes 0 (readStub name kind) := by
  intro start
  unfold readStub
  cases h : start.peek? with
  | none => exact Cursor.LaterBy.refl start
  | some token =>
    dsimp only
    split
    · split
      · exact (Cursor.laterBy_advance_one h).mono (Nat.zero_le 1)
      · exact Cursor.LaterBy.refl start
    · exact Cursor.LaterBy.refl start

/-- The closing parenthesis of a modifier, or of a signed expression inside it. -/
def readClose : Reader Unit :=
  Reader.expect (.punct .closeParen) .closeParen

/-- The expression inside a named modifier. -/
def readInner : Reader Expr := fun cursor =>
  match cursor.rest with
  | ⟨.punct .dash, _⟩ :: ⟨.punct .openParen, _⟩ :: _ => group (.unary .neg) (cursor.advance 2)
  | ⟨.punct .plus, _⟩ :: ⟨.punct .openParen, _⟩ :: _ => group id (cursor.advance 2)
  | _ => Expr.read cursor
where
  group (sign : Expr → Expr) : Reader Expr := do
    let expr ← Expr.read
    readClose
    return sign expr

theorem passes_group (sign : Expr → Expr) : Reader.Passes 2 (readInner.group sign) :=
  Expr.passes_read.bind fun _ =>
    (Reader.passes_expect _ _).bind fun _ => Reader.passes_pure _

theorem passes_readInner : Reader.Passes 1 readInner := by
  intro start
  unfold readInner
  split
  · next h =>
    exact Reader.Passed.after (Cursor.laterBy_advance (by simp [h])) (by decide)
      (passes_group (.unary .neg))
  · next h =>
    exact Reader.Passed.after (Cursor.laterBy_advance (by simp [h])) (by decide)
      (passes_group id)
  · exact Expr.passes_read start

/-- What follows the name of a modifier and its opening parenthesis. -/
def readArgument (name : String) (kind : Modifier) (negated : Bool) : Reader OperandExpr := do
  let kind ← readStub name kind
  let expr ← readInner
  readClose
  return .modified kind expr negated

theorem passes_readArgument (name : String) (kind : Modifier) (negated : Bool) :
    Reader.Passes 2 (readArgument name kind negated) :=
  (passes_readStub name kind).bind fun _ =>
    passes_readInner.bind fun _ =>
      (Reader.passes_expect _ _).bind fun _ => Reader.passes_pure _

/-- An operand expression without its leading sign. -/
def readUnsigned (negated : Bool) : Reader OperandExpr := fun cursor =>
  match cursor.rest with
  | ⟨.punct .less, _⟩ :: _ => half .addr16Low (cursor.advance 1)
  | ⟨.punct .greater, _⟩ :: _ => half .addr16High (cursor.advance 1)
  | ⟨.name name, span⟩ :: ⟨.punct .openParen, _⟩ :: _ =>
    match Modifier.ofName? name with
    | some kind => readArgument name kind negated (cursor.advance 2)
    | none => .error ⟨.unknownModifier name, span⟩ cursor
  | _ => plainExpr cursor
where
  half (kind : Modifier) : Reader OperandExpr := do
    let expr ← Expr.read
    return .modified kind expr negated
  plainExpr : Reader OperandExpr := do
    let expr ← Expr.read
    return .plain expr

theorem passes_readUnsigned (negated : Bool) : Reader.Passes 1 (readUnsigned negated) := by
  intro start
  unfold readUnsigned
  split
  · next h =>
    exact Reader.Passed.after (Cursor.laterBy_advance (by simp [h])) (by decide)
      (Expr.passes_read.bind fun _ => Reader.passes_pure _)
  · next h =>
    exact Reader.Passed.after (Cursor.laterBy_advance (by simp [h])) (by decide)
      (Expr.passes_read.bind fun _ => Reader.passes_pure _)
  · next h =>
    split
    · exact Reader.Passed.after (Cursor.laterBy_advance (by simp [h])) (by decide)
        (passes_readArgument _ _ negated)
    · exact Cursor.LaterBy.refl start
  · exact (Expr.passes_read.bind fun _ => Reader.passes_pure _) start

/-- Reads an operand expression at the cursor. -/
def read : Reader OperandExpr := do
  let negated ← readSign
  readUnsigned negated

theorem passes_read : Reader.Passes 1 read :=
  passes_readSign.bind passes_readUnsigned

end Asm65.OperandExpr
