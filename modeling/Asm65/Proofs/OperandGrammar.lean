import Asm65.Proofs.Grammar
import Asm65.Proofs.Settling.OperandExpr

/-!
# The grammar of operand expressions

What is read as an operand expression is spelled in one of four ways: as an
expression, as a half of an address, or as a named modifier, of which the word that
asks for a stub may stand first between the parentheses
(`OperandExpr.exists_spelled_of_read`).
-/

namespace Asm65

open Grammar

/-- The tokens that a place starts with, together with those behind them. -/
theorem Cursor.exists_append_of_starts {cursor : Cursor} {kinds : List TokenKind}
    (h : cursor.Starts kinds) {own more : List Token}
    (behind : (cursor.advance kinds.length).rest = own ++ more) :
    ∃ tokens, cursor.rest = tokens ++ more ∧
      tokens.map Token.kind = kinds ++ own.map Token.kind := by
  have same := List.prefix_iff_eq_take.1 h
  refine ⟨cursor.rest.take kinds.length ++ own, ?_, ?_⟩
  · rw [List.append_assoc, ← behind]
    exact (List.take_append_drop _ cursor.rest).symm
  · rw [List.map_append, List.map_take, ← same]

namespace OperandExpr

variable {cursor now : Cursor} {kinds : List TokenKind} {inner : Expr} {expr : OperandExpr}

/-- The tokens of the expression inside a named modifier. A plus sign before a group leaves no trace
in the tree. -/
inductive Inside : List TokenKind → Expr → Prop
  | expr {kinds : List TokenKind} {expr : Expr} (h : Derives 1 kinds expr) : Inside kinds expr
  | plus {kinds : List TokenKind} {expr : Expr} (h : Derives 1 kinds expr) :
      Inside (.punct .plus :: grouped kinds) expr

theorem Inside.exists_derives (h : Inside kinds inner) : ∃ value, Derives 1 kinds value := by
  cases h with
  | expr h => exact ⟨_, h⟩
  | plus h => exact ⟨_, h.signed .plus⟩

/-- The tokens of an operand expression. -/
inductive Spelled : List TokenKind → OperandExpr → Prop
  | plain {kinds : List TokenKind} {expr : Expr} (h : Derives 1 kinds expr) :
      Spelled kinds (.plain expr)
  | half {p : Punct} {kind : Modifier} {kinds : List TokenKind} {expr : Expr} (half : Half p kind)
      (h : Derives 1 kinds expr) : Spelled (.punct p :: kinds) (.modified kind expr false)
  | named {signs kinds : List TokenKind} {negated : Bool} {name : String} {kind : Modifier}
      {inner : Expr} (sign : Sign signs negated) (known : Modifier.ofName? name = some kind)
      (h : Inside kinds inner) :
      Spelled (signs ++ TokenKind.name name :: grouped kinds) (.modified kind inner negated)
  | stub {signs kinds : List TokenKind} {negated : Bool} {name word : String} {kind stub : Modifier}
      {inner : Expr} (sign : Sign signs negated) (known : Modifier.ofName? name = some kind)
      (has : Modifier.stub? name = some stub)
      (asks : Text.SameIgnoringCase word Modifier.stubWord) (h : Inside kinds inner) :
      Spelled (signs ++ TokenKind.name name :: grouped (.name word :: kinds))
        (.modified stub inner negated)

/-- What is read behind a sign and a parenthesis is a group. -/
theorem exists_grouped_of_read {p : Punct} {sign : Expr → Expr}
    (starts : cursor.Starts [.punct p, .punct .openParen])
    (h : readInner.group sign (cursor.advance 2) = .ok inner now) :
    ∃ tokens kinds value, cursor.rest = tokens ++ now.rest ∧
      tokens.map Token.kind = .punct p :: grouped kinds ∧ inner = sign value ∧
      Derives 1 kinds value := by
  obtain ⟨value, middle, read, rest⟩ := Reader.bind_eq_ok_iff.1 h
  obtain ⟨_, _, closed, last⟩ := Reader.bind_eq_ok_iff.1 rest
  cases last
  obtain ⟨own, here, derived⟩ := Expr.exists_append_of_read read
  obtain ⟨close, closing, behind⟩ := Reader.exists_cons_of_expect closed
  rw [behind, List.append_cons] at here
  obtain ⟨tokens, whole, spelled⟩ := Cursor.exists_append_of_starts starts here
  refine ⟨tokens, own.map Token.kind, value, whole, ?_, rfl, derived⟩
  rw [spelled, List.map_append, List.map_singleton, closing]
  rfl

theorem exists_inside_of_read (h : readInner cursor = .ok inner now) :
    ∃ tokens, cursor.rest = tokens ++ now.rest ∧ Inside (tokens.map Token.kind) inner := by
  by_cases minus : cursor.Starts [.punct .dash, .punct .openParen]
  · rw [readInner_of_minus minus] at h
    obtain ⟨tokens, kinds, value, here, spelled, rfl, derived⟩ := exists_grouped_of_read minus h
    exact ⟨tokens, here, spelled ▸ .expr (derived.signed .neg)⟩
  by_cases plus : cursor.Starts [.punct .plus, .punct .openParen]
  · rw [readInner_of_plus plus] at h
    obtain ⟨tokens, kinds, value, here, spelled, rfl, derived⟩ := exists_grouped_of_read plus h
    exact ⟨tokens, here, spelled ▸ .plus derived⟩
  · rw [readInner_of_unsigned minus plus] at h
    obtain ⟨own, here, derived⟩ := Expr.exists_append_of_read h
    exact ⟨own, here, .expr derived⟩

/-- What is read behind a named modifier and the word for a stub, if that word is passed. -/
theorem exists_inside_of_readArgument {negated : Bool} {name : String} {kind : Modifier}
    (h : readArgument name kind negated cursor = .ok expr now) :
    ∃ found middle tokens kinds inner, readStub name kind cursor = .ok found middle ∧
      middle.rest = tokens ++ now.rest ∧
      tokens.map Token.kind = kinds ++ [.punct .closeParen] ∧ Inside kinds inner ∧
      expr = .modified found inner negated := by
  obtain ⟨found, middle, stub, rest⟩ := Reader.bind_eq_ok_iff.1 h
  obtain ⟨inner, afterInner, read, rest⟩ := Reader.bind_eq_ok_iff.1 rest
  obtain ⟨_, _, closed, last⟩ := Reader.bind_eq_ok_iff.1 rest
  cases last
  obtain ⟨own, here, inside⟩ := exists_inside_of_read read
  obtain ⟨close, closing, behind⟩ := Reader.exists_cons_of_expect closed
  rw [behind, List.append_cons] at here
  refine ⟨found, middle, own ++ [close], own.map Token.kind, inner, stub, here, ?_, inside, rfl⟩
  rw [List.map_append, List.map_singleton, closing]

/-- What is read behind the name of a modifier and its parenthesis. -/
theorem exists_spelled_of_readArgument {signs : List TokenKind} {negated : Bool} {name : String}
    {kind : Modifier} (sign : Sign signs negated) (known : Modifier.ofName? name = some kind)
    (h : readArgument name kind negated cursor = .ok expr now) :
    ∃ tokens, cursor.rest = tokens ++ now.rest ∧
      Spelled (signs ++ TokenKind.name name :: .punct .openParen :: tokens.map Token.kind)
        expr := by
  obtain ⟨found, middle, own, kinds, inner, stub, here, closes, inside, rfl⟩ :=
    exists_inside_of_readArgument h
  rcases readStub_asked_or_unasked name kind cursor with ⟨_, asks, passed⟩ | ⟨-, passed⟩
  · obtain ⟨has, word, same, starts⟩ := asks
    cases passed.symm.trans stub
    obtain ⟨tokens, whole, spelled⟩ := Cursor.exists_append_of_starts starts here
    refine ⟨tokens, whole, ?_⟩
    rw [spelled, closes]
    exact .stub sign known has same inside
  · cases passed.symm.trans stub
    refine ⟨own, here, ?_⟩
    rw [closes]
    exact .named sign known inside

/-- What is read as an operand expression is spelled like one. -/
theorem exists_spelled_of_read (h : read cursor = .ok expr now) :
    ∃ tokens, cursor.rest = tokens ++ now.rest ∧ Spelled (tokens.map Token.kind) expr := by
  rcases half_or_named_or_plain cursor with
    ⟨p, kind, half, starts⟩ | ⟨signs, negated, name, sign, starts⟩ | plain
  · rw [read_of_half half starts] at h
    obtain ⟨value, _, found, last⟩ := Reader.bind_eq_ok_iff.1 h
    cases last
    obtain ⟨own, behind, derived⟩ := Expr.exists_append_of_read found
    obtain ⟨tokens, whole, spelled⟩ := Cursor.exists_append_of_starts starts behind
    exact ⟨tokens, whole, spelled ▸ .half half derived⟩
  · cases known : Modifier.ofName? name with
    | some kind =>
      rw [read_of_modifier known sign starts] at h
      obtain ⟨own, behind, spelled⟩ := exists_spelled_of_readArgument sign known h
      have opening :
          (signs ++ [TokenKind.name name, .punct .openParen]).length = signs.length + 2 :=
        List.length_append
      obtain ⟨tokens, whole, same⟩ := Cursor.exists_append_of_starts starts (opening ▸ behind)
      refine ⟨tokens, whole, ?_⟩
      rw [same, List.append_assoc]
      exact spelled
    | none =>
      obtain ⟨same, behind⟩ := read_of_sign sign starts
      rw [same, readUnsigned_of_unknown known behind] at h
      cases h
  · rw [read_of_plain plain] at h
    obtain ⟨value, _, found, last⟩ := Reader.bind_eq_ok_iff.1 h
    cases last
    obtain ⟨own, here, derived⟩ := Expr.exists_append_of_read found
    exact ⟨own, here, .plain derived⟩

end OperandExpr

end Asm65
