import Asm65.Proofs.Grammar

/-!
# Named modifiers

Between the parentheses of a named modifier stands any expression, except one of
which a sign and a group are only the first part (`OperandExpr.read_named`).

## Implementation notes

A sign before `(` is read with that group as the whole inner expression. The
grammar says where the group ends (`Grammar.Derives.closes`), and uniqueness of
the tree says that both ways of reading agree when nothing follows it.
-/

namespace Asm65

namespace Grammar

variable {level : Nat} {kinds group tail : List TokenKind} {expr value : Expr}

theorem unary_ne_openParen (op : UnaryOp) : TokenKind.punct op.punct ≠ .punct .openParen := by
  cases op <;> decide

theorem binary_ne_openParen (op : BinaryOp) : TokenKind.punct op.punct ≠ .punct .openParen := by
  cases op <;> decide

theorem eq_of_singleton {kind kind' : TokenKind} {before : List TokenKind}
    (h : [kind] = before ++ kind' :: tail) : kind = kind' := by
  have among : kind' ∈ [kind] := h ▸ List.mem_append_cons_self
  exact (List.mem_singleton.1 among).symm

/-- Every parenthesis that opens in the tokens of an expression closes behind an expression. -/
theorem Derives.closes (h : Derives level kinds expr) {before : List TokenKind}
    (split : kinds = before ++ .punct .openParen :: tail) :
    ∃ group rest value, tail = group ++ .punct .closeParen :: rest ∧ Derives 1 group value := by
  induction h generalizing before tail with
  | @binary _ op lefts rights _ _ _ _ _ ihFirst ihSecond =>
    -- The operator is no parenthesis, so it is one of the operands that the tokens split in.
    rcases List.append_eq_append_iff.1 split with ⟨between, rfl, right⟩ | ⟨between, left, whole⟩
    · cases between with
      | nil => exact absurd (List.cons.inj right).1 (binary_ne_openParen op)
      | cons first between => exact ihSecond (List.cons.inj right).2
    · cases between with
      | nil => exact absurd (List.cons.inj whole).1.symm (binary_ne_openParen op)
      | cons first between =>
        obtain ⟨rfl, rfl⟩ := List.cons.inj whole
        obtain ⟨group, rest, value, rfl, derived⟩ := ihFirst left
        exact ⟨group, rest ++ .punct op.punct :: rights, value, by simp, derived⟩
  | unary op _ ih =>
    cases before with
    | nil => exact absurd (List.cons.inj split).1 (unary_ne_openParen op)
    | cons first before => exact ih (List.cons.inj split).2
  | literal known =>
    obtain rfl := eq_of_singleton split
    cases known
  | symbol name => cases eq_of_singleton split
  | @group inside value derived ih =>
    cases before with
    | nil => exact ⟨inside, [], value, (List.cons.inj split).2.symm, derived⟩
    | cons first before =>
      have split' : inside ++ [.punct .closeParen] = before ++ .punct .openParen :: tail :=
        (List.cons.inj split).2
      rcases List.append_eq_append_iff.1 split' with ⟨between, -, last⟩ | ⟨between, left, whole⟩
      · cases eq_of_singleton last
      · cases between with
        | nil => cases whole
        | cons first between =>
          obtain ⟨rfl, rfl⟩ := List.cons.inj whole
          obtain ⟨group, rest, value, rfl, derived⟩ := ih left
          exact ⟨group, rest ++ [.punct .closeParen], value, by simp, derived⟩
  | tighter _ ih => exact ih split

theorem Derives.signed (sign : UnaryOp) (h : Derives 1 group value) :
    Derives 1 (.punct sign.punct :: (.punct .openParen :: group ++ [.punct .closeParen]))
      (.unary sign value) := by
  have inside := (Derives.group h).mono (by decide : 7 ≤ 8)
  exact (Derives.unary sign inside).mono (by decide : 1 ≤ 7)

/-- Whether a sign and a group are the first tokens, up to an index at which more follows. -/
def SignsPart (behind : Nat) (kinds : List TokenKind) : Prop :=
  ∃ sign group value rest, sign ≠ UnaryOp.not ∧ rest ≠ [] ∧ Derives 1 group value ∧
    behind = group.length + 3 ∧
    kinds = .punct sign.punct :: .punct .openParen :: group ++ .punct .closeParen :: rest

/-- The group behind the sign that starts an expression ends the expression, or signs a part. -/
theorem Derives.signed_or_signsPart (h : Derives 1 kinds expr) {sign : UnaryOp}
    (signed : sign ≠ .not) (starts : [.punct sign.punct, .punct .openParen] <+: kinds) :
    (∃ group value, Derives 1 group value ∧ expr = .unary sign value ∧
      kinds = .punct sign.punct :: .punct .openParen :: group ++ [.punct .closeParen]) ∨
      ∃ behind, SignsPart behind kinds := by
  obtain ⟨tail, rfl⟩ := starts
  have split : [.punct sign.punct, .punct .openParen] ++ tail =
      [.punct sign.punct] ++ .punct .openParen :: tail := rfl
  obtain ⟨group, rest, value, rfl, derived⟩ := h.closes split
  cases rest with
  | nil =>
    have same := Expr.derives_unique h (derived.signed sign)
    exact .inl ⟨group, value, derived, same, rfl⟩
  | cons kind rest =>
    exact .inr ⟨_, sign, group, value, kind :: rest, signed, nofun, derived, rfl, rfl⟩

end Grammar

open Grammar

/-- The tokens of an expression are read up to a parenthesis that closes behind them. -/
theorem Expr.read_of_derives {cursor : Cursor} {tokens more : List Token} {close : Token}
    {expr : Expr} (here : cursor.rest = tokens ++ close :: more)
    (derived : Derives 1 (tokens.map Token.kind) expr) (closing : close.kind = .punct .closeParen) :
    read cursor = .ok expr (cursor.advance tokens.length) := by
  refine read_of_apart here derived fun token next op same => ?_
  cases next
  rw [closing] at same
  cases op <;> cases same

/-- The tokens of which an expression is read in full derive it. -/
theorem Expr.derives_of_read {tokens : List Token} {expr : Expr}
    (whole : read (.ofTokens tokens) = .ok expr (.atIndex tokens tokens.length)) :
    Derives 1 (tokens.map Token.kind) expr := by
  obtain ⟨n, -, same, derived, -⟩ := read_eq_ok_iff.1 whole
  have full : tokens.length = 0 + n := congrArg Cursor.position same
  change Derives 1 ((tokens.take n).map Token.kind) expr at derived
  rwa [List.take_of_length_le (by omega)] at derived

namespace OperandExpr

variable {cursor : Cursor} {argument more : List Token} {close : Token} {expr value : Expr}
  {sign : UnaryOp} {name : String} {kind : Modifier}

/-- A sign and a group are read as the group under the sign, of which a plus is dropped. -/
theorem readInner_signed (signed : sign ≠ .not) {group : List Token} {first opener : Token}
    (here : cursor.rest = first :: opener :: group ++ close :: more)
    (signing : first.kind = .punct sign.punct) (opening : opener.kind = .punct .openParen)
    (derived : Derives 1 (group.map Token.kind) value) (closing : close.kind = .punct .closeParen) :
    ∃ inner, readInner cursor = .ok inner (cursor.advance (group.length + 3)) ∧
      inner.value? = (Expr.unary sign value).value? := by
  have starts : cursor.Starts [.punct sign.punct, .punct .openParen] := by
    simp [Cursor.Starts, here, signing, opening]
  have behind : (cursor.advance 2).rest = group ++ close :: more := by
    rw [Cursor.advance, here]
    rfl
  have read := Expr.read_of_derives behind derived closing
  have whole := readGroup_of_read behind closing read
  rw [Cursor.advance_advance, (by omega : 2 + (group.length + 1) = group.length + 3)] at whole
  cases sign with
  | neg => exact ⟨_, by rw [readInner_of_minus starts, whole], rfl⟩
  | plus =>
    exact ⟨_, by rw [readInner_of_plus starts, whole, id], (Expr.value?_plus value).symm⟩
  | not => exact absurd rfl signed

theorem readClose_of_other {token : Token} (here : cursor.rest = token :: more)
    (other : token.kind ≠ .punct .closeParen) :
    readClose cursor = .error ⟨.expected .closeParen, token.span⟩ cursor := by
  simp [readClose, Reader.expect, Reader.fail, Cursor.accept, Cursor.peek?, Cursor.span, here,
    other]

/-- What a sign and a group start, as tokens. -/
theorem exists_group_of_map {tokens : List Token} {p : Punct} {group rest : List TokenKind}
    (h : tokens.map Token.kind =
      .punct p :: .punct .openParen :: group ++ .punct .closeParen :: rest) :
    ∃ first opener inside close behind, tokens = first :: opener :: inside ++ close :: behind ∧
      first.kind = .punct p ∧ opener.kind = .punct .openParen ∧ inside.map Token.kind = group ∧
      close.kind = .punct .closeParen ∧ behind.map Token.kind = rest := by
  obtain ⟨first, _, rfl, signing, tail⟩ := List.map_eq_cons_iff.1 h
  obtain ⟨opener, _, rfl, opening, tail⟩ := List.map_eq_cons_iff.1 tail
  obtain ⟨inside, _, rfl, within, tail⟩ := List.map_eq_append_iff.1 tail
  obtain ⟨close, behind, rfl, closing, rest'⟩ := List.map_eq_cons_iff.1 tail
  exact ⟨first, opener, inside, close, behind, rfl, signing, opening, within, closing, rest'⟩

/-- Where a sign and a group are only a part of the expression, they are read alone. -/
theorem readInner_of_signsPart {behind : Nat} (here : cursor.rest = argument ++ more)
    (part : SignsPart behind (argument.map Token.kind)) :
    ∃ inner, readInner cursor = .ok inner (cursor.advance behind) := by
  obtain ⟨sign, group, value, rest, signed, -, derived, rfl, whole⟩ := part
  obtain ⟨first, opener, inside, close, behind, rfl, signing, opening, rfl, closing, -⟩ :=
    exists_group_of_map whole
  rw [List.append_assoc, List.cons_append] at here
  obtain ⟨inner, read, -⟩ := readInner_signed signed here signing opening derived closing
  refine ⟨inner, ?_⟩
  rw [read, List.length_map]

theorem prefix_of_closed {p : Punct} {kinds more : List TokenKind} (other : p ≠ .closeParen)
    (h : [TokenKind.punct p, .punct .openParen] <+: kinds ++ .punct .closeParen :: more) :
    [TokenKind.punct p, .punct .openParen] <+: kinds := by
  cases kinds with
  | nil => simp [other] at h
  | cons first kinds =>
    cases kinds with
    | nil => simp at h
    | cons second kinds => simpa using h

/-- Inside the parentheses the value of the expression is read, unless a sign and a group are only
a part of it. -/
theorem readInner_of_derives (here : cursor.rest = argument ++ close :: more)
    (derived : Derives 1 (argument.map Token.kind) expr) (closing : close.kind = .punct .closeParen)
    (apart : ∀ behind, ¬SignsPart behind (argument.map Token.kind)) :
    ∃ inner, readInner cursor = .ok inner (cursor.advance argument.length) ∧
      inner.value? = expr.value? := by
  by_cases starts : ∃ sign, sign ≠ UnaryOp.not ∧
      [.punct sign.punct, .punct .openParen] <+: argument.map Token.kind
  · obtain ⟨sign, signed, starts⟩ := starts
    rcases derived.signed_or_signsPart signed starts with
      ⟨group, value, inside, rfl, whole⟩ | ⟨behind, part⟩
    · obtain ⟨first, opener, inside', close', behind, rfl, signing, opening, rfl, closing', none⟩ :=
        exists_group_of_map whole
      rw [List.map_eq_nil_iff.1 none, List.append_assoc] at here
      obtain ⟨inner, read, same⟩ := readInner_signed signed here signing opening inside closing'
      refine ⟨inner, ?_, same⟩
      rw [read, List.map_eq_nil_iff.1 none]
      simp
    · exact absurd part (apart behind)
  · have unsigned {sign : UnaryOp} (signed : sign ≠ .not) :
        ¬cursor.Starts [.punct sign.punct, .punct .openParen] := by
      intro signs
      rw [Cursor.Starts, here, List.map_append, List.map_cons, closing] at signs
      exact starts ⟨sign, signed, prefix_of_closed (by cases sign <;> decide) signs⟩
    refine ⟨expr, ?_, rfl⟩
    have minus := unsigned (by decide : UnaryOp.neg ≠ .not)
    have plus := unsigned (by decide : UnaryOp.plus ≠ .not)
    rw [readInner_of_unsigned minus plus]
    exact Expr.read_of_derives here derived closing

/-- Behind the sign and the group that are a part of an expression, no parenthesis closes. -/
theorem not_closeParen_of_signsPart {behind : Nat} {token : Token}
    (whole : Expr.read (.ofTokens argument) = .ok expr (.atIndex argument argument.length))
    (part : SignsPart behind (argument.map Token.kind)) (found : argument[behind]? = some token) :
    token.kind ≠ .punct .closeParen := by
  intro closing
  obtain ⟨sign, group, value, rest, -, -, derived, rfl, kinds⟩ := part
  have bound : group.length + 3 < argument.length := (List.getElem?_eq_some_iff.1 found).1
  have read : Expr.read (.ofTokens argument) =
      .ok (.unary sign value) ((Cursor.ofTokens argument).advance (group.length + 3)) := by
    refine Expr.read_eq_ok_iff.2 ⟨_, bound.le, rfl, ?_, fun other next op same => ?_⟩
    · change Derives 1 ((argument.take _).map Token.kind) _
      have split : argument.map Token.kind = (.punct sign.punct ::
          (.punct .openParen :: group ++ [.punct .closeParen])) ++ rest := by simp [kinds]
      rw [List.map_take, split, List.take_left' (by simp)]
      exact derived.signed sign
    · cases found.symm.trans next
      rw [closing] at same
      cases op <;> cases same
  rw [whole] at read
  have full : argument.length = 0 + (group.length + 3) :=
    congrArg Cursor.position (EStateM.Result.ok.inj read).2
  omega

/-- Between the parentheses of a named modifier stands any expression that does not start with the
word that asks for a stub, except one of which a sign and a group are only the first part: there,
the parenthesis that closes the modifier is missed behind the group. -/
theorem read_named {span span' span'' : Span} (known : Modifier.ofName? name = some kind)
    (whole : Expr.read (.ofTokens argument) = .ok expr (.atIndex argument argument.length))
    (other : ∀ token ∈ argument.head?, ¬token.kind.IsName Modifier.stubWord)
    (here : cursor.rest = ⟨.name name, span⟩ :: ⟨.punct .openParen, span'⟩ :: argument ++
      ⟨.punct .closeParen, span''⟩ :: more) :
    ((∀ behind, ¬SignsPart behind (argument.map Token.kind)) →
      ∃ inner, read cursor =
          .ok (.modified kind inner false) (cursor.advance (argument.length + 3)) ∧
        inner.value? = expr.value?) ∧
      ∀ behind token, SignsPart behind (argument.map Token.kind) →
        argument[behind]? = some token →
        read cursor =
          .error ⟨.expected .closeParen, token.span⟩ (cursor.advance (behind + 2)) := by
  have derived := Expr.derives_of_read whole
  have starts : cursor.Starts [.name name, .punct .openParen] := by simp [Cursor.Starts, here]
  have inside : (cursor.advance 2).rest = argument ++ ⟨.punct .closeParen, span''⟩ :: more := by
    rw [Cursor.advance, here]
    rfl
  have stub : readStub name kind (cursor.advance 2) = .ok kind (cursor.advance 2) := by
    cases argument with
    | nil => exact absurd rfl derived.ne_nil
    | cons token argument =>
      have peek : (cursor.advance 2).peek? = some token := by rw [Cursor.peek?, inside]; rfl
      exact readStub_of_other peek fun word => absurd word (other token rfl)
  rw [read_of_name known starts]
  constructor
  · intro apart
    obtain ⟨inner, found, same⟩ := readInner_of_derives inside derived rfl apart
    refine ⟨inner, ?_, same⟩
    rw [readArgument_of_readInner inside rfl stub found, Cursor.advance_advance,
      (by omega : 2 + (argument.length + 1) = argument.length + 3)]
  · intro behind token part found
    obtain ⟨inner, read⟩ := readInner_of_signsPart inside part
    obtain ⟨bound, rfl⟩ := List.getElem?_eq_some_iff.1 found
    have follows : (cursor.advance (behind + 2)).rest =
        argument[behind] ::
          (argument.drop (behind + 1) ++ ⟨.punct .closeParen, span''⟩ :: more) := by
      rw [Nat.add_comm, ← Cursor.advance_advance, Cursor.advance, inside,
        List.drop_append_of_le_length bound.le, List.drop_eq_getElem_cons bound, List.cons_append]
    have missed := readClose_of_other follows (not_closeParen_of_signsPart whole part found)
    rw [Cursor.advance_advance, Nat.add_comm] at read
    rw [readArgument, Reader.bind_of_ok stub]
    exact Reader.bind_eq_error_iff.2
      (.inr ⟨inner, _, read, Reader.bind_eq_error_iff.2 (.inl missed)⟩)

/-- Between the parentheses of `lo(-(2))` the sign and the group are the whole expression. -/
theorem read_named_signed_group :
    let argument : List Token := [⟨.punct .dash, ⟨3, 1⟩⟩, ⟨.punct .openParen, ⟨4, 1⟩⟩,
      ⟨.number .decimal "2", ⟨5, 1⟩⟩, ⟨.punct .closeParen, ⟨6, 1⟩⟩]
    let cursor : Cursor := .ofTokens (⟨.name "lo", ⟨0, 2⟩⟩ :: ⟨.punct .openParen, ⟨2, 1⟩⟩ ::
      argument ++ [⟨.punct .closeParen, ⟨7, 1⟩⟩])
    ∃ inner, read cursor = .ok (.modified .low8 inner false) (cursor.advance 7) ∧
      inner.value? = some (-2) := by
  intro argument cursor
  have whole : Expr.read (.ofTokens argument) =
      .ok (.unary .neg (.constant 2)) (.atIndex argument argument.length) := by cbv
  have known : Modifier.ofName? "lo" = some .low8 := by decide +kernel
  refine (read_named known whole (by decide) rfl).1 ?_
  rintro behind ⟨sign, group, value, rest, -, more, derived, -, kinds⟩
  rcases group with _ | ⟨number, _ | ⟨close, group⟩⟩
  · exact derived.ne_nil rfl
  · simp_all [argument]
  · simp_all [argument]

/-- Between the parentheses of `lo(-(2)+3)` stands an expression, and it is not read. -/
theorem exists_read_named_eq_error : ∃ argument expr diagnostic after,
    Expr.read (.ofTokens argument) = .ok expr (.atIndex argument argument.length) ∧
      (∀ token ∈ argument.head?, ¬token.kind.IsName Modifier.stubWord) ∧
      read (.ofTokens (⟨.name "lo", ⟨0, 2⟩⟩ :: ⟨.punct .openParen, ⟨2, 1⟩⟩ :: argument ++
        [⟨.punct .closeParen, ⟨9, 1⟩⟩])) = .error diagnostic after := by
  let argument : List Token := [⟨.punct .dash, ⟨3, 1⟩⟩, ⟨.punct .openParen, ⟨4, 1⟩⟩,
    ⟨.number .decimal "2", ⟨5, 1⟩⟩, ⟨.punct .closeParen, ⟨6, 1⟩⟩, ⟨.punct .plus, ⟨7, 1⟩⟩,
    ⟨.number .decimal "3", ⟨8, 1⟩⟩]
  let cursor : Cursor := .ofTokens (⟨.name "lo", ⟨0, 2⟩⟩ :: ⟨.punct .openParen, ⟨2, 1⟩⟩ ::
    argument ++ [⟨.punct .closeParen, ⟨9, 1⟩⟩])
  have whole : Expr.read (.ofTokens argument) =
      .ok (.binary .add (.unary .neg (.constant 2)) (.constant 3))
        (.atIndex argument argument.length) := by cbv
  have failed : read cursor = .error ⟨.expected .closeParen, ⟨7, 1⟩⟩ (cursor.advance 6) := by cbv
  exact ⟨argument, _, _, _, whole, by decide, failed⟩

end OperandExpr

end Asm65
