import Asm65.Proofs.ModifierSigns
import Asm65.Proofs.Settling.Expr

/-!
# What settles an operand expression

The readers of modifiers look two or three tokens ahead, and yet their results are
settled by the tokens they pass and the one they stop at (`OperandExpr.settles_read`).

## Implementation notes

What they look for starts with tokens of an expression. When it is not there, an
expression is read at the same place, which goes past these tokens or stops at the
one that is different (`Expr.starts_of_goesOn`).
-/

namespace Asm65

namespace OperandExpr

variable {n : Nat} {cursor cursor' : Cursor} {name : String} {kind : Modifier}
  {signs : List TokenKind} {negated : Bool}

theorem mends_readClose : Reader.Mends readClose [] :=
  Reader.mends_expect (by rfl) .closeParen

theorem settles_readClose : Reader.Settles readClose :=
  Reader.settles_expect (by rfl) .closeParen

theorem settles_group (sign : Expr → Expr) : Reader.Settles (readInner.group sign) :=
  Expr.settles_read.bind (fun expr => settles_readClose.map fun _ => sign expr)
    fun expr => mends_readClose.map fun _ => sign expr

theorem shifts_sign (sign : UnaryOp) :
    Expr.Shifts (.operand []) [.punct sign.punct] (.operand [.unary sign]) :=
  .step (Expr.step_unary sign []) (.refl _)

theorem settles_readInner : Reader.Settles readInner := by
  refine .of_branches (passes_readInner.mono (Nat.zero_le 1)) fun cursor n ends => ?_
  by_cases minus : cursor.Starts [.punct .dash, .punct .openParen]
  · refine ⟨_, 2, settles_group _, readInner_of_minus minus, fun long cursor' goesOn => ?_⟩
    exact readInner_of_minus (goesOn.starts minus long)
  by_cases plus : cursor.Starts [.punct .plus, .punct .openParen]
  · refine ⟨_, 2, settles_group _, readInner_of_plus plus, fun long cursor' goesOn => ?_⟩
    exact readInner_of_plus (goesOn.starts plus long)
  have same := readInner_of_unsigned minus plus
  refine ⟨_, 0, Expr.settles_read, same, fun _ cursor' goesOn => ?_⟩
  rw [Reader.EndsAfter, same] at ends
  have signed (sign : UnaryOp) : cursor'.Starts [.punct sign.punct, .punct .openParen] →
      cursor.Starts [.punct sign.punct, .punct .openParen] := by
    apply Expr.starts_of_goesOn ends goesOn (shifts_sign sign)
    cases sign <;> simp [TokenKind.Inert, UnaryOp.punct]
  exact readInner_of_unsigned (mt (signed .neg) minus) (mt (signed .plus) plus)

theorem mends_readInner : Reader.Mends readInner [] := by
  -- Behind the last token, nothing stands that could lead to a sign.
  have nowhere : Reader.Mends readInner ((Cursor.ofTokens []).rest.take (0 + 0)) := by
    refine .behind (Nat.zero_le _) Expr.mends_read fun cursor' goesOn => ?_
    have unsigned (p : Punct) (apart : p ≠ .closeParen) :
        ¬cursor'.Starts [.punct p, .punct .openParen] := by
      intro starts
      have none := goesOn.starts_take (by simp [TokenKind.Inert, apart]) starts
      cases List.prefix_nil.1 none
    exact readInner_of_unsigned (unsigned .dash (by decide)) (unsigned .plus (by decide))
  exact nowhere

/-- Whether the word at a place asks for the stub of a named modifier. -/
def AsksForStub (name : String) (stub : Modifier) (cursor : Cursor) : Prop :=
  Modifier.stub? name = some stub ∧
    ∃ spelling, Text.SameIgnoringCase spelling Modifier.stubWord ∧ cursor.Starts [.name spelling]

theorem readStub_of_asksForStub {stub : Modifier} (asks : AsksForStub name stub cursor) :
    readStub name kind cursor = .ok stub (cursor.advance 1) := by
  obtain ⟨known, spelling, same, starts⟩ := asks
  obtain ⟨span, rest, here, -⟩ := prefix_kinds_iff.1 starts
  simp only [readStub, Cursor.peek?, here, List.head?_cons, known]
  exact if_pos ⟨spelling, rfl, same⟩

theorem readStub_of_unasked (unasked : ∀ stub, ¬AsksForStub name stub cursor) :
    readStub name kind cursor = .ok kind cursor := by
  cases peek : cursor.peek? with
  | none => simp only [readStub, peek]
  | some token =>
    refine readStub_of_other peek fun word => Option.eq_none_iff_forall_ne_some.2 ?_
    intro stub known
    obtain ⟨spelling, named, same⟩ := word
    obtain ⟨rest, here⟩ := List.head?_eq_some_iff.1 peek
    exact unasked stub ⟨known, spelling, same, by simp [Cursor.Starts, here, named]⟩

/-- The word for a stub is passed where it asks for one, and nothing else ever is. -/
theorem readStub_asked_or_unasked (name : String) (kind : Modifier) (cursor : Cursor) :
    (∃ stub, AsksForStub name stub cursor ∧
      readStub name kind cursor = .ok stub (cursor.advance 1)) ∨
      (∀ stub, ¬AsksForStub name stub cursor) ∧ readStub name kind cursor = .ok kind cursor := by
  by_cases asked : ∃ stub, AsksForStub name stub cursor
  · obtain ⟨stub, asks⟩ := asked
    exact .inl ⟨stub, asks, readStub_of_asksForStub asks⟩
  · rw [not_exists] at asked
    exact .inr ⟨asked, readStub_of_unasked asked⟩

theorem settles_readStub (name : String) (kind : Modifier) :
    Reader.Settles (readStub name kind) := by
  refine .of_branches (passes_readStub name kind) fun cursor n _ => ?_
  rcases readStub_asked_or_unasked name kind cursor with ⟨stub, asks, same⟩ | ⟨unasked, same⟩
  · refine ⟨_, 1, Reader.settles_pure stub, same,
      fun long cursor' goesOn => readStub_of_asksForStub ?_⟩
    obtain ⟨known, spelling, same, starts⟩ := asks
    exact ⟨known, spelling, same, goesOn.starts starts long⟩
  · refine ⟨_, 0, Reader.settles_pure kind, same,
      fun _ cursor' goesOn => readStub_of_unasked fun stub asks => unasked stub ?_⟩
    obtain ⟨known, spelling, same, starts⟩ := asks
    have passed := goesOn.starts_take (by simp [TokenKind.Inert]) starts
    exact ⟨known, spelling, same, by simpa using passed⟩

theorem settles_readArgument (name : String) (kind : Modifier) (negated : Bool) :
    Reader.Settles (readArgument name kind negated) := by
  have closing (kind : Modifier) (expr : Expr) : Reader.Mends
      (readClose >>= fun _ => pure (OperandExpr.modified kind expr negated)) [] :=
    mends_readClose.map fun _ => _
  refine (settles_readStub name kind).bind (fun kind => ?_)
    fun kind => mends_readInner.bind (closing kind)
  exact settles_readInner.bind (fun _ => settles_readClose.map fun _ => _) (closing kind)

/-- The character that stands for a half of an address. -/
inductive Half : Punct → Modifier → Prop
  | low : Half .less .addr16Low
  | high : Half .greater .addr16High

/-- Whether nothing at a place leads to a modifier. -/
structure Plain (cursor : Cursor) : Prop where
  half : ∀ {p kind}, Half p kind → ¬cursor.Starts [.punct p]
  named : ∀ {signs negated} name, Sign signs negated →
    ¬cursor.Starts (signs ++ [.name name, .punct .openParen])

/-- The ways in which the first tokens decide how an operand expression is read. -/
theorem half_or_named_or_plain (cursor : Cursor) :
    (∃ p kind, Half p kind ∧ cursor.Starts [.punct p]) ∨
      (∃ signs negated name, Sign signs negated ∧
        cursor.Starts (signs ++ [.name name, .punct .openParen])) ∨
      Plain cursor := by
  by_cases half : ∃ p kind, Half p kind ∧ cursor.Starts [.punct p]
  · exact .inl half
  by_cases named : ∃ signs negated name, Sign signs negated ∧
      cursor.Starts (signs ++ [.name name, .punct .openParen])
  · exact .inr (.inl named)
  · exact .inr (.inr ⟨fun half' starts => half ⟨_, _, half', starts⟩,
      fun name sign starts => named ⟨_, _, name, sign, starts⟩⟩)

theorem read_of_half {p : Punct} (half : Half p kind) (starts : cursor.Starts [.punct p]) :
    read cursor = readUnsigned.half false kind (cursor.advance 1) := by
  have unsigned := readSign_of_unsigned
    (fun name signed => by cases Cursor.kind_eq_of_starts starts signed; cases half)
    (fun name signed => by cases Cursor.kind_eq_of_starts starts signed; cases half)
  rw [read, Reader.bind_of_ok unsigned]
  cases half with
  | low => exact readUnsigned_of_less starts
  | high => exact readUnsigned_of_greater starts

theorem read_of_plain (plain : Plain cursor) : read cursor = readUnsigned.plainExpr cursor := by
  have unsigned := readSign_of_unsigned (fun name => plain.named name .minus)
    fun name => plain.named name .plus
  rw [read, Reader.bind_of_ok unsigned, readUnsigned_of_plain (plain.half .low) (plain.half .high)
    fun name => plain.named name .missing]

theorem settles_half (negated : Bool) (kind : Modifier) :
    Reader.Settles (readUnsigned.half negated kind) :=
  Expr.settles_read.map fun expr => modified kind expr negated

theorem settles_plainExpr : Reader.Settles readUnsigned.plainExpr :=
  Expr.settles_read.map plain

/-- A sign and a name are the first tokens of an expression, too. -/
theorem exists_shifts_of_sign (sign : Sign signs negated) (name : String) :
    ∃ last, Expr.Shifts (.operand []) (signs ++ [.name name]) last := by
  cases sign with
  | missing => exact ⟨_, .step rfl (.refl _)⟩
  | plus => exact ⟨_, (shifts_sign .plus).snoc rfl⟩
  | minus => exact ⟨_, (shifts_sign .neg).snoc rfl⟩

theorem Plain.of_goesOn (plain : Plain cursor)
    (ends : Reader.EndsAfter readUnsigned.plainExpr cursor n)
    (goesOn : Cursor.GoesOn n cursor cursor') : Plain cursor' where
  half := by
    intro p kind half starts
    have live : ∀ kind ∈ [] ++ [.punct p], ¬TokenKind.Inert kind := by
      cases half <;> simp [TokenKind.Inert]
    exact plain.half half (Expr.starts_of_goesOn ends.of_map goesOn (.refl _) live starts)
  named := by
    intro signs negated name sign starts
    obtain ⟨last, shifts⟩ := exists_shifts_of_sign sign name
    have live : ∀ kind ∈ signs ++ [.name name] ++ [.punct .openParen], ¬kind.Inert := by
      cases sign <;> simp [TokenKind.Inert]
    refine plain.named name sign ?_
    rw [List.append_cons] at starts ⊢
    exact Expr.starts_of_goesOn ends.of_map goesOn shifts live starts

/-- The result of reading an operand expression is settled. -/
theorem settles_read : Reader.Settles read := by
  refine .of_branches (passes_read.mono (Nat.zero_le 1)) fun cursor n ends => ?_
  rcases half_or_named_or_plain cursor with
    ⟨p, kind, half, starts⟩ | ⟨signs, negated, name, sign, starts⟩ | plain
  · exact ⟨_, 1, settles_half false kind, read_of_half half starts,
      fun long cursor' goesOn => read_of_half half (goesOn.starts starts long)⟩
  · obtain ⟨same, behind⟩ := read_of_sign sign starts
    cases known : Modifier.ofName? name with
    | some kind =>
      refine ⟨_, signs.length + 2, settles_readArgument name kind negated,
        read_of_modifier known sign starts, fun long cursor' goesOn => ?_⟩
      exact read_of_modifier known sign (goesOn.starts starts (by simpa using long))
    | none =>
      -- A name that is unknown is reported as such.
      rw [readUnsigned_of_unknown known behind] at same
      rcases ends with ⟨value, found⟩ | ⟨what, span, failed⟩
      · cases same.symm.trans found
      · cases same.symm.trans failed
  · have same := read_of_plain plain
    rw [Reader.EndsAfter, same] at ends
    exact ⟨_, 0, settles_plainExpr, same,
      fun _ cursor' goesOn => read_of_plain (plain.of_goesOn ends goesOn)⟩

end OperandExpr

end Asm65
