import Asm65.Proofs.NamedModifiers

/-!
# Signs of named modifiers

A sign may stand before a named modifier, or inside its parentheses before a
group. Both are read for every expression in the group, and they mean the same
(`OperandExpr.read_signs`), although one becomes a flag of the modifier and the
other an operation under it.
-/

namespace Asm65

open Grammar

namespace OperandExpr

/-- Whether tokens of some kinds are read in full as an operand expression, whatever follows. -/
def ReadsAs (kinds : List TokenKind) (expr : OperandExpr) : Prop :=
  ∀ (cursor : Cursor) (tokens more : List Token), cursor.rest = tokens ++ more →
    tokens.map Token.kind = kinds → read cursor = .ok expr (cursor.advance tokens.length)

/-- The tokens of a group. -/
def grouped (kinds : List TokenKind) : List TokenKind :=
  .punct .openParen :: kinds ++ [.punct .closeParen]

/-- The tokens of a sign that may be missing, and whether it negates. -/
inductive Sign : List TokenKind → Bool → Prop
  | missing : Sign [] false
  | plus : Sign [.punct .plus] false
  | minus : Sign [.punct .dash] true

theorem Sign.exists_punct {signs : List TokenKind} {negated : Bool} (h : Sign signs negated)
    (kinds : List TokenKind) : ∃ p others, signs ++ grouped kinds = .punct p :: others := by
  cases h with
  | missing | plus | minus => exact ⟨_, _, rfl⟩

variable {cursor : Cursor} {signs signs' kinds : List TokenKind} {negated negated' : Bool}
  {name : String} {kind : Modifier} {expr inner inner' : Expr}

/-- A sign belongs to the modifier of which a name and a parenthesis follow it. -/
theorem read_of_sign (sign : Sign signs negated)
    (starts : cursor.Starts (signs ++ [.name name, .punct .openParen])) :
    read cursor = readUnsigned negated (cursor.advance signs.length) ∧
      (cursor.advance signs.length).Starts [.name name, .punct .openParen] := by
  cases sign with
  | missing =>
    have unsigned (p : Punct) (other : String) :
        ¬cursor.Starts [.punct p, .name other, .punct .openParen] := by
      intro signed
      cases Cursor.kind_eq_of_starts starts signed
    rw [read, Reader.bind_of_ok (readSign_of_unsigned (unsigned .dash) (unsigned .plus))]
    exact ⟨rfl, starts⟩
  | plus =>
    rw [read, Reader.bind_of_ok (readSign_of_plus starts)]
    exact ⟨rfl, Cursor.starts_advance_one starts⟩
  | minus =>
    rw [read, Reader.bind_of_ok (readSign_of_minus starts)]
    exact ⟨rfl, Cursor.starts_advance_one starts⟩

theorem read_of_modifier (known : Modifier.ofName? name = some kind) (sign : Sign signs negated)
    (starts : cursor.Starts (signs ++ [.name name, .punct .openParen])) :
    read cursor = readArgument name kind negated (cursor.advance (signs.length + 2)) := by
  obtain ⟨same, behind⟩ := read_of_sign sign starts
  rw [same, readUnsigned_of_name known behind, Cursor.advance_advance]

/-- An expression under a sign that may be missing. -/
def negate (negated : Bool) (expr : Expr) : Expr :=
  if negated then .unary .neg expr else expr

/-- A group is read inside the parentheses with the sign before it. -/
theorem readInner_of_sign (sign : Sign signs negated) (derived : Derives 1 kinds expr)
    {inside more : List Token} {close : Token} (here : cursor.rest = inside ++ close :: more)
    (h : inside.map Token.kind = signs ++ grouped kinds)
    (closing : close.kind = .punct .closeParen) :
    readInner cursor = .ok (negate negated expr) (cursor.advance inside.length) := by
  have signed {p : Punct} (h : inside.map Token.kind = .punct p :: grouped kinds)
      (wrap : Expr → Expr) : cursor.Starts [.punct p, .punct .openParen] ∧
        readInner.group wrap (cursor.advance 2) =
          .ok (wrap expr) (cursor.advance inside.length) := by
    obtain ⟨first, opener, group, close', rest, rfl, signing, opening, rfl, closing', none⟩ :=
      exists_group_of_map h
    rw [List.map_eq_nil_iff.1 none, List.append_assoc] at here
    have behind : (cursor.advance 2).rest = group ++ close' :: close :: more := by
      rw [Cursor.advance, here]
      rfl
    have read := Expr.read_of_derives behind derived closing'
    refine ⟨by simp [Cursor.Starts, here, signing, opening], ?_⟩
    rw [readGroup_of_read behind closing' read, Cursor.advance_advance, List.map_eq_nil_iff.1 none]
    congr 2
    simp only [List.length_append, List.length_cons, List.length_nil]
    omega
  cases sign with
  | missing =>
    have unsigned (p : Punct) (apart : p ≠ .openParen) :
        ¬cursor.Starts [.punct p, .punct .openParen] := by
      intro starts
      rw [starts_iff here h] at starts
      exact apart (TokenKind.punct.inj (List.cons_prefix_cons.1 starts).1)
    have derived' : Derives 1 (inside.map Token.kind) expr :=
      h ▸ (Derives.group derived).mono (by decide)
    rw [readInner_of_unsigned (unsigned .dash (by decide)) (unsigned .plus (by decide))]
    exact Expr.read_of_derives here derived' closing
  | plus =>
    obtain ⟨starts, read⟩ := signed h id
    rw [readInner_of_plus starts, read]
    rfl
  | minus =>
    obtain ⟨starts, read⟩ := signed h (.unary .neg)
    rw [readInner_of_minus starts, read]
    rfl

/-- A named modifier is read with a sign before it and a sign inside its parentheses, each of which
may be missing. -/
theorem readsAs_signed (known : Modifier.ofName? name = some kind) (outer : Sign signs negated)
    (inner : Sign signs' negated') (derived : Derives 1 kinds expr) :
    ReadsAs (signs ++ .name name :: grouped (signs' ++ grouped kinds))
      (.modified kind (negate negated' expr) negated) := by
  intro cursor tokens more here h
  have starts : cursor.Starts (signs ++ [.name name, .punct .openParen]) := by
    rw [starts_iff here h]
    simp [grouped]
  obtain ⟨signing, _, rfl, rfl, rest⟩ := List.map_eq_append_iff.1 h
  obtain ⟨named, _, rfl, -, rest⟩ := List.map_eq_cons_iff.1 rest
  obtain ⟨opener, _, rfl, -, rest⟩ := List.map_eq_cons_iff.1 rest
  obtain ⟨inside, _, rfl, within, rest⟩ := List.map_eq_append_iff.1 rest
  obtain ⟨close, rfl, closing⟩ := List.map_eq_singleton_iff.1 rest
  have behind : (cursor.advance (signing.length + 2)).rest = inside ++ close :: more := by
    have split : cursor.rest = (signing ++ [named, opener]) ++ (inside ++ close :: more) := by
      simp [here]
    rw [← Cursor.rest_advance split, List.length_append]
    rfl
  have stub : readStub name kind (cursor.advance (signing.length + 2)) =
      .ok kind (cursor.advance (signing.length + 2)) := by
    obtain ⟨p, others, first⟩ := inner.exists_punct kinds
    obtain ⟨token, rest, rfl, punct, -⟩ := List.map_eq_cons_iff.1 (within.trans first)
    have peek : (cursor.advance (signing.length + 2)).peek? = some token := by
      rw [Cursor.peek?, behind]
      rfl
    apply readStub_of_other peek
    rintro ⟨_, word, -⟩
    cases punct.symm.trans word
  have argument := readInner_of_sign inner derived behind within closing
  rw [read_of_modifier known outer starts, List.length_map,
    readArgument_of_readInner behind closing stub argument, Cursor.advance_advance]
  congr 2
  simp only [List.length_append, List.length_cons, List.length_nil]
  omega

theorem fits_of_value? (same : (modified kind inner negated).value? =
    (modified kind inner' negated').value?) (low high : Int) :
    (modified kind inner negated).fits low high =
      (modified kind inner' negated').fits low high := by
  simp only [fits, same]

theorem range?_of_value? (same : (modified kind inner negated).value? =
    (modified kind inner' negated').value?) :
    (modified kind inner negated).range? = (modified kind inner' negated').range? := by
  simp only [range?, isSymbolic, fits_of_value? same]
  rfl

/-- Before a named modifier and inside its parentheses, a sign means the same. Both spellings are
read, whatever follows them, with one kind, one value and one width, and a plus sign is dropped. -/
theorem read_signs {argument : List Token} (known : Modifier.ofName? name = some kind)
    (whole : Expr.read (.ofTokens argument) = .ok expr (.atIndex argument argument.length)) :
    let outside : OperandExpr := .modified kind expr true
    let inside : OperandExpr := .modified kind (.unary .neg expr) false
    let kinds := argument.map Token.kind
    ReadsAs (.punct .dash :: .name name :: grouped (grouped kinds)) outside ∧
      ReadsAs (.name name :: grouped (.punct .dash :: grouped kinds)) inside ∧
      outside.value? = expr.value?.map (fun value => kind.apply (-value)) ∧
      inside.value? = outside.value? ∧
      (∀ span span' low high, (Operand.immediate inside span).fits low high =
        (Operand.immediate outside span').fits low high) ∧
      (∀ span span', (Operand.immediate inside span).range? =
        (Operand.immediate outside span').range?) ∧
      ∀ kinds' ∈ [.punct .plus :: .name name :: grouped (grouped kinds),
          .name name :: grouped (.punct .plus :: grouped kinds),
          .name name :: grouped (grouped kinds)],
        ReadsAs kinds' (.modified kind expr false) := by
  intro outside inside kinds
  have derived := Expr.derives_of_read whole
  have same : inside.value? = outside.value? := by
    simp only [inside, outside, value?, Expr.value?, Option.map_map]
    rfl
  refine ⟨readsAs_signed known .minus .missing derived,
    readsAs_signed known .missing .minus derived, rfl, same,
    fun _ _ low high => fits_of_value? same low high, fun _ _ => range?_of_value? same, ?_⟩
  simp only [List.forall_mem_cons, List.not_mem_nil, false_implies, implies_true, and_true]
  exact ⟨readsAs_signed known .plus .missing derived, readsAs_signed known .missing .plus derived,
    readsAs_signed known .missing .missing derived⟩

/-- The two spellings of the negated least value, `-mos24((1<<63))` and `mos24(-(1<<63))`. -/
theorem read_signs_least_value :
    let argument : List Token := [⟨.number .decimal "1", ⟨0, 1⟩⟩, ⟨.punct .shl, ⟨1, 2⟩⟩,
      ⟨.number .decimal "63", ⟨3, 2⟩⟩]
    let expr : Expr := .binary .shl (.constant 1) (.constant 63)
    let kinds := argument.map Token.kind
    Modifier.ofName? "mos24" = some .addr24 ∧
      Expr.read (.ofTokens argument) = .ok expr (.atIndex argument argument.length) ∧
      expr.value? = some Int64.minValue ∧
      ReadsAs (.punct .dash :: .name "mos24" :: grouped (grouped kinds))
        (.modified .addr24 expr true) ∧
      ReadsAs (.name "mos24" :: grouped (.punct .dash :: grouped kinds))
        (.modified .addr24 (.unary .neg expr) false) ∧
      (modified .addr24 (.unary .neg expr) false).value? =
        (modified .addr24 expr true).value? := by
  intro argument expr kinds
  have known : Modifier.ofName? "mos24" = some .addr24 := by decide +kernel
  have whole : Expr.read (.ofTokens argument) =
      .ok expr (.atIndex argument argument.length) := by cbv
  obtain ⟨outside, inside, -, same, -⟩ := read_signs known whole
  exact ⟨known, whole, by decide, outside, inside, same⟩

end OperandExpr

end Asm65
