import Asm65.Proofs.ReadBack.Items

/-!
# Bare expressions

Under the strict policy the operands of a line are arranged by the first of them
(`Operand.Arranged`). An expression that nothing introduces has only registers
before it, and `#`, `(` and, on the long chips, `[` always introduce one
(`Operand.readLine_introduced`).

## Implementation notes

A register leaves the first operand still to come, as a comma does. So the bare
`5` of `lda x,5` is an expression (`Operand.exists_bare_behind_register`).
-/

namespace Asm65.Operand

/-- Operand lists of the strict policy. The flag says whether the first operand is still to come,
and the operands that are tokens are among the tokens given. -/
inductive Arranged (features : FeatureSet) (tokens : List Token) : Bool → List Operand → Prop
  | nil (first : Bool) : Arranged features tokens first []
  | register {first : Bool} {operands : List Operand} (found : Register) (span : Span)
      (tail : Arranged features tokens first operands) :
      Arranged features tokens first (.register found span :: operands)
  | bare {operands : List Operand} (expr : OperandExpr) (span : Span)
      (tail : Arranged features tokens false operands) :
      Arranged features tokens true (.immediate expr span :: operands)
  | introduced {first : Bool} {token : Token} {operands : List Operand}
      (opening : Introduces features token.kind) (expr : OperandExpr) (span : Span)
      (tail : Arranged features tokens false operands) :
      Arranged features tokens first (verbatim token :: .immediate expr span :: operands)
  | accumulator {operands : List Operand} (span : Span)
      (tail : Arranged features tokens false operands) :
      Arranged features tokens true (.token accumulator span :: operands)
  | token {first : Bool} {token : Token} {operands : List Operand} (among : token ∈ tokens)
      (other : ¬Introduces features token.kind) (tail : Arranged features tokens false operands) :
      Arranged features tokens first (verbatim token :: operands)

section Reading

variable {features : FeatureSet} {first : Bool} {token : Token} {tokens : List Token}
  {cursor after : Cursor} {item : Item} {operands : List Operand}

theorem arranged_of_readBare (among : token ∈ tokens) (other : ¬Introduces features token.kind)
    (read : readBare features first token cursor = .ok item after)
    (rest : Arranged features tokens item.first operands) :
    Arranged features tokens first (item.operands ++ operands) := by
  unfold readBare at read
  split at read
  · cases read
    exact rest
  split at read
  · next named =>
    cases read
    rw [named.1]
    exact .accumulator token.span rest
  split at read
  · next found _ =>
    cases read
    exact .register found token.span rest
  split at read
  · next early =>
    rw [early]
    split at read
    · next found =>
      cases read
      obtain ⟨expr, rfl, -⟩ := read_of_readImmediate found
      exact .bare expr _ rest
    · split at read
      · cases read
        exact .token among other rest
      · cases read
  · cases read
    exact .token among other rest

theorem arranged_of_readItem (here : cursor.peek? = some token) (inside : cursor.rest ⊆ tokens)
    (read : readItem ⟨features, .fatal⟩ first token cursor = .ok item after)
    (rest : Arranged features tokens item.first operands) :
    Arranged features tokens first (item.operands ++ operands) := by
  by_cases opening : Introduces features token.kind
  · rcases readItem_of_introduces (by exact opening) read with ⟨_, rfl, found⟩ | ⟨-, policy, -⟩
    · obtain ⟨expr, rfl, -⟩ := read_of_readImmediate found
      exact .introduced opening expr _ rest
    · cases policy
  · have among : token ∈ tokens := inside (List.mem_of_mem_head? here)
    obtain ⟨hash, delimiter⟩ := not_or.1 opening
    rw [not_not] at delimiter
    simp only [readItem, if_neg hash, delimiter] at read
    exact arranged_of_readBare among opening read rest

/-- The operands that the strict policy lets through are arranged. -/
theorem arranged_of_readItems (inside : cursor.rest ⊆ tokens)
    (read : readItems ⟨features, .fatal⟩ first cursor = .ok operands after) :
    Arranged features tokens first operands := by
  fun_induction readItems ⟨features, .fatal⟩ first cursor generalizing operands with
  | case1 first | case2 first =>
    cases read
    exact .nil first
  | case3 first cursor current here _ item between found rest stop later ih =>
    cases read
    have passed := readItem_passed ⟨features, .fatal⟩ first here
    rw [found] at passed
    have inside' : between.rest ⊆ tokens := List.Subset.trans passed.subset inside
    exact arranged_of_readItem here inside found (ih inside' later)
  | case4 => cases read
  | case5 => cases read

end Reading

/-- Whether an operand is a register. -/
def IsRegister (operand : Operand) : Prop :=
  ∃ found span, operand = .register found span

/-- Whether an operand is a token that introduces an expression. -/
def Introducer (features : FeatureSet) (operand : Operand) : Prop :=
  ∃ p span, operand = .token (Punct.text p) span ∧ Introduces features (.punct p)

theorem exists_punct_of_introduces {features : FeatureSet} {kind : TokenKind}
    (h : Introduces features kind) : ∃ p, kind = .punct p := by
  rcases h with rfl | delimiter
  · exact ⟨.hash, rfl⟩
  · obtain ⟨what, found⟩ := Option.ne_none_iff_exists'.1 delimiter
    rcases delimiter?_eq_some found with rfl | rfl
    · exact ⟨.openParen, rfl⟩
    · exact ⟨.openBracket, rfl⟩

theorem introducer_verbatim {features : FeatureSet} {token : Token}
    (h : Introduces features token.kind) : (verbatim token).Introducer features := by
  obtain ⟨p, same⟩ := exists_punct_of_introduces h
  refine ⟨p, token.span, ?_, same ▸ h⟩
  rw [verbatim, same]
  rfl

/-- What the last of some operands is, it is behind another one too. -/
theorem exists_getLast?_cons {property : Operand → Prop} {operand : Operand}
    {operands : List Operand} (h : ∃ last ∈ operands.getLast?, property last) :
    ∃ last ∈ (operand :: operands).getLast?, property last := by
  obtain ⟨last, ends, holds⟩ := h
  refine ⟨last, ?_, holds⟩
  rw [List.getLast?_cons, ends]
  rfl

namespace Arranged

variable {features : FeatureSet} {tokens : List Token} {first : Bool}
  {operands before behind : List Operand} {expr : OperandExpr} {span : Span} {p : Punct}

/-- An expression is introduced, or has only registers before it. -/
theorem introducer_or_registers (h : Arranged features tokens first operands)
    (whole : operands = before ++ .immediate expr span :: behind) :
    (∃ operand ∈ before.getLast?, operand.Introducer features) ∨
      first ∧ ∀ operand ∈ before, operand.IsRegister := by
  induction h generalizing before with
  | nil => simp at whole
  | register found place tail ih =>
    cases before with
    | nil => cases whole
    | cons operand before =>
      obtain ⟨rfl, rest⟩ := List.cons.inj whole
      rcases ih rest with introduced | ⟨early, registers⟩
      · exact .inl (exists_getLast?_cons introduced)
      · exact .inr ⟨early, List.forall_mem_cons.2 ⟨⟨found, place, rfl⟩, registers⟩⟩
  | bare expr' place tail ih =>
    cases before with
    | nil => exact .inr ⟨rfl, by simp⟩
    | cons operand before =>
      obtain ⟨rfl, rest⟩ := List.cons.inj whole
      exact .inl (exists_getLast?_cons ((ih rest).resolve_right (by simp)))
  | introduced opening expr' place tail ih =>
    cases before with
    | nil => cases whole
    | cons operand before =>
      obtain ⟨rfl, rest⟩ := List.cons.inj whole
      cases before with
      | nil => exact .inl ⟨_, rfl, introducer_verbatim opening⟩
      | cons operand before =>
        obtain ⟨rfl, rest'⟩ := List.cons.inj rest
        have introduced := (ih rest').resolve_right (by simp)
        exact .inl (exists_getLast?_cons (exists_getLast?_cons introduced))
  | accumulator place tail ih | token among other tail ih =>
    cases before with
    | nil => cases whole
    | cons operand before =>
      obtain ⟨rfl, rest⟩ := List.cons.inj whole
      exact .inl (exists_getLast?_cons ((ih rest).resolve_right (by simp)))

/-- An operator that introduces an expression is followed by one, unless another token is spelled
like it. -/
theorem immediate_behind (h : Arranged features tokens first operands)
    (opening : Introduces features (.punct p))
    (spelled : ∀ token ∈ tokens, token.kind.text = p.text → token.kind = .punct p)
    (whole : operands = before ++ .token p.text span :: behind) :
    ∃ expr place, behind.head? = some (.immediate expr place) := by
  induction h generalizing before with
  | nil => simp at whole
  | register found place tail ih | bare expr place tail ih =>
    cases before with
    | nil => cases whole
    | cons operand before => exact ih (List.cons.inj whole).2
  | introduced opening' expr place tail ih =>
    cases before with
    | nil =>
      obtain ⟨-, rest⟩ := List.cons.inj whole
      exact ⟨expr, place, rest ▸ rfl⟩
    | cons operand before =>
      obtain ⟨-, rest⟩ := List.cons.inj whole
      cases before with
      | nil => cases rest
      | cons operand before => exact ih (List.cons.inj rest).2
  | accumulator place tail ih =>
    cases before with
    | nil =>
      have same : Operand.accumulator = p.text := (Operand.token.inj (List.cons.inj whole).1).1
      cases p <;> exact absurd same (by decide)
    | cons operand before => exact ih (List.cons.inj whole).2
  | token among other tail ih =>
    cases before with
    | nil =>
      have same := (Operand.token.inj (List.cons.inj whole).1).1
      exact absurd (spelled _ among same ▸ opening) other
    | cons operand before => exact ih (List.cons.inj whole).2

end Arranged

/-- Under the strict policy an expression is introduced by the operand before it, or has only
registers before it; and `#`, `(` and, on the long chips, `[` introduce one, unless another token
is spelled like them. -/
theorem readLine_introduced {features : FeatureSet} {name : String} {place : Span}
    {tokens : List Token} {start : Nat} {operands : List Operand} {after : Cursor}
    (read : readLine ⟨features, .fatal⟩ ⟨.name name, place⟩ (.atIndex tokens start) =
      .ok operands after) :
    ∃ rest, operands = .token name place :: rest ∧
      (∀ before expr span behind, rest = before ++ .immediate expr span :: behind →
        (∃ operand ∈ before.getLast?, operand.Introducer features) ∨
          ∀ operand ∈ before, operand.IsRegister) ∧
      ∀ before p span behind, rest = before ++ .token (Punct.text p) span :: behind →
        Introduces features (.punct p) →
        (∀ token ∈ tokens, token.kind.text = p.text → token.kind = .punct p) →
        ∃ expr span', behind.head? = some (.immediate expr span') := by
  obtain ⟨_, rest, named, rfl, items⟩ := readLine_eq_ok_iff.1 read
  cases named
  have inside : (Cursor.atIndex tokens start).rest ⊆ tokens := List.drop_subset start tokens
  have arranged := arranged_of_readItems inside items
  refine ⟨rest, rfl, fun before expr span behind whole => ?_,
    fun before p span behind whole opening spelled => ?_⟩
  · exact (arranged.introducer_or_registers whole).imp_right And.right
  · exact arranged.immediate_behind opening spelled whole

/-- The line `lda (1)` arranged: `(` introduces the number, and nothing else does. -/
theorem readLine_introduced_group :
    let group : List Token := [⟨.punct .openParen, ⟨4, 1⟩⟩, ⟨.number .decimal "1", ⟨5, 1⟩⟩,
      ⟨.punct .closeParen, ⟨6, 1⟩⟩, ⟨.endOfStatement, ⟨7, 0⟩⟩]
    ∃ rest after, readLine ⟨{}, .fatal⟩ ⟨.name "lda", ⟨0, 3⟩⟩ (.atIndex group 0) =
        .ok (.token "lda" ⟨0, 3⟩ :: rest) after ∧
      (∀ before expr span behind, rest = before ++ .immediate expr span :: behind →
        (∃ operand ∈ before.getLast?, operand.Introducer {}) ∨
          ∀ operand ∈ before, operand.IsRegister) ∧
      ∀ before span behind, rest = before ++ .token "(" span :: behind →
        ∃ expr span', behind.head? = some (.immediate expr span') := by
  intro group
  have read : readLine ⟨{}, .fatal⟩ ⟨.name "lda", ⟨0, 3⟩⟩ (.atIndex group 0) = .ok
      [.token "lda" ⟨0, 3⟩, .token "(" ⟨4, 1⟩, .immediate (.plain (.constant 1)) ⟨5, 1⟩,
        .token ")" ⟨6, 1⟩] (.atIndex group 3) := by cbv
  obtain ⟨rest, whole, bare, opened⟩ := readLine_introduced read
  refine ⟨rest, .atIndex group 3, by rw [read, whole], bare, fun before span behind split => ?_⟩
  exact opened before .openParen span behind split (.inr (by decide)) (by decide)

/-- The bare `5` of `lda x,5` is an expression: it is not the first operand, and what it follows
is not a token. -/
theorem exists_bare_behind_register : ∃ tokens before expr span after,
    Token.lex "lda x,5" = .ok tokens ∧
      readLine ⟨{}, .fatal⟩ ⟨.name "lda", ⟨0, 3⟩⟩ (.atIndex tokens 1) =
        .ok (before ++ [.immediate expr span]) after ∧
      before.length ≠ 1 ∧ ∀ text place, .token text place ∉ before.getLast? := by
  let tokens : List Token := [⟨.name "lda", ⟨0, 3⟩⟩, ⟨.name "x", ⟨4, 1⟩⟩, ⟨.punct .comma, ⟨5, 1⟩⟩,
    ⟨.number .decimal "5", ⟨6, 1⟩⟩, ⟨.endOfStatement, ⟨7, 0⟩⟩]
  have index : readItem ⟨{}, .fatal⟩ true ⟨.name "x", ⟨4, 1⟩⟩ (.atIndex tokens 1) =
      .ok ⟨[.register .x ⟨4, 1⟩], true⟩ (.atIndex tokens 2) := by cbv
  have bare : readItems ⟨{}, .fatal⟩ true (.atIndex tokens 2) =
      .ok [.immediate (.plain (.constant 5)) ⟨6, 1⟩] (.atIndex tokens 4) := by cbv
  have items : readItems ⟨{}, .fatal⟩ true (.atIndex tokens 1) =
      .ok [.register .x ⟨4, 1⟩, .immediate (.plain (.constant 5)) ⟨6, 1⟩]
        (.atIndex tokens 4) := by
    rw [readItems_of_ok rfl (by decide) index, bare]
    rfl
  refine ⟨tokens, [.token "lda" ⟨0, 3⟩, .register .x ⟨4, 1⟩], .plain (.constant 5), ⟨6, 1⟩,
    .atIndex tokens 4, by cbv, readLine_eq_ok_iff.2 ⟨_, _, rfl, rfl, items⟩, by decide, ?_⟩
  intro text place last
  cases last

end Asm65.Operand
