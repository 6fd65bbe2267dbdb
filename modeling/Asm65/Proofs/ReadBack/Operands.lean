import Asm65.Proofs.ReadBack.Items

/-!
# Operands read back

The operands that are read from their own text are those that `ReadsBack`
describes (`isReadAs_iff`).

## Implementation notes

There is one lemma for each kind of first operand. The induction is on the
number of operands, since a delimiter is read together with the operand behind
it.
-/

namespace Asm65

open Instruction (opens closes)

namespace OperandExpr

/-- Whether an expression is read as one where nothing introduces it. A parenthesis in front
would be a delimiter, and some names are those of registers. -/
def StandsBare (features : FeatureSet) : OperandExpr → Prop
  | plain (.binary ..) => False
  | plain (.symbol name) => ¬(TokenKind.name name).IsName Operand.accumulator ∧
    Operand.registerOf? features (.name name) = none
  | _ => True

end OperandExpr

namespace Operand

/-- Whether an opening delimiter has this text. A bracket delimits on the long chips only. -/
def IsDelimiter (features : FeatureSet) (text : String) : Prop :=
  text = "(" ∨ text = "[" ∧ .mosw65816 ∈ features

/-- The operands that their text is read back as. The flag says whether the first operand is
still to come. -/
inductive ReadsBack (config : Config) : Bool → List Operand → Prop
  | nil {first : Bool} : ReadsBack config first []
  | register {first : Bool} {found : Register} {span : Span} {rest : List Operand}
      (tail : ReadsBack config first rest) : ReadsBack config first (.register found span :: rest)
  | bare {expr : OperandExpr} {span : Span} {rest : List Operand}
      (bare : expr.StandsBare config.features) (keeps : expr.KeepsText)
      (tail : ReadsBack config false rest) :
      ReadsBack config true (.immediate expr span :: rest)
  | introduced {first : Bool} {text : String} {expr : OperandExpr} {span span' : Span}
      {rest : List Operand} (opening : text = "#" ∨ IsDelimiter config.features text)
      (keeps : expr.KeepsText) (tail : ReadsBack config false rest) :
      ReadsBack config first (.token text span :: .immediate expr span' :: rest)
  /-- A delimiter at the end. -/
  | last {first : Bool} {text : String} {span : Span}
      (delimiter : IsDelimiter config.features text) (falls : config.policy = .fallThrough) :
      ReadsBack config first [.token text span]
  /-- A delimiter without its expression. -/
  | past {first : Bool} {text text' : String} {span span' : Span} {rest : List Operand}
      (delimiter : IsDelimiter config.features text) (falls : config.policy = .fallThrough)
      (nothing : StartsNoExpression (.token text' span' :: rest))
      (tail : ReadsBack config false rest) :
      ReadsBack config first (.token text span :: .token text' span' :: rest)
  /-- Any other token. Where the first operand may stand, an expression is looked for before. -/
  | verbatim {first : Bool} {text : String} {span : Span} {rest : List Operand}
      (hash : text ≠ "#") (other : ¬IsDelimiter config.features text)
      (nothing : first → text = accumulator ∨ StartsNoExpression (.token text span :: rest))
      (tail : ReadsBack config false rest) : ReadsBack config first (.token text span :: rest)

theorem registerOf?_text (features : FeatureSet) {found : Register} (h : found.isOperandClass) :
    registerOf? features (.name found.text) = some found := by
  have same : Register.canonical? found.text.toLower.toList = some found := by
    cases found with
    | x | y | s => cbv
    | a | p | rc | rs => cases h
  simp only [registerOf?, TokenKind.name?, Option.bind_some, Register.ofName?, same,
    Option.filter_some, h, if_true]

theorem not_isName_accumulator {found : Register} (h : found.isOperandClass) :
    ¬(TokenKind.name found.text).IsName accumulator := by
  cases found with
  | x | y | s => decide +kernel
  | a | p | rc | rs => cases h

theorem delimiter?_ne_none_iff {features : FeatureSet} {kind : TokenKind} (lexed : kind.IsLexed)
    (inside : kind ≠ .endOfStatement) :
    delimiter? features kind ≠ none ↔ IsDelimiter features kind.text := by
  have same (p : Punct) : kind.text = p.text ↔ kind = .punct p :=
    TokenKind.text_eq_punct_iff lexed inside
  rw [IsDelimiter, show "(" = Punct.openParen.text from rfl, same,
    show "[" = Punct.openBracket.text from rfl, same]
  constructor
  · intro h
    unfold delimiter? at h
    split at h
    · exact .inl rfl
    · split at h
      · next long => exact .inr ⟨rfl, long⟩
      · exact absurd rfl h
    · exact absurd rfl h
  · rintro (rfl | ⟨rfl, long⟩)
    · nofun
    · simp [delimiter?, long]

theorem introduces_iff {features : FeatureSet} {kind : TokenKind} (lexed : kind.IsLexed)
    (inside : kind ≠ .endOfStatement) :
    Introduces features kind ↔ kind.text = "#" ∨ IsDelimiter features kind.text := by
  rw [Introduces, delimiter?_ne_none_iff lexed inside, show "#" = Punct.hash.text from rfl,
    TokenKind.text_eq_punct_iff lexed inside]

theorem seeks_modifier (features : FeatureSet) (kind : Modifier) :
    Seeks features (.name kind.text) := by
  have unregistered : Register.canonical? kind.text.toLower.toList = none ∧
      Register.imaginary? kind.text.toLower.toList = none := by
    cases kind <;> cbv
  refine ⟨by simp, rfl, by simp, ?_, ?_⟩
  · cases kind <;> decide +kernel
  · simp only [registerOf?, TokenKind.name?, Option.bind_some, Register.ofName?, unregistered.1,
      unregistered.2, ite_self, Option.filter_none]

/-- The first token of an expression decides whether it may stand bare. -/
theorem standsBare_iff {features : FeatureSet} {expr : OperandExpr} {kind : TokenKind}
    (h : kind ∈ expr.kinds.head?) : expr.StandsBare features ↔ Seeks features kind := by
  cases expr with
  | plain expr =>
    cases expr with
    | constant value =>
      cases h
      exact iff_of_true trivial ⟨nofun, rfl, nofun, nofun, rfl⟩
    | symbol name =>
      cases h
      exact ⟨fun h => ⟨nofun, rfl, nofun, h.1, h.2⟩, fun h => ⟨h.accumulator, h.register⟩⟩
    | unary op operand =>
      cases h
      cases op <;> exact iff_of_true trivial ⟨nofun, rfl, nofun, nofun, rfl⟩
    | binary op left right =>
      cases h
      exact iff_of_false id fun h => nomatch h.delimiter
  | modified kind' expr negated =>
    cases negated with
    | true =>
      cases h
      exact iff_of_true trivial ⟨nofun, rfl, nofun, nofun, rfl⟩
    | false =>
      cases h
      exact iff_of_true trivial (seeks_modifier features kind')

section

variable {config : Config} {first : Bool} {operand : Operand} {rest : List Operand}
  {cursor : Cursor} {token : Token} {tokens more : List Token} {expr : OperandExpr} {span : Span}

theorem isReadAs_register_iff {found : Register} {span : Span}
    (h : Leads config.features (.register found span) rest cursor tokens more) :
    IsReadAs config first (.register found span :: rest) cursor ↔
      IsReadAs config first rest (cursor.advance tokens.length) := by
  obtain ⟨token, rfl, here, named, operandClass⟩ := h.of_register
  have other : ¬(first ∧ token.kind.IsName accumulator) := by
    rintro ⟨-, name⟩
    exact not_isName_accumulator operandClass (named ▸ name)
  have read : readItem config first token cursor =
      .ok ⟨[.register found token.span], first⟩ (cursor.advance 1) := by
    simp only [readItem, readBare, delimiter?, if_neg other]
    simp only [named, registerOf?_text _ operandClass, reduceCtorEq, if_false]
  rw [isReadAs_cons_iff here (by simp [named]) read]
  exact and_iff_right (.register found trivial)

theorem isReadAs_immediate_iff
    (h : Leads config.features (.immediate expr span) rest cursor tokens more) :
    IsReadAs config first (.immediate expr span :: rest) cursor ↔
      (first = true ∧ expr.StandsBare config.features ∧ expr.KeepsText) ∧
        IsReadAs config false rest (cursor.advance tokens.length) := by
  obtain ⟨kinds, written⟩ := h.of_immediate
  obtain ⟨token, here, head, inside, comma⟩ := h.peek_immediate
  by_cases bare : first = true ∧ expr.StandsBare config.features ∧ expr.KeepsText
  · obtain ⟨rfl, bare, keeps⟩ := bare
    have follows := h.follows (by simp [opens, isToken])
    have read := OperandExpr.read_of_keepsText written keeps h.whole kinds follows
    have seeks := (standsBare_iff head).1 bare
    rw [isReadAs_cons_iff here inside (readItem_of_seeks seeks read)]
    exact and_congr (iff_of_true (.immediate expr trivial) ⟨rfl, bare, keeps⟩) Iff.rfl
  · refine iff_of_false (fun readAs => bare ?_) (fun h => bare h.1)
    obtain ⟨item, after, found, others, read, same, agree, -⟩ :=
      readAs.exists_item here inside comma
    cases agree with
    | immediate =>
      have first := congrArg List.head? same
      obtain ⟨rfl, seeks, found⟩ := seeks_of_readItem comma read first
      exact ⟨rfl, (standsBare_iff head).2 seeks,
        OperandExpr.keepsText_of_read written h.whole kinds found⟩

/-- An expression behind the token that introduces it. -/
theorem isReadAs_introduced_iff (taken : operand.Agree .anywhere (verbatim token))
    (opening : Introduces config.features token.kind) (here : cursor.peek? = some token)
    (inside : token.kind ≠ .endOfStatement)
    (h : Leads config.features (.immediate expr span) rest (cursor.advance 1) tokens more) :
    IsReadAs config first (operand :: .immediate expr span :: rest) cursor ↔
      expr.KeepsText ∧ IsReadAs config false rest (cursor.advance (1 + tokens.length)) := by
  obtain ⟨kinds, written⟩ := h.of_immediate
  by_cases keeps : expr.KeepsText
  · have follows := h.follows (by simp [opens, isToken])
    have read := OperandExpr.read_of_keepsText written keeps h.whole kinds follows
    rw [Cursor.advance_advance] at read
    rw [isReadAs_cons_cons_iff here inside (readItem_of_ok opening (readImmediate_of_ok read)),
      and_iff_right taken]
    exact and_congr (iff_of_true (.immediate expr trivial) keeps) Iff.rfl
  · refine iff_of_false (fun readAs => keeps ?_) (fun h => keeps h.1)
    obtain ⟨item, after, found, others, read, same, -, operands, agree⟩ :=
      readAs.exists_item here inside (comma_of_introduces opening)
    rcases readItem_of_introduces opening read with ⟨found', rfl, found⟩ | ⟨-, -, misses, past⟩
    · cases same
      obtain ⟨expr', rfl, read'⟩ := read_of_readImmediate found
      cases agree with
      | cons head _ =>
        cases head with
        | immediate => exact OperandExpr.keepsText_of_read written h.whole kinds read'
    · obtain ⟨following, there, head, inside', comma⟩ := h.peek_immediate
      rw [readPastDelimiter_of_peek there inside'] at past
      split at past
      · next bare =>
        cases past
        cases same
        obtain ⟨found', same', immediate⟩ := readBare_eq_ok comma bare
        rw [same'] at agree
        cases agree with
        | cons head _ =>
          cases head with
          | immediate =>
            obtain ⟨-, -, -, found⟩ := immediate _ _ rfl
            exact OperandExpr.keepsText_of_read written h.whole kinds found
      · cases past

/-- A token that introduces an expression, with no operand behind it. -/
theorem isReadAs_last_iff (taken : operand.Agree .anywhere (verbatim token))
    (opening : Introduces config.features token.kind) (here : cursor.peek? = some token)
    (inside : token.kind ≠ .endOfStatement) (h : StandAt config.features [] (cursor.advance 1)) :
    IsReadAs config first [operand] cursor ↔
      delimiter? config.features token.kind ≠ none ∧ config.policy = .fallThrough := by
  constructor
  · intro readAs
    obtain ⟨item, after, found, others, read, same, -, operands, agree⟩ :=
      readAs.exists_item here inside (comma_of_introduces opening)
    rcases readItem_of_introduces opening read with ⟨_, rfl, -⟩ | ⟨delimiter, falls, -, -⟩
    · cases same
      cases agree
    · exact ⟨delimiter, falls⟩
  · rintro ⟨delimiter, falls⟩
    have read : readItem config first token cursor =
        .ok ⟨[verbatim token], first⟩ (cursor.advance 1) := by
      rw [readItem_of_misses delimiter falls h.misses,
        readPastDelimiter_of_end h.atEndOfStatement]
    exact (isReadAs_cons_iff here inside read).2
      ⟨taken, isReadAs_of_atEndOfStatement h.atEndOfStatement⟩

/-- A token that introduces an expression, with a register behind it. -/
theorem not_isReadAs_of_register (opening : Introduces config.features token.kind)
    (here : cursor.peek? = some token) (inside : token.kind ≠ .endOfStatement) {register : Register}
    (h : Leads config.features (.register register span) rest (cursor.advance 1) tokens more) :
    ¬IsReadAs config first (operand :: .register register span :: rest) cursor := by
  intro readAs
  obtain ⟨item, after, found, others, read, same, -, operands, agree⟩ :=
    readAs.exists_item here inside (comma_of_introduces opening)
  rcases readItem_of_introduces opening read with ⟨_, rfl, found⟩ | ⟨-, -, misses, -⟩
  · cases same
    obtain ⟨expr, rfl, -⟩ := read_of_readImmediate found
    cases agree with
    | cons head _ => cases head
  · obtain ⟨token, rfl, -, named, operandClass⟩ := h.of_register
    exact h.not_misses named (Register.isNameText_text operandClass) misses

/-- A token that introduces an expression, with another token behind it. -/
theorem isReadAs_past_iff (taken : operand.Agree .anywhere (verbatim token))
    (opening : Introduces config.features token.kind) (here : cursor.peek? = some token)
    (inside : token.kind ≠ .endOfStatement) {text : String}
    (h : Leads config.features (.token text span) rest (cursor.advance 1) tokens more) :
    IsReadAs config first (operand :: .token text span :: rest) cursor ↔
      (delimiter? config.features token.kind ≠ none ∧ config.policy = .fallThrough ∧
        OperandExpr.Misses (cursor.advance 1)) ∧
        IsReadAs config false rest (cursor.advance 2) := by
  by_cases past : delimiter? config.features token.kind ≠ none ∧ config.policy = .fallThrough ∧
      OperandExpr.Misses (cursor.advance 1)
  · obtain ⟨delimiter, falls, misses⟩ := past
    obtain ⟨following, rfl, there, rfl, lexed, inside', comma, register⟩ := h.of_token
    have other : ¬following.kind.IsName accumulator := by
      rintro ⟨name, named, -⟩
      rw [named] at lexed
      exact h.not_misses named lexed misses
    have read : readItem config first token cursor =
        .ok ⟨[verbatim token, verbatim following], false⟩ (cursor.advance 2) := by
      rw [readItem_of_misses delimiter falls misses, readPastDelimiter_of_peek there inside',
        readBare_of_misses misses comma other register, Cursor.advance_advance]
    rw [isReadAs_cons_cons_iff here inside read, and_iff_right taken]
    exact and_congr (iff_of_true (.token _ trivial) ⟨delimiter, falls, misses⟩) Iff.rfl
  · refine iff_of_false (fun readAs => past ?_) (fun h => past h.1)
    obtain ⟨item, after, found, others, read, same, -, operands, agree⟩ :=
      readAs.exists_item here inside (comma_of_introduces opening)
    rcases readItem_of_introduces opening read with ⟨_, rfl, found⟩ | ⟨delimiter, falls, misses, -⟩
    · cases same
      obtain ⟨expr, rfl, -⟩ := read_of_readImmediate found
      cases agree with
      | cons head _ => cases head
    · exact ⟨delimiter, falls, misses⟩

theorem agree_token_iff {text text' : String} {span span' : Span} :
    (Operand.token text span).Agree .anywhere (.token text' span') ↔ text = text' := by
  constructor
  · intro agree
    cases agree
    rfl
  · rintro rfl
    exact .token text trivial

/-- A token where an expression is looked for. -/
theorem isReadAs_of_seeks_iff {text : String}
    (h : Leads config.features (.token text span) rest cursor [token] more)
    (seeks : Seeks config.features token.kind) :
    IsReadAs config true (.token text span :: rest) cursor ↔
      OperandExpr.Misses cursor ∧ IsReadAs config false rest (cursor.advance 1) := by
  obtain ⟨_, single, here, rfl, -, inside, -⟩ := h.of_token
  cases single
  by_cases misses : OperandExpr.Misses cursor
  · have read : readItem config true token cursor =
        .ok ⟨[verbatim token], false⟩ (cursor.advance 1) := by
      simp only [readItem, if_neg seeks.hash, seeks.delimiter,
        readBare_of_misses misses seeks.comma seeks.accumulator seeks.register]
    rw [isReadAs_cons_iff here inside read]
    exact and_congr (iff_of_true (.token _ trivial) misses) Iff.rfl
  · refine iff_of_false (fun readAs => misses ?_) (fun h => misses h.1)
    obtain ⟨item, after, found, others, read, same, agree, -⟩ :=
      readAs.exists_item here inside seeks.comma
    apply (misses_of_readItem seeks read).resolve_left
    rintro ⟨expr, span, same'⟩
    cases same.symm.trans same'
    cases agree

/-- A token that introduces no expression. -/
theorem isReadAs_verbatim_iff {text : String}
    (h : Leads config.features (.token text span) rest cursor [token] more)
    (other : ¬Introduces config.features token.kind) :
    IsReadAs config first (.token text span :: rest) cursor ↔
      (first → text = accumulator ∨ OperandExpr.Misses cursor) ∧
        IsReadAs config false rest (cursor.advance 1) := by
  obtain ⟨_, single, here, rfl, lexed, inside, comma, register⟩ := h.of_token
  cases single
  obtain ⟨hash, delimiter⟩ := not_or.1 other
  rw [not_not] at delimiter
  have taken : (Operand.token token.kind.text span).Agree .anywhere (verbatim token) :=
    .token _ trivial
  have bare : readItem config first token cursor =
      readBare config.features first token cursor := by
    simp only [readItem, if_neg hash, delimiter]
  cases first with
  | false =>
    have read : readItem config false token cursor =
        .ok ⟨[verbatim token], false⟩ (cursor.advance 1) := by
      simp only [bare, readBare, comma, register, Bool.false_eq_true, false_and, if_false]
    rw [isReadAs_cons_iff here inside read, and_iff_right taken]
    exact (and_iff_right (by simp)).symm
  | true =>
    by_cases name : token.kind.IsName accumulator
    · have read : readItem config true token cursor =
          .ok ⟨[.token accumulator token.span], false⟩ (cursor.advance 1) := by
        simp only [bare, readBare, comma, name, and_self, if_false, if_true]
      obtain ⟨spelling, named, -⟩ := name
      rw [named] at lexed
      have found := h.not_misses named lexed
      rw [isReadAs_cons_iff here inside read, agree_token_iff]
      simp only [found, or_false, forall_const]
    · have plain : token.kind.text ≠ accumulator := by
        intro same
        have letter : (TokenKind.name accumulator).IsLexed := ⟨'a', [], rfl, rfl, by simp⟩
        have named := TokenKind.eq_of_text_eq lexed letter inside (by simp) same
        exact name ⟨accumulator, named, .refl accumulator⟩
      rw [isReadAs_of_seeks_iff h ⟨hash, delimiter, comma, name, register⟩]
      simp only [plain, false_or, forall_const]

end

theorem opens_of_introduces {features : FeatureSet} {text : String} {span : Span}
    (h : text = "#" ∨ IsDelimiter features text) : opens (.token text span) := by
  rcases h with rfl | rfl | ⟨rfl, -⟩ <;> simp [opens, isToken, Text.SameIgnoringCase.refl]

/-- A token that introduces an expression, whatever is behind it. -/
theorem isReadAs_opening_iff {config : Config} {first : Bool} {text : String} {span : Span}
    {rest : List Operand} {cursor : Cursor} {token : Token} {more : List Token}
    (h : Leads config.features (.token text span) rest cursor [token] more)
    (opening : Introduces config.features token.kind)
    (ih : ∀ {operands : List Operand} {cursor : Cursor}, operands.length < rest.length →
      StandAt config.features operands cursor →
      (IsReadAs config false operands cursor ↔ ReadsBack config false operands)) :
    IsReadAs config first (.token text span :: rest) cursor ↔
      ReadsBack config first (.token text span :: rest) := by
  obtain ⟨_, single, here, rfl, lexed, inside, -⟩ := h.of_token
  cases single
  have delimits : delimiter? config.features token.kind ≠ none ↔
      IsDelimiter config.features token.kind.text := delimiter?_ne_none_iff lexed inside
  have spelled := (introduces_iff lexed inside).1 opening
  have taken : (Operand.token token.kind.text span).Agree .anywhere (verbatim token) :=
    .token _ trivial
  have behind : StandAt config.features rest (cursor.advance 1) :=
    h.standAt_of_opens (opens_of_introduces spelled)
  cases rest with
  | nil =>
    rw [isReadAs_last_iff taken opening here inside behind, delimits]
    constructor
    · rintro ⟨delimiter, falls⟩
      exact .last delimiter falls
    · intro back
      cases back with
      | last delimiter falls => exact ⟨delimiter, falls⟩
      | verbatim hash other => exact absurd spelled (not_or.2 ⟨hash, other⟩)
  | cons operand rest =>
    obtain ⟨tokens, more, h'⟩ := behind.leads
    have tail : IsReadAs config false rest (cursor.advance (1 + tokens.length)) ↔
        ReadsBack config false rest := by
      obtain ⟨cursor', stand, same⟩ := h'.exists_standAt
      rw [Cursor.advance_advance] at same
      exact (IsReadAs.of_same (same config false)).trans (ih (Nat.lt_succ_self _) stand)
    cases operand with
    | register found span =>
      refine iff_of_false (not_isReadAs_of_register opening here inside h') fun back => ?_
      cases back with
      | verbatim hash other => exact absurd spelled (not_or.2 ⟨hash, other⟩)
    | immediate expr span =>
      rw [isReadAs_introduced_iff taken opening here inside h', tail]
      constructor
      · rintro ⟨keeps, back⟩
        exact .introduced spelled keeps back
      · intro back
        cases back with
        | introduced _ keeps back => exact ⟨keeps, back⟩
        | verbatim hash other => exact absurd spelled (not_or.2 ⟨hash, other⟩)
    | token text span =>
      obtain ⟨_, rfl, -⟩ := h'.of_token
      rw [isReadAs_past_iff taken opening here inside h', ← startsNoExpression_iff behind, delimits]
      constructor
      · rintro ⟨⟨delimiter, falls, nothing⟩, back⟩
        exact .past delimiter falls nothing (tail.1 back)
      · intro back
        cases back with
        | past delimiter falls nothing back => exact ⟨⟨delimiter, falls, nothing⟩, tail.2 back⟩
        | verbatim hash other => exact absurd spelled (not_or.2 ⟨hash, other⟩)

/-- Operands are read from their own text exactly when `ReadsBack` holds. -/
theorem isReadAs_iff {config : Config} {first : Bool} {operands : List Operand} {cursor : Cursor}
    (stand : StandAt config.features operands cursor) :
    IsReadAs config first operands cursor ↔ ReadsBack config first operands := by
  induction left : operands.length using Nat.strongRecOn generalizing first operands cursor with
  | ind left' ih =>
    subst left
    cases operands with
    | nil => exact iff_of_true (isReadAs_of_atEndOfStatement stand.atEndOfStatement) .nil
    | cons operand rest =>
      obtain ⟨tokens, more, h⟩ := stand.leads
      have tail (first : Bool) : IsReadAs config first rest (cursor.advance tokens.length) ↔
          ReadsBack config first rest := by
        obtain ⟨cursor', stand', same⟩ := h.exists_standAt
        exact (IsReadAs.of_same (same config first)).trans (ih _ (Nat.lt_succ_self _) stand' rfl)
      cases operand with
      | register found span =>
        rw [isReadAs_register_iff h, tail]
        refine ⟨.register, fun back => ?_⟩
        cases back
        assumption
      | immediate expr span =>
        rw [isReadAs_immediate_iff h, tail]
        constructor
        · rintro ⟨⟨rfl, bare, keeps⟩, back⟩
          exact .bare bare keeps back
        · intro back
          cases back with
          | bare bare keeps tail => exact ⟨⟨rfl, bare, keeps⟩, tail⟩
      | token text span =>
        obtain ⟨token, rfl, -, rfl, lexed, inside, -⟩ := h.of_token
        have spelled : Introduces config.features token.kind ↔
            token.kind.text = "#" ∨ IsDelimiter config.features token.kind.text :=
          introduces_iff lexed inside
        by_cases opening : Introduces config.features token.kind
        · exact isReadAs_opening_iff h opening fun shorter stand =>
            ih _ (Nat.lt_succ_of_lt shorter) stand rfl
        · rw [isReadAs_verbatim_iff h opening, ← startsNoExpression_iff stand]
          constructor
          · rintro ⟨nothing, back⟩
            rw [spelled, not_or] at opening
            exact .verbatim opening.1 opening.2 nothing ((tail false).1 back)
          · intro back
            cases back with
            | introduced introduces => exact absurd (spelled.2 introduces) opening
            | last delimiter | past delimiter =>
              exact absurd (spelled.2 (.inr delimiter)) opening
            | verbatim _ _ nothing back => exact ⟨nothing, (tail false).2 back⟩

end Operand

end Asm65
