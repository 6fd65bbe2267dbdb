import Asm65.Proofs.ReadBack.Items

/-!
# Reading with other features

Features change the reading of operands in one place: an opening bracket is a
delimiter on the long chips only. Elsewhere it is taken as it is, and then no
expression follows it (`Unbracketed`). So operands without a bracket are read
the same with more features (`readItems_of_subset`).
-/

namespace Asm65

theorem Register.not_isOperandClass_of_imaginary? {name : List Char} {found : Register}
    (h : imaginary? name = some found) : found.isOperandClass = false := by
  unfold imaginary? at h
  split at h
  · obtain ⟨number, -, rfl⟩ := Option.map_eq_some_iff.1 h
    rfl
  · obtain ⟨number, -, rfl⟩ := Option.map_eq_some_iff.1 h
    rfl
  · cases h

namespace Operand

/-- Features decide about the short names of imaginary registers only, which are no operands. -/
theorem registerOf?_features (features features' : FeatureSet) (kind : TokenKind) :
    registerOf? features kind = registerOf? features' kind := by
  have imaginary (name : List Char) :
      (Register.imaginary? name).filter Register.isOperandClass = none := by
    cases found : Register.imaginary? name with
    | none => rfl
    | some register =>
      exact Option.filter_some_neg (by simp [Register.not_isOperandClass_of_imaginary? found])
  unfold registerOf?
  cases kind.name? with
  | none => rfl
  | some name =>
    simp only [Option.bind_some, Register.ofName?]
    split
    · rfl
    · split <;> split <;> simp [imaginary]

theorem readBare_features (features features' : FeatureSet) (first : Bool) (token : Token) :
    readBare features first token = readBare features' first token := by
  unfold readBare
  rw [registerOf?_features features features']

/-- A bracket is the one token that features make a delimiter of. -/
theorem delimiter?_features {features features' : FeatureSet} {kind : TokenKind}
    (h : kind = .punct .openBracket → (.mosw65816 ∈ features ↔ .mosw65816 ∈ features')) :
    delimiter? features kind = delimiter? features' kind := by
  unfold delimiter?
  split
  · rfl
  · simp only [h rfl]
  · rfl

variable {features features' : FeatureSet} {policy : DelimiterPolicy}
  {first : Bool} {token : Token} {cursor after : Cursor} {item : Item} {operands : List Operand}

theorem readItem_features (h : delimiter? features token.kind = delimiter? features' token.kind) :
    readItem ⟨features, policy⟩ first token cursor =
      readItem ⟨features', policy⟩ first token cursor := by
  unfold readItem readDelimited readPastDelimiter
  simp only [h, readBare_features features features']

/-- No expression starts with a bracket. -/
theorem misses_of_bracket (here : cursor.peek? = some token)
    (bracket : token.kind = .punct .openBracket) : OperandExpr.Misses cursor := by
  obtain ⟨position, tokens, stop⟩ := cursor
  obtain ⟨kind, span⟩ := token
  cases bracket
  cases tokens with
  | nil => cases here
  | cons head tail =>
    cases here
    exact ⟨_, _, rfl, rfl⟩

/-- Without the long chips a bracket is taken as it is. -/
theorem readItem_bracket (disabled : .mosw65816 ∉ features)
    (here : cursor.peek? = some token) (bracket : token.kind = .punct .openBracket) :
    readItem ⟨features, policy⟩ first token cursor =
      .ok ⟨[verbatim token], false⟩ (cursor.advance 1) := by
  have comma : token.kind ≠ .punct .comma := by simp [bracket]
  have other : ¬token.kind.IsName accumulator := by simp [bracket, TokenKind.IsName]
  have register : registerOf? features token.kind = none := by
    rw [bracket]
    rfl
  have bare : readBare features first token cursor =
      .ok ⟨[verbatim token], false⟩ (cursor.advance 1) :=
    readBare_of_misses (misses_of_bracket here bracket) comma other register
  have delimiter : delimiter? features token.kind = none := by
    rw [bracket]
    exact if_neg disabled
  rw [← bare, readItem, if_neg (by simp [bracket]), delimiter]

/-- Operands without a bracket are read the same with more features. -/
theorem readItems_of_subset (enabled : features ⊆ features')
    (read : readItems ⟨features, policy⟩ first cursor = .ok operands after)
    (plain : .mosw65816 ∈ features ∨ ∀ operand ∈ operands, ¬operand.isToken "[") :
    readItems ⟨features', policy⟩ first cursor = .ok operands after := by
  fun_induction readItems ⟨features, policy⟩ first cursor generalizing operands with
  | case1 first cursor missing =>
    cases read
    exact readItems_of_end _ first (by simp [Cursor.AtEndOfStatement, missing])
  | case2 first cursor current here closed =>
    cases read
    exact readItems_of_end _ first (by simp [Cursor.AtEndOfStatement, here, closed])
  | case3 first cursor current here inside item between found rest stop later ih =>
    cases read
    have same : delimiter? features current.kind = delimiter? features' current.kind := by
      apply delimiter?_features
      intro bracket
      by_cases long : .mosw65816 ∈ features
      · exact iff_of_true long (FeatureSet.mem_of_subset enabled long)
      · cases found.symm.trans (readItem_bracket long here bracket)
        have plain := plain.resolve_left long (verbatim current) List.mem_cons_self
        rw [verbatim, bracket] at plain
        exact absurd (decide_eq_true (.refl "[")) plain
    have found' := (readItem_features same).symm.trans found
    have plain' := plain.imp_right fun plain operand among =>
      plain operand (List.mem_append_right item.operands among)
    rw [readItems_of_ok here inside found', ih later plain']
  | case4 => cases read
  | case5 => cases read

/-- Whether an operand is an expression. -/
def isImmediate : Operand → Bool
  | immediate _ _ => true
  | _ => false

/-- Operands in which no expression stands behind an opening bracket. -/
def Unbracketed (operands : List Operand) : Prop :=
  operands.IsChain fun operand next => operand.isToken "[" → ¬next.isImmediate

/-- What an item leaves to be read: an expression comes next only where none came before, and
not behind a bracket. -/
structure Item.Unbracketed (first : Bool) (item : Item) : Prop where
  inside : Operand.Unbracketed item.operands
  start : first = false → item.first = false ∧ ∀ head ∈ item.operands.head?, ¬head.isImmediate
  stop : ∀ last ∈ item.operands.getLast?, last.isToken "[" → item.first = false

theorem readBare_unbracketed {features : FeatureSet}
    (read : readBare features first token cursor = .ok item after) :
    item.Unbracketed first := by
  unfold readBare at read
  split at read
  · cases read
    exact ⟨.nil, fun later => ⟨later, by simp⟩, by simp⟩
  split at read
  · cases read
    exact ⟨.singleton _, fun _ => ⟨rfl, by simp [isImmediate]⟩, fun _ _ _ => rfl⟩
  split at read
  · cases read
    exact ⟨.singleton _, fun later => ⟨later, by simp [isImmediate]⟩, by simp [isToken]⟩
  split at read
  · next early =>
    have early {goal : Prop} (later : first = false) : goal := by simp [early] at later
    split at read
    · cases read
      exact ⟨.singleton _, early, fun _ _ _ => rfl⟩
    · split at read
      · cases read
        exact ⟨.singleton _, early, fun _ _ _ => rfl⟩
      · cases read
  · cases read
    exact ⟨.singleton _, fun _ => ⟨rfl, by simp [verbatim, isImmediate]⟩, fun _ _ _ => rfl⟩

/-- Without the long chips, only `#` and `(` introduce an expression. -/
theorem not_bracket_of_introduces (disabled : .mosw65816 ∉ features)
    (opening : Introduces features token.kind) : ¬(verbatim token).isToken "[" := by
  intro bracket
  have same : Text.SameIgnoringCase token.kind.text "[" := of_decide_eq_true bracket
  have hash : ¬Text.SameIgnoringCase (TokenKind.punct .hash).text "[" := by decide +kernel
  have paren : ¬Text.SameIgnoringCase (TokenKind.punct .openParen).text "[" := by decide +kernel
  rcases opening with kind | delimiter
  · exact hash (kind ▸ same)
  · unfold delimiter? at delimiter
    split at delimiter
    · next kind => exact paren (kind ▸ same)
    · exact delimiter (if_neg disabled)
    · exact delimiter rfl

theorem Item.Unbracketed.cons {operand : Operand} (h : item.Unbracketed first)
    (apart : ¬operand.isToken "[") (plain : ¬operand.isImmediate) :
    Item.Unbracketed first ⟨operand :: item.operands, item.first⟩ := by
  refine ⟨List.isChain_cons.2 ⟨fun _ _ bracket => absurd bracket apart, h.inside⟩,
    fun later => ⟨(h.start later).1, by simpa using plain⟩, fun last among bracket => ?_⟩
  cases others : item.operands with
  | nil =>
    rw [others] at among
    cases among
    exact absurd bracket apart
  | cons second rest =>
    apply h.stop last ?_ bracket
    rw [others, List.getLast?_cons_cons] at among
    rwa [others]

theorem readPastDelimiter_unbracketed (apart : ¬(verbatim token).isToken "[")
    (read : readPastDelimiter features first token cursor = .ok item after) :
    item.Unbracketed first := by
  have plain : ¬(verbatim token).isImmediate := nofun
  have nothing : Item.Unbracketed first ⟨[], first⟩ :=
    ⟨.nil, fun later => ⟨later, by simp⟩, by simp⟩
  unfold readPastDelimiter at read
  split at read
  · cases read
    exact nothing.cons apart plain
  split at read
  · cases read
    exact nothing.cons apart plain
  split at read
  · next bare =>
    cases read
    exact (readBare_unbracketed bare).cons apart plain
  · cases read

theorem readItem_unbracketed (disabled : .mosw65816 ∉ features)
    (read : readItem ⟨features, policy⟩ first token cursor = .ok item after) :
    item.Unbracketed first := by
  by_cases opening : Introduces features token.kind
  · have apart := not_bracket_of_introduces disabled opening
    rcases readItem_of_introduces (by exact opening) read with ⟨found, rfl, -⟩ | ⟨-, -, -, past⟩
    · refine ⟨.cons_cons (fun bracket => absurd bracket apart) (.singleton found), fun _ => ?_,
        fun _ _ _ => rfl⟩
      exact ⟨rfl, by simp [verbatim, isImmediate]⟩
    · exact readPastDelimiter_unbracketed apart past
  · obtain ⟨hash, delimiter⟩ := not_or.1 opening
    rw [not_not] at delimiter
    simp only [readItem, if_neg hash, delimiter] at read
    exact readBare_unbracketed read

/-- Without the long chips, no expression is read behind a bracket. -/
theorem readItems_unbracketed (disabled : .mosw65816 ∉ features)
    (read : readItems ⟨features, policy⟩ first cursor = .ok operands after) :
    Unbracketed operands ∧ (first = false → ∀ head ∈ operands.head?, ¬head.isImmediate) := by
  fun_induction readItems ⟨features, policy⟩ first cursor generalizing operands with
  | case1 | case2 =>
    cases read
    exact ⟨.nil, by simp⟩
  | case3 first cursor current here inside item between found rest stop later ih =>
    cases read
    have own := readItem_unbracketed disabled found
    obtain ⟨behind, start⟩ := ih later
    refine ⟨List.isChain_append.2 ⟨own.inside, behind, fun last among next starts bracket => ?_⟩,
      fun early head among => ?_⟩
    · exact start (own.stop last among bracket) next starts
    · obtain ⟨now, inside⟩ := own.start early
      cases operands : item.operands with
      | nil =>
        rw [operands] at among
        exact start now head among
      | cons operand others =>
        rw [operands] at among inside
        exact inside head among
  | case4 => cases read
  | case5 => cases read

end Operand

end Asm65
