import Asm65.Proofs.LetterCase.OperandExpr

/-!
# Operand lists in lower case

The operands read from tokens in lower case are those read from the tokens, in
lower case, if no character is quoted. A token taken as it is may be a quoted
character, whose text lower case does not come through.
-/

namespace Asm65

/-- Whether no token from a place on is a quoted character. -/
def Cursor.Unquoted (cursor : Cursor) : Prop :=
  ∀ token ∈ cursor.rest, ∀ c, token.kind ≠ .char c

namespace Cursor

variable {cursor : Cursor}

theorem Unquoted.later {least : Nat} {now : Cursor} (h : cursor.Unquoted)
    (later : LaterBy least cursor now) : now.Unquoted :=
  fun token among => h token (later.subset among)

theorem Unquoted.peek {token : Token} (h : cursor.Unquoted) (here : cursor.peek? = some token) :
    ∀ c, token.kind ≠ .char c :=
  h token (List.mem_of_mem_head? here)

theorem atEndOfStatement_toLower_iff :
    cursor.toLower.AtEndOfStatement ↔ cursor.AtEndOfStatement := by
  simp only [AtEndOfStatement, peek?_toLower]
  cases cursor.peek? with
  | none => simp
  | some token => simp [TokenKind.toLower_eq_endOfStatement_iff]

end Cursor

theorem Cause.isExpectation_toLower (cause : Cause) :
    cause.toLower.isExpectation = cause.isExpectation := by
  cases cause <;> rfl

theorem Diagnostic.expecting_toLower (what : Expected) (diagnostic : Diagnostic) :
    diagnostic.toLower.expecting what = (diagnostic.expecting what).toLower := by
  simp only [expecting, toLower, Cause.isExpectation_toLower]
  split <;> rfl

theorem Register.ofName?_toLower (features : FeatureSet) (name : String) :
    ofName? features name.toLower = ofName? features name := by
  simp only [ofName?, Text.toLower_toLower]

namespace Operand

theorem registerOf?_toLower (features : FeatureSet) (kind : TokenKind) :
    registerOf? features kind.toLower = registerOf? features kind := by
  simp only [registerOf?, TokenKind.name?_toLower]
  cases kind.name? with
  | none => rfl
  | some name => simp only [Option.map_some, Option.bind_some, Register.ofName?_toLower]

theorem delimiter?_toLower (features : FeatureSet) (kind : TokenKind) :
    delimiter? features kind.toLower = delimiter? features kind := by
  cases kind <;> rfl

theorem verbatim_toLower {token : Token} (h : ∀ c, token.kind ≠ .char c) :
    verbatim token.toLower = (verbatim token).toLower :=
  congrArg (Operand.token · token.span) (TokenKind.text_toLower h)

theorem lowers_readImmediate : Reader.Lowers toLower readImmediate readImmediate := by
  intro cursor
  unfold readImmediate
  rw [OperandExpr.lowers_read cursor]
  cases OperandExpr.read cursor with
  | ok expr after => simp only [Reader.lower, Cursor.spanSince_toLower, toLower]
  | error diagnostic after => rfl

/-- The operands read at one place in lower case. -/
def Item.toLower (item : Item) : Item :=
  ⟨item.operands.map Operand.toLower, item.first⟩

section Item

variable {token : Token} {cursor : Cursor}

theorem readBare_toLower (features : FeatureSet) (first : Bool) (h : ∀ c, token.kind ≠ .char c)
    (cursor : Cursor) : readBare features first token.toLower cursor.toLower =
      Reader.lower Item.toLower (readBare features first token cursor) := by
  have letter : accumulator.toLower = accumulator := by decide +kernel
  simp only [readBare, Token.kind_toLower, Token.span_toLower, TokenKind.toLower_eq_punct_iff,
    TokenKind.isName_toLower_iff, registerOf?_toLower, lowers_readImmediate cursor,
    verbatim_toLower h, Cursor.advance_toLower]
  split
  · rfl
  split
  · simp only [Reader.lower, Item.toLower, List.map_cons, List.map_nil, toLower, letter]
  split
  · rfl
  split
  · cases readImmediate cursor with
    | ok operand after => rfl
    | error diagnostic after =>
      simp only [Reader.lower, Diagnostic.toLower, Cause.isExpectation_toLower]
      split <;> rfl
  · rfl

theorem readHash_toLower (h : ∀ c, token.kind ≠ .char c) (cursor : Cursor) :
    readHash token.toLower cursor.toLower =
      Reader.lower Item.toLower (readHash token cursor) := by
  simp only [readHash, verbatim_toLower h, Cursor.advance_toLower, lowers_readImmediate _]
  cases readImmediate (cursor.advance 1) with
  | ok operand after => rfl
  | error diagnostic after => simp only [Reader.lower, Diagnostic.expecting_toLower]

theorem readPastDelimiter_toLower (features : FeatureSet) (first : Bool)
    (h : ∀ c, token.kind ≠ .char c) (unquoted : cursor.Unquoted) :
    readPastDelimiter features first token.toLower cursor.toLower =
      Reader.lower Item.toLower (readPastDelimiter features first token cursor) := by
  simp only [readPastDelimiter, Cursor.peek?_toLower, verbatim_toLower h]
  cases here : cursor.peek? with
  | none => rfl
  | some following =>
    simp only [Option.map_some, Token.kind_toLower, TokenKind.toLower_eq_endOfStatement_iff,
      readBare_toLower features first (unquoted.peek here)]
    split
    · rfl
    · cases readBare features first following cursor <;> rfl

theorem readDelimited_toLower (config : Config) (what : Expected) (first : Bool)
    (unquoted : cursor.Unquoted) (here : cursor.peek? = some token) :
    readDelimited config what first token.toLower cursor.toLower =
      Reader.lower Item.toLower (readDelimited config what first token cursor) := by
  have plain := unquoted.peek here
  have behind := unquoted.later (Cursor.laterBy_advance_one here)
  simp only [readDelimited, verbatim_toLower plain, Cursor.advance_toLower,
    lowers_readImmediate _, readPastDelimiter_toLower config.features first plain behind]
  cases readImmediate (cursor.advance 1) with
  | ok operand after => rfl
  | error diagnostic after =>
    simp only [Reader.lower, Diagnostic.expecting_toLower]
    simp only [Diagnostic.toLower, Cause.isExpectation_toLower]
    split <;> rfl

theorem readItem_toLower (config : Config) (first : Bool) (unquoted : cursor.Unquoted)
    (here : cursor.peek? = some token) :
    readItem config first token.toLower cursor.toLower =
      Reader.lower Item.toLower (readItem config first token cursor) := by
  have plain := unquoted.peek here
  simp only [readItem, Token.kind_toLower, TokenKind.toLower_eq_punct_iff, delimiter?_toLower]
  split
  · exact readHash_toLower plain cursor
  · split
    · next what _ => exact readDelimited_toLower config what first unquoted here
    · exact readBare_toLower config.features first plain cursor

end Item

theorem readItems_toLower (config : Config) (first : Bool) {cursor : Cursor}
    (h : cursor.Unquoted) : readItems config first cursor.toLower =
      Reader.lower (List.map toLower) (readItems config first cursor) := by
  induction left : cursor.rest.length using Nat.strongRecOn generalizing first cursor with
  | ind left' ih =>
    subst left
    by_cases ended : cursor.AtEndOfStatement
    · rw [readItems_of_end config first ended,
        readItems_of_end config first (Cursor.atEndOfStatement_toLower_iff.2 ended)]
      rfl
    · obtain ⟨token, here, inside⟩ := Cursor.exists_peek_of_inside ended
      have here' : cursor.toLower.peek? = some token.toLower := by
        rw [Cursor.peek?_toLower, here, Option.map_some]
      have inside' := mt TokenKind.toLower_eq_endOfStatement_iff.1 inside
      have item' := readItem_toLower config first h here
      cases read : readItem config first token cursor with
      | ok item after =>
        have passed := readItem_passed config first here
        rw [read] at item' passed
        have rest := ih _ (readItem_shorter here read) item.first (h.later passed) rfl
        rw [readItems_of_ok here inside read, readItems_of_ok here' inside' item']
        simp only [Item.toLower, rest]
        cases readItems config item.first after with
        | ok operands stop => simp only [Reader.lower, List.map_append]
        | error diagnostic stop => rfl
      | error diagnostic after =>
        rw [read] at item'
        rw [readItems_of_error here inside read, readItems_of_error here' inside' item']
        rfl

theorem readLine_toLower (config : Config) (mnemonic : Token) {cursor : Cursor}
    (h : cursor.Unquoted) : readLine config mnemonic.toLower cursor.toLower =
      Reader.lower (List.map toLower) (readLine config mnemonic cursor) := by
  simp only [readLine, Token.kind_toLower, TokenKind.name?_toLower, readItems_toLower config true h]
  cases mnemonic.kind.name? with
  | none => rfl
  | some name => cases readItems config true cursor <;> rfl

end Operand

end Asm65
