import Asm65.Proofs.BinaryLiterals.Lexer
import Asm65.Proofs.Lines
import Asm65.Proofs.OperandGrammar

/-!
# Binary literals in operands

A binary literal with a mark of two characters may be written with `%` without
changing the operand expression that is read (`OperandExpr.read_percent`). The only
exception is a literal right behind the word that asks for the stub of a modifier.
That word is a name, which the lexer takes for the end of an operand, so `%` is the
remainder operator there, and no expression is found.

## Implementation notes

The lexer knows nothing of the grammar. Its mode is followed over what the grammar
derives: an operand is expected before each operand, and has ended behind it
(`Grammar.Derives.isOperand`).
-/

namespace Asm65

open Grammar

namespace Token

variable {mode : Mode} {kinds kinds' front back : List TokenKind} {kind : TokenKind}
  {numeral : String}

theorem numeralsExpected_append : NumeralsExpected mode (kinds ++ kinds') ↔
    NumeralsExpected mode kinds ∧ NumeralsExpected (kinds.foldl Mode.next mode) kinds' := by
  induction kinds generalizing mode with
  | nil => simp [numeralsExpected_nil]
  | cons kind kinds ih =>
    simp only [List.cons_append, numeralsExpected_cons_iff, ih, List.foldl_cons, and_assoc]

theorem numeralsExpected_punct {p : Punct} : NumeralsExpected mode (.punct p :: kinds) ↔
    NumeralsExpected (mode.next (.punct p)) kinds := by
  simp [numeralsExpected_cons_iff]

theorem numeralsExpected_name {text : String} : NumeralsExpected mode (.name text :: kinds) ↔
    NumeralsExpected (mode.next (.name text)) kinds := by
  simp [numeralsExpected_cons_iff]

/-- Parentheses let an operand be expected, wherever they stand. -/
theorem numeralsExpected_grouped (h : NumeralsExpected .operandExpected kinds) (mode : Mode) :
    NumeralsExpected mode (OperandExpr.grouped kinds) := by
  have opened : mode.next (.punct .openParen) = .operandExpected := by cases mode <;> rfl
  rw [OperandExpr.grouped, List.cons_append, numeralsExpected_punct, opened,
    numeralsExpected_append, numeralsExpected_punct]
  exact ⟨h, numeralsExpected_nil _⟩

/-- Behind the end of an operand, only a first numeral would be unexpected. -/
theorem NumeralsExpected.eq_nil (h : NumeralsExpected .operandExpected kinds)
    (split : kinds = front ++ .number .binary numeral :: back)
    (ended : front.foldl Mode.next .operandEnded = .operandEnded) : front = [] := by
  cases front with
  | nil => rfl
  | cons kind front =>
    have same : Mode.next .operandEnded kind = Mode.next .operandExpected kind := by
      cases kind with
      | punct p => cases p <;> rfl
      | _ => rfl
    rw [List.foldl_cons, same, ← List.foldl_cons] at ended
    exact absurd ended (h _ _ _ split)

/-- Inside a statement, a name ends an operand. -/
theorem mode_of_name {text : String} (inside : ∀ kind ∈ kinds, kind ≠ .endOfStatement ∧
      kind ≠ .punct .colon) (last : kinds.getLast? = some (.name text)) :
    kinds.foldl Mode.next .operandExpected = .operandEnded := by
  obtain ⟨before, rfl⟩ := List.getLast?_eq_some_iff.1 last
  have within : before.foldl Mode.next .operandExpected ≠ .statementStart := by
    rcases List.eq_nil_or_concat before with rfl | ⟨others, kind, rfl⟩
    · nofun
    · rw [List.concat_eq_append, List.foldl_concat, Ne, next_eq_statementStart_iff, not_or]
      exact inside kind (by simp)
  rw [List.foldl_concat]
  revert within
  cases before.foldl Mode.next .operandExpected with
  | statementStart => exact fun within => absurd rfl within
  | operandExpected | operandEnded => exact fun _ => rfl

/-- Tokens that the lexer takes for an operand. -/
structure IsOperand (kinds : List TokenKind) : Prop where
  ended : kinds.foldl Mode.next .operandExpected = .operandEnded
  numerals : NumeralsExpected .operandExpected kinds

end Token

open Token (Mode NumeralsExpected IsOperand percentKinds)

/-- The next tokens but some. -/
theorem Cursor.starts_advance {cursor : Cursor} {kinds kinds' : List TokenKind}
    (h : cursor.Starts (kinds ++ kinds')) : (cursor.advance kinds.length).Starts kinds' := by
  obtain ⟨more, whole⟩ := h
  refine ⟨more, ?_⟩
  rw [Cursor.advance, List.map_drop, ← whole, List.append_assoc, List.drop_left]

theorem Cursor.exists_peek_of_starts {cursor : Cursor} {kind : TokenKind} {kinds : List TokenKind}
    (h : cursor.Starts (kind :: kinds)) :
    ∃ token ∈ cursor.peek?, token.kind = kind ∧ cursor.span = token.span := by
  obtain ⟨span, rest, here, -⟩ := prefix_kinds_iff.1 h
  have peek : cursor.peek? = some ⟨kind, span⟩ := by
    rw [Cursor.peek?, here]
    rfl
  exact ⟨_, peek, rfl, by rw [Cursor.span, peek]⟩

/-- What the grammar derives is an operand for the lexer. -/
theorem Grammar.Derives.isOperand {level : Nat} {kinds : List TokenKind} {expr : Expr}
    (h : Derives level kinds expr) : IsOperand kinds := by
  induction h with
  | @binary _ op _ _ _ _ _ _ _ first second =>
    have between : Mode.next .operandEnded (.punct op.punct) = .operandExpected := by
      cases op <;> rfl
    constructor
    · rw [List.foldl_append, first.ended, List.foldl_cons, between, second.ended]
    · rw [Token.numeralsExpected_append, first.ended, Token.numeralsExpected_punct, between]
      exact ⟨first.numerals, second.numerals⟩
  | unary op _ ih =>
    have before : Mode.next .operandExpected (.punct op.punct) = .operandExpected := by
      cases op <;> rfl
    constructor
    · rw [List.foldl_cons, before, ih.ended]
    · rw [Token.numeralsExpected_punct, before]
      exact ih.numerals
  | @literal kind _ known =>
    have operand : Mode.next .operandExpected kind = .operandEnded := by
      cases kind with
      | number | char => rfl
      | endOfStatement | name | punct | unknown => cases known
    refine ⟨operand, Token.numeralsExpected_cons_iff.2 ⟨fun _ _ => nofun, ?_⟩⟩
    exact Token.numeralsExpected_nil _
  | symbol name =>
    exact ⟨rfl, Token.numeralsExpected_name.2 (Token.numeralsExpected_nil _)⟩
  | group _ ih =>
    refine ⟨?_, Token.numeralsExpected_grouped ih.numerals _⟩
    rw [List.cons_append, List.foldl_cons, List.foldl_concat]
    exact congrArg (Mode.next · (.punct .closeParen)) ih.ended
  | tighter _ ih => exact ih

namespace OperandExpr

variable {cursor cursor' now : Cursor} {kinds front back : List TokenKind} {inner : Expr}
  {expr : OperandExpr} {numeral : String}

theorem Inside.numeralsExpected (h : Inside kinds inner) :
    NumeralsExpected .operandExpected kinds := by
  obtain ⟨value, derived⟩ := h.exists_derives
  exact derived.isOperand.numerals

theorem Sign.mode {signs : List TokenKind} {negated : Bool} (h : Sign signs negated) :
    signs.foldl Mode.next .operandExpected = .operandExpected := by
  cases h <;> rfl

theorem Sign.numeralsExpected {signs : List TokenKind} {negated : Bool} (h : Sign signs negated) :
    NumeralsExpected .operandExpected signs := by
  cases h with
  | missing => exact Token.numeralsExpected_nil _
  | plus | minus => exact Token.numeralsExpected_punct.2 (Token.numeralsExpected_nil _)

/-- The tokens of a named modifier up to the word that asks for its stub. -/
inductive AsksFirst : List TokenKind → Prop
  | mk {signs : List TokenKind} {negated : Bool} {name word : String} {kind stub : Modifier}
      (sign : Sign signs negated) (known : Modifier.ofName? name = some kind)
      (has : Modifier.stub? name = some stub)
      (asks : Text.SameIgnoringCase word Modifier.stubWord) :
      AsksFirst (signs ++ [TokenKind.name name, .punct .openParen, .name word])

/-- In an operand expression, an operand has ended before a binary numeral only behind the word that
asks for a stub. -/
theorem Spelled.asksFirst (h : Spelled kinds expr)
    (split : kinds = front ++ TokenKind.number .binary numeral :: back)
    (ended : front.foldl Mode.next .operandExpected = .operandEnded) : AsksFirst front := by
  cases h with
  | plain h => exact absurd ended (h.isOperand.numerals _ _ _ split)
  | @half p _ _ _ half h =>
    have expected : Mode.next .operandExpected (.punct p) = .operandExpected := by
      cases half <;> rfl
    have numerals := Token.numeralsExpected_punct.2 (expected ▸ h.isOperand.numerals)
    exact absurd ended (numerals _ _ _ split)
  | @named signs inside _ name _ _ sign _ h =>
    have numerals :
        NumeralsExpected .operandExpected (signs ++ TokenKind.name name :: grouped inside) := by
      rw [Token.numeralsExpected_append, Token.numeralsExpected_name]
      exact ⟨sign.numeralsExpected, Token.numeralsExpected_grouped h.numeralsExpected _⟩
    exact absurd ended (numerals _ _ _ split)
  | @stub signs inside negated name word kind stub _ sign known has asks h =>
    have whole : (signs ++ [TokenKind.name name, .punct .openParen, .name word]) ++
        (inside ++ [TokenKind.punct .closeParen]) =
          front ++ TokenKind.number .binary numeral :: back := by
      rw [← split]
      simp [grouped]
    rcases append_eq_append_cons whole with ⟨others, first⟩ | ⟨before, rfl, behind⟩
    · have among : TokenKind.number .binary numeral ∈
          signs ++ [TokenKind.name name, .punct .openParen, .name word] := by simp [first]
      cases sign <;> simp at among
    rcases append_eq_append_cons behind with ⟨others, inner⟩ | ⟨between, -, last⟩
    · rw [List.foldl_append, List.foldl_append, sign.mode] at ended
      obtain rfl := h.numeralsExpected.eq_nil inner ended
      rw [List.append_nil]
      exact .mk sign known has asks
    · cases between <;> simp at last

/-- No expression starts with the remainder operator. -/
theorem readInner_of_percent (starts : cursor.Starts [.punct .percent]) :
    readInner cursor = .error ⟨.expected .expression, cursor.span⟩ cursor := by
  have unsigned (p : Punct) (apart : p ≠ .percent) :
      ¬cursor.Starts [.punct p, .punct .openParen] := by
    intro signed
    exact apart (TokenKind.punct.inj (Cursor.kind_eq_of_starts signed starts))
  rw [readInner_of_unsigned (unsigned .dash (by decide)) (unsigned .plus (by decide))]
  obtain ⟨position, rest, stop⟩ := cursor
  obtain ⟨span, more, rfl, -⟩ := prefix_kinds_iff.1 starts
  rfl

/-- Behind the word that asks for a stub, it is not passed. -/
theorem read_of_asksFirst (asked : AsksFirst kinds)
    (starts : cursor.Starts (kinds ++ [TokenKind.punct .percent])) :
    ∃ percent ∈ (cursor.advance kinds.length).peek?, percent.kind = .punct .percent ∧
      read cursor = .error ⟨.expected .expression, percent.span⟩ (cursor.advance kinds.length) := by
  have behind := Cursor.starts_advance starts
  obtain ⟨percent, here, isPercent, span⟩ := Cursor.exists_peek_of_starts behind
  refine ⟨percent, here, isPercent, ?_⟩
  rw [← span]
  obtain @⟨signs, negated, name, word, kind, stub, sign, known, has, asks⟩ := asked
  have modifier : cursor.Starts ((signs ++ [TokenKind.name name, .punct .openParen]) ++
      [.name word, .punct .percent]) := by simpa using starts
  have length : (signs ++ [TokenKind.name name, .punct .openParen]).length = signs.length + 2 :=
    List.length_append
  have argument := Cursor.starts_advance modifier
  rw [length] at argument
  have asks' : AsksForStub name stub (cursor.advance (signs.length + 2)) :=
    ⟨has, word, asks, (List.prefix_append [TokenKind.name word] _).trans argument⟩
  have length' : (signs ++ [TokenKind.name name, .punct .openParen, .name word]).length =
      signs.length + 2 + 1 := List.length_append
  rw [length', ← Cursor.advance_advance] at behind ⊢
  rw [read_of_modifier known sign ((List.prefix_append _ _).trans modifier), readArgument,
    Reader.bind_of_ok (readStub_of_asksForStub asks')]
  exact Reader.bind_eq_error_iff.2 (.inl (readInner_of_percent behind))

/-- An operand expression at the end of a statement is read wherever the same statement stands. -/
theorem read_of_statement {more more' : List TokenKind}
    (inside : ∀ kind ∈ kinds, kind ≠ .endOfStatement)
    (here : cursor.rest.map Token.kind = kinds ++ TokenKind.endOfStatement :: more)
    (there : cursor'.rest.map Token.kind = kinds ++ TokenKind.endOfStatement :: more')
    (found : read cursor = .ok expr now) (ended : now.AtEndOfStatement) :
    ∃ now', read cursor' = .ok expr now' ∧ now'.AtEndOfStatement := by
  rw [List.append_cons] at here there
  obtain ⟨line, behind, whole, own, -⟩ := List.map_eq_append_iff.1 here
  obtain ⟨line', behind', whole', own', -⟩ := List.map_eq_append_iff.1 there
  have aligned := (Line.of_kinds inside own).aligned_of_kinds (own.trans own'.symm) whole whole'
  have results := respects_read aligned
  rw [found] at results
  revert results
  generalize read cursor' = result
  rintro (@⟨_, _, _, now', rfl, aligned⟩ | _)
  exact ⟨now', rfl, aligned.atEndOfStatement_iff.1 ended⟩

theorem Spelled.statement (h : Spelled kinds expr) :
    ∀ kind ∈ kinds, kind ≠ .endOfStatement ∧ kind ≠ .punct .colon := by
  cases h with
  | plain h => exact fun kind => h.statement_of_mem
  | half half h =>
    refine List.forall_mem_cons.2 ⟨⟨nofun, ?_⟩, fun kind => h.statement_of_mem⟩
    cases half <;> nofun
  | named sign _ h | stub sign _ _ _ h =>
    obtain ⟨value, derived⟩ := h.exists_derives
    simp only [grouped, List.cons_append, List.forall_mem_append, List.forall_mem_cons,
      List.not_mem_nil, IsEmpty.forall_iff, implies_true, ne_eq, reduceCtorEq, not_false_eq_true,
      and_self, true_and, and_true, TokenKind.punct.injEq]
    exact ⟨by cases sign <;> simp, fun kind => derived.statement_of_mem⟩

/-- What is read up to the end of a statement, and the token there. -/
theorem exists_spelled_of_ended (found : read cursor = .ok expr now) (ended : now.AtEndOfStatement)
    (line : Token.EndsStatement cursor.rest) :
    ∃ own more, Spelled own expr ∧ now = cursor.advance own.length ∧
      cursor.rest.map Token.kind = own ++ TokenKind.endOfStatement :: more := by
  obtain ⟨tokens, whole, spelled⟩ := exists_spelled_of_read found
  obtain ⟨count, -, bound, rfl⟩ := passes_read.of_ok found
  have length := congrArg List.length whole
  rw [Cursor.advance, List.length_append, List.length_drop] at length
  obtain rfl : count = tokens.length := by omega
  cases behind : (cursor.advance tokens.length).rest with
  | nil =>
    rw [whole, behind, List.append_nil] at line
    obtain ⟨last, among, closed⟩ := Option.map_eq_some_iff.1 line
    have inside := spelled.statement _ (List.mem_map_of_mem (List.mem_of_getLast? among))
    exact absurd closed inside.1
  | cons close more =>
    have closed := ended close (by rw [Cursor.peek?, behind]; rfl)
    refine ⟨_, more.map Token.kind, spelled, by rw [List.length_map], ?_⟩
    rw [whole, behind, List.map_append, List.map_cons, closed]

/-- Whether the last of some tokens is the word that asks for a stub. -/
def EndsInStubWord (kinds : List TokenKind) : Prop :=
  ∃ kind ∈ kinds.getLast?, kind.IsName Modifier.stubWord

theorem AsksFirst.endsInStubWord (h : AsksFirst kinds) : EndsInStubWord kinds := by
  cases h with
  | @mk _ _ _ word _ _ _ _ _ asks => exact ⟨.name word, by simp, word, rfl, asks⟩

theorem endsInStubWord_header {name : String} {p : Punct} :
    EndsInStubWord (.name name :: .punct p :: kinds) ↔ EndsInStubWord kinds := by
  cases kinds <;> simp [EndsInStubWord, TokenKind.IsName]

/-- A binary literal at a place where an operand expression is read, in the other spelling. -/
theorem read_percentKinds (found : read cursor = .ok expr now) (ended : now.AtEndOfStatement)
    (line : Token.EndsStatement cursor.rest)
    (here : cursor.rest.map Token.kind = front ++ TokenKind.number .binary numeral :: back)
    (there : cursor'.rest.map Token.kind =
      front ++ percentKinds (front.foldl Mode.next .operandExpected) numeral ++ back) :
    let stub := cursor.position + front.length < now.position ∧ EndsInStubWord front
    (¬stub → ∃ now', read cursor' = .ok expr now' ∧ now'.AtEndOfStatement) ∧
      (stub → ∃ percent ∈ (cursor'.advance front.length).peek?, percent.kind = .punct .percent ∧
        read cursor' =
          .error ⟨.expected .expression, percent.span⟩ (cursor'.advance front.length)) := by
  obtain ⟨own, more, spelled, rfl, whole⟩ := exists_spelled_of_ended found ended line
  have statement := spelled.statement
  have inside : ∀ kind ∈ own, kind ≠ .endOfStatement := fun kind among => (statement kind among).1
  rcases append_eq_append_cons (whole.symm.trans here) with ⟨others, rfl⟩ | ⟨before, rfl, behind⟩
  · by_cases mode : front.foldl Mode.next .operandExpected = .operandEnded
    · -- Here `%` is an operator, so the literal follows the word that asks for a stub.
      have asked := spelled.asksFirst rfl mode
      have starts : cursor'.Starts (front ++ [TokenKind.punct .percent]) := by
        rw [Cursor.Starts, there, percentKinds, if_pos mode]
        simp
      refine ⟨fun other => absurd ⟨?_, asked.endsInStubWord⟩ other, fun _ => ?_⟩
      · exact read_of_asksFirst asked starts
      · simp [Cursor.advance]
    · rw [percentKinds, if_neg mode, List.append_assoc, List.singleton_append, ← here,
        whole] at there
      refine ⟨fun _ => read_of_statement inside whole there found ended, ?_⟩
      rintro ⟨-, kind, last, text, rfl, -⟩
      have before (kind : TokenKind) (among : kind ∈ front) :=
        statement kind (List.mem_append_left _ among)
      exact absurd (Token.mode_of_name before last) mode
  · have later :
        ¬cursor.position + (own ++ before).length < (cursor.advance own.length).position := by
      simp [Cursor.advance]
    cases before with
    | nil => cases behind
    | cons close before =>
      obtain ⟨rfl, -⟩ := List.cons.inj behind
      simp only [List.append_assoc, List.cons_append] at there
      exact ⟨fun _ => read_of_statement inside whole there found ended,
        fun stub => absurd stub.1 later⟩

end OperandExpr

/-- A name, a blank and `#` are lexed to two tokens. -/
theorem Token.exists_kinds_of_lex {mnemonic text : String} {tokens : List Token}
    (named : TokenKind.IsNameText mnemonic) (lexed : lex (mnemonic ++ " #" ++ text) = .ok tokens) :
    ∃ more, tokens.map Token.kind = .name mnemonic :: .punct .hash :: more := by
  obtain ⟨read, lexed', rfl⟩ := lex_eq_ok lexed
  have whole := lexed'.lexes
  have spelled : (mnemonic ++ " #" ++ text).toList =
      mnemonic.toList ++ ' ' :: '#' :: text.toList := by
    simp [String.toList_append]
  have apart : StartsApart (' ' :: '#' :: text.toList) := startsApart_cons (by decide) _
  have known : TokenKind.IsLexed (.name mnemonic) := named
  obtain ⟨c, rest, start, scanned⟩ := scan_text known nofun (fun _ => nofun) apart
  have start : mnemonic.toList = c :: rest := start
  rw [spelled, start] at whole
  obtain ⟨others, kinds, tail⟩ := whole.of_cons (congrArg Prod.fst scanned)
  rw [List.append_eq, behind, scanned, List.drop_left] at tail
  obtain ⟨more, rfl, -⟩ := tail.of_space.of_cons rfl
  rw [map_closeStatement, kinds]
  exact ⟨_, rfl⟩

/-- A numeral stands behind them. -/
theorem Token.exists_kinds_before_number {mnemonic text numeral : String} {radix : Text.Radix}
    {tokens : List Token} {front back : List TokenKind} (named : TokenKind.IsNameText mnemonic)
    (lexed : lex (mnemonic ++ " #" ++ text) = .ok tokens)
    (kinds : tokens.map Token.kind = front ++ TokenKind.number radix numeral :: back) :
    ∃ own, front = .name mnemonic :: .punct .hash :: own := by
  obtain ⟨more, header⟩ := exists_kinds_of_lex named lexed
  have whole : [TokenKind.name mnemonic, .punct .hash] ++ more =
      front ++ TokenKind.number radix numeral :: back := header.symm.trans kinds
  rcases append_eq_append_cons whole with ⟨others, first⟩ | ⟨own, rfl, -⟩
  · have among : TokenKind.number radix numeral ∈ [TokenKind.name mnemonic, .punct .hash] := by
      simp [first]
    simp at among
  · exact ⟨own, rfl⟩

theorem Token.EndsStatement.drop {tokens : List Token} {n : Nat} (h : EndsStatement tokens)
    (long : n < tokens.length) : EndsStatement (tokens.drop n) := by
  rw [EndsStatement, List.getLast?_drop, if_neg (Nat.not_le.2 long)]
  exact h

namespace OperandExpr

/-- With `%` for the mark of a binary literal, a line is lexed, too, and the operand expression is
the same. Only behind the word that asks for a stub, `%` is reported where an expression should
be. -/
theorem read_percent {mnemonic before mark digits after : String}
    (named : TokenKind.IsNameText mnemonic) (binary : mark = "0b" ∨ mark = "0B")
    {front back : List Token} {literal : Token}
    (lexed : Token.lex (mnemonic ++ " #" ++ (before ++ mark ++ digits ++ after)) =
      .ok (front ++ literal :: back))
    (kind : literal.kind = .number .binary digits)
    (place : literal.span.offset = (mnemonic ++ " #" ++ before).utf8ByteSize)
    {expr : OperandExpr} {now : Cursor}
    (found : read (.atIndex (front ++ literal :: back) 2) = .ok expr now)
    (ended : now.AtEndOfStatement) :
    let stub := front.length < now.position ∧ EndsInStubWord (front.map Token.kind)
    ∃ tokens, Token.lex (mnemonic ++ " #" ++ (before ++ "%" ++ digits ++ after)) = .ok tokens ∧
      (¬stub → ∃ now', read (.atIndex tokens 2) = .ok expr now' ∧ now'.AtEndOfStatement) ∧
      (stub → ∃ percent ∈ (Cursor.atIndex tokens front.length).peek?,
        percent.kind = .punct .percent ∧ read (.atIndex tokens 2) =
          .error ⟨.expected .expression, percent.span⟩ (.atIndex tokens front.length)) := by
  intro stub
  have whole : (front ++ literal :: back).map Token.kind =
      front.map Token.kind ++ TokenKind.number .binary digits :: back.map Token.kind := by
    rw [List.map_append, List.map_cons, kind]
  obtain ⟨own, same⟩ := Token.exists_kinds_before_number named lexed whole
  have length : front.length = 2 + own.length := by
    rw [← List.length_map Token.kind, same, List.length_cons, List.length_cons]
    omega
  have line := (Token.endsStatement_of_lex lexed).drop (n := 2) (by
    rw [List.length_append, List.length_cons]
    omega)
  rw [← String.append_assoc, ← String.append_assoc, ← String.append_assoc] at lexed
  obtain ⟨tokens, lexed', kinds⟩ := Token.lex_percent binary lexed kind place
  rw [same] at whole kinds
  have here : (Cursor.atIndex (front ++ literal :: back) 2).rest.map Token.kind =
      own ++ TokenKind.number .binary digits :: back.map Token.kind := by
    rw [Cursor.atIndex, List.map_drop, whole]
    rfl
  have there : (Cursor.atIndex tokens 2).rest.map Token.kind =
      own ++ percentKinds (own.foldl Mode.next .operandExpected) digits ++ back.map Token.kind := by
    rw [Cursor.atIndex, List.map_drop, kinds]
    rfl
  have alike : stub ↔ 2 + own.length < now.position ∧ EndsInStubWord own := by
    rw [← length, ← endsInStubWord_header, ← same]
  have percent := read_percentKinds found ended line here there
  rw [Cursor.atIndex_advance, ← length] at percent
  refine ⟨tokens, ?_, ?_⟩
  · simpa only [String.append_assoc] using lexed'
  · rw [alike]
    exact percent

/-- In `-lo(gs 5%0b1_0)` the literal follows an operator, which may be another `%`. -/
theorem read_percent_remainder : ∃ tokens expr now tokens' now',
    Token.lex "lda #-lo(gs 5%0b1_0)" = .ok tokens ∧ read (.atIndex tokens 2) = .ok expr now ∧
      now.AtEndOfStatement ∧ Token.lex "lda #-lo(gs 5%%1_0)" = .ok tokens' ∧
      read (.atIndex tokens' 2) = .ok expr now' ∧ now'.AtEndOfStatement := by
  let front : List Token := [⟨.name "lda", ⟨0, 3⟩⟩, ⟨.punct .hash, ⟨4, 1⟩⟩,
    ⟨.punct .dash, ⟨5, 1⟩⟩, ⟨.name "lo", ⟨6, 2⟩⟩, ⟨.punct .openParen, ⟨8, 1⟩⟩,
    ⟨.name "gs", ⟨9, 2⟩⟩, ⟨.number .decimal "5", ⟨12, 1⟩⟩, ⟨.punct .percent, ⟨13, 1⟩⟩]
  let literal : Token := ⟨.number .binary "1_0", ⟨14, 5⟩⟩
  let back : List Token := [⟨.punct .closeParen, ⟨19, 1⟩⟩, ⟨.endOfStatement, ⟨20, 0⟩⟩]
  let expr : OperandExpr := .modified .low8Stub (.binary .mod (.constant 5) (.constant 2)) true
  have source : "lda" ++ " #" ++ ("-lo(gs 5%" ++ "0b" ++ "1_0" ++ ")") =
      "lda #-lo(gs 5%0b1_0)" := by cbv
  have source' : "lda" ++ " #" ++ ("-lo(gs 5%" ++ "%" ++ "1_0" ++ ")") =
      "lda #-lo(gs 5%%1_0)" := by cbv
  have lexed : Token.lex "lda #-lo(gs 5%0b1_0)" = .ok (front ++ literal :: back) := by cbv
  have found : read (.atIndex (front ++ literal :: back) 2) =
      .ok expr (.atIndex (front ++ literal :: back) 10) := by cbv
  have ended : (Cursor.atIndex (front ++ literal :: back) 10).AtEndOfStatement := by decide
  have named : TokenKind.IsNameText "lda" := ⟨'l', ['d', 'a'], rfl, rfl, by simp [Token.isNameChar]⟩
  have place : literal.span.offset = ("lda" ++ " #" ++ "-lo(gs 5%").utf8ByteSize := by cbv
  obtain ⟨tokens', lexed', same, -⟩ :=
    read_percent named (.inl rfl) (source ▸ lexed) rfl place found ended
  have operator : ¬EndsInStubWord (front.map Token.kind) := by
    rintro ⟨kind, last, text, rfl, -⟩
    simp [front] at last
  obtain ⟨now', found', ended'⟩ := same fun stub => operator stub.2
  exact ⟨_, expr, _, tokens', now', lexed, found, ended, source' ▸ lexed', found', ended'⟩

/-- Behind `gs`, the digits of `%1` are those of a decimal literal. -/
theorem exists_read_percent_eq_error : ∃ tokens expr now tokens' diagnostic after,
    Token.lex "lda #lo(gs 0b1)" = .ok tokens ∧ read (.atIndex tokens 2) = .ok expr now ∧
      now.AtEndOfStatement ∧ Token.lex "lda #lo(gs %1)" = .ok tokens' ∧
      read (.atIndex tokens' 2) = .error diagnostic after := by
  let front : List Token := [⟨.name "lda", ⟨0, 3⟩⟩, ⟨.punct .hash, ⟨4, 1⟩⟩, ⟨.name "lo", ⟨5, 2⟩⟩,
    ⟨.punct .openParen, ⟨7, 1⟩⟩, ⟨.name "gs", ⟨8, 2⟩⟩]
  let tokens : List Token := front ++ [⟨.number .binary "1", ⟨11, 3⟩⟩,
    ⟨.punct .closeParen, ⟨14, 1⟩⟩, ⟨.endOfStatement, ⟨15, 0⟩⟩]
  let tokens' : List Token := front ++ [⟨.punct .percent, ⟨11, 1⟩⟩, ⟨.number .decimal "1", ⟨12, 1⟩⟩,
    ⟨.punct .closeParen, ⟨13, 1⟩⟩, ⟨.endOfStatement, ⟨14, 0⟩⟩]
  have lexed : Token.lex "lda #lo(gs 0b1)" = .ok tokens := by cbv
  have found : read (.atIndex tokens 2) =
      .ok (.modified .low8Stub (.constant 1) false) (.atIndex tokens 7) := by cbv
  have ended : (Cursor.atIndex tokens 7).AtEndOfStatement := by decide
  have lexed' : Token.lex "lda #lo(gs %1)" = .ok tokens' := by cbv
  have failed : read (.atIndex tokens' 2) =
      .error ⟨.expected .expression, ⟨11, 1⟩⟩ (.atIndex tokens' 5) := by cbv
  exact ⟨tokens, _, _, tokens', _, _, lexed, found, ended, lexed', failed⟩

end OperandExpr

end Asm65
