import Asm65.Proofs.Spelling
import Asm65.Statement

/-!
# What readers give

The expressions read from a source are made of names and of literals below
2^32, and their modifiers are those with a name (`Writable`). The operands read
are such expressions, operand registers, and tokens that are neither commas nor
register names (`Spells`). Only such operands have a text to read back.
-/

namespace Asm65

/-- The operator that a prefix operator is written with. -/
def UnaryOp.punct : UnaryOp → Punct
  | neg => .dash
  | plus => .plus
  | not => .tilde

/-- The operator that a binary operator is written with. -/
def BinaryOp.punct : BinaryOp → Punct
  | or => .pipe
  | xor => .caret
  | and => .amp
  | shl => .shl
  | shr => .shr
  | add => .plus
  | sub => .dash
  | mul => .star
  | div => .slash
  | mod => .percent

namespace Expr

/-- The tokens of the text of an expression. -/
def kinds : Expr → List TokenKind
  | constant value => [.number .decimal (Text.signedDecimal value.toInt)]
  | symbol name => [.name name]
  | unary op operand => .punct op.punct :: operand.kinds
  | binary op left right =>
    .punct .openParen :: left.kinds ++ .punct op.punct :: right.kinds ++ [.punct .closeParen]

theorem inside_kinds (expr : Expr) : ∀ kind ∈ expr.kinds, kind ≠ .endOfStatement := by
  induction expr with
  | constant | symbol => simp [kinds]
  | unary op operand ih => exact List.forall_mem_cons.2 ⟨nofun, ih⟩
  | binary op left right ihLeft ihRight =>
    have close : ∀ kind ∈ [TokenKind.punct .closeParen], kind ≠ .endOfStatement := by simp
    exact List.forall_mem_append.2 ⟨List.forall_mem_append.2
      ⟨List.forall_mem_cons.2 ⟨nofun, ihLeft⟩, List.forall_mem_cons.2 ⟨nofun, ihRight⟩⟩, close⟩

/-- Expressions of names and of constants that a literal can have. -/
def Writable : Expr → Prop
  | constant value => ∃ n < 0x100000000, value = Int64.ofNat n
  | symbol name => TokenKind.IsNameText name
  | unary _ operand => operand.Writable
  | binary _ left right => left.Writable ∧ right.Writable

/-- Waiting operators with operands that can be written. -/
def Pending.Writable : Pending → Prop
  | unary _ | group => True
  | binary left _ => left.Writable

/-- States of the machine in which all operands can be written. -/
def State.Writable : State → Prop
  | operand stack => ∀ pending ∈ stack, pending.Writable
  | operator stack value => (∀ pending ∈ stack, pending.Writable) ∧ value.Writable

theorem writable_complete {stack : List Pending} {value : Expr}
    (h : ∀ pending ∈ stack, pending.Writable) (h' : value.Writable) :
    (complete stack value).Writable := by
  fun_induction complete stack value with
  | case1 op stack value ih =>
    exact ih (fun pending among => h pending (List.mem_cons_of_mem _ among)) h'
  | case2 stack value => exact ⟨h, h'⟩

theorem writable_reduce (level : Nat) {stack : List Pending} {value : Expr}
    (h : ∀ pending ∈ stack, pending.Writable) (h' : value.Writable) :
    (∀ pending ∈ (reduce level stack value).1, pending.Writable) ∧
      (reduce level stack value).2.Writable := by
  fun_induction reduce level stack value with
  | case1 left op stack value _ ih =>
    have head : left.Writable := h _ List.mem_cons_self
    exact ih (fun pending among => h pending (List.mem_cons_of_mem _ among)) ⟨head, h'⟩
  | case2 | case3 => exact ⟨h, h'⟩

namespace State

theorem writable_of_literal {stack : List Pending} {kind : TokenKind} {n : Nat}
    (h : ∀ pending ∈ stack, pending.Writable) (found : kind.value? = some n) :
    (complete stack (.constant (Int64.ofNat n))).Writable :=
  writable_complete h ⟨n, TokenKind.value?_lt found, rfl⟩

theorem Writable.step {state state' : State} {kind : TokenKind} (h : state.Writable)
    (lexed : kind.IsLexed) (shifted : state.step kind = .shift state') : state'.Writable := by
  unfold State.step at shifted
  split at shifted
  · next stack _ =>
    split at shifted
    · split at shifted
      · next found =>
        cases shifted
        exact writable_of_literal h found
      · cases shifted
    · split at shifted
      · next found =>
        cases shifted
        exact writable_of_literal h found
      · cases shifted
    · cases shifted
      exact writable_complete h lexed
    · cases shifted
      exact List.forall_mem_cons.2 ⟨trivial, h⟩
    · split at shifted
      · cases shifted
        exact List.forall_mem_cons.2 ⟨trivial, h⟩
      · cases shifted
    · cases shifted
    · cases shifted
  · next stack value =>
    have reduced := writable_reduce 0 h.1 h.2
    split at shifted
    · next outer value' found =>
      cases shifted
      rw [found] at reduced
      exact writable_complete (List.forall_mem_cons.1 reduced.1).2 reduced.2
    · cases shifted
  · next stack value p _ =>
    split at shifted
    · next op _ =>
      cases shifted
      have reduced := writable_reduce op.precedence h.1 h.2
      exact List.forall_mem_cons.2 ⟨reduced.2, reduced.1⟩
    · cases shifted
  · cases shifted

theorem Writable.result {state : State} {value : Expr} (h : state.Writable)
    (done : state.result = .ok value) : value.Writable := by
  unfold State.result at done
  split at done
  · cases done
  · next stack top =>
    have reduced := writable_reduce 0 h.1 h.2
    split at done
    · next value' found =>
      cases done
      rw [found] at reduced
      exact reduced.2
    · cases done

end State

end Expr

/-- Whether all tokens from a place on are ones a text can hold. -/
def Cursor.IsLexed (cursor : Cursor) : Prop :=
  ∀ token ∈ cursor.rest, token.kind.IsLexed

theorem Cursor.IsLexed.later {least : Nat} {start now : Cursor} (h : start.IsLexed)
    (later : LaterBy least start now) : now.IsLexed :=
  fun token among => h token (later.subset among)

theorem Cursor.IsLexed.peek {cursor : Cursor} {token : Token} (h : cursor.IsLexed)
    (here : cursor.peek? = some token) : token.kind.IsLexed :=
  h token (List.mem_of_mem_head? here)

namespace Reader

variable {α β : Type}

/-- A reader of lexed tokens gives values with a property. -/
def Gives (property : α → Prop) (reader : Reader α) : Prop :=
  ∀ ⦃start value now⦄, start.IsLexed → reader start = .ok value now → property value

theorem Gives.bind {property : α → Prop} {property' : β → Prop} {least : Nat}
    {reader : Reader α} {next : α → Reader β} (passes : Passes least reader)
    (first : Gives property reader)
    (rest : ∀ value, property value → Gives property' (next value)) :
    Gives property' (reader >>= next) := by
  intro start value now lexed read
  obtain ⟨value', middle, here, there⟩ := bind_eq_ok_iff.1 read
  exact rest value' (first lexed here) (lexed.later (passes.of_ok here)) there

theorem gives_pure {property : α → Prop} {value : α} (h : property value) :
    Gives property (pure value : Reader α) := by
  intro start value' now _ read
  cases read
  exact h

theorem gives_trivial (reader : Reader α) : Gives (fun _ => True) reader :=
  fun _ _ _ _ _ => trivial

end Reader

namespace Expr

theorem writable_of_finish {state : State} {cursor now : Cursor} {value : Expr}
    (h : state.Writable) (done : run.finish state cursor = .ok value now) : value.Writable := by
  unfold run.finish at done
  split at done
  · next found =>
    cases done
    exact h.result found
  · cases done

theorem writable_of_run {stop position : Nat} {tokens : List Token} {state : State}
    {now : Cursor} {value : Expr} (lexed : ∀ token ∈ tokens, token.kind.IsLexed)
    (h : state.Writable) (done : run stop state position tokens = .ok value now) :
    value.Writable := by
  induction tokens generalizing state position with
  | nil => exact writable_of_finish h done
  | cons token rest ih =>
    obtain ⟨head, tail⟩ := List.forall_mem_cons.1 lexed
    unfold run at done
    cases moved : state.step token.kind with
    | shift state' =>
      rw [moved] at done
      exact ih tail (h.step head moved) done
    | outOfRange =>
      rw [moved] at done
      cases done
    | stop =>
      rw [moved] at done
      exact writable_of_finish h done

theorem gives_read : Reader.Gives Writable read := by
  intro start value now lexed done
  exact writable_of_run lexed (by simp [State.Writable]) done

end Expr

namespace OperandExpr

/-- The tokens of the text of an operand expression. -/
def kinds : OperandExpr → List TokenKind
  | plain expr => expr.kinds
  | modified kind expr negated =>
    (if negated then [.punct .dash] else []) ++ .name kind.text :: .punct .openParen ::
      expr.kinds ++ [.punct .closeParen]

theorem inside_kinds (expr : OperandExpr) : ∀ kind ∈ expr.kinds, kind ≠ .endOfStatement := by
  cases expr with
  | plain expr => exact expr.inside_kinds
  | modified kind expr negated =>
    have inner := expr.inside_kinds
    cases negated <;> simpa [kinds, or_imp, forall_and] using inner

theorem exists_first_kind (expr : OperandExpr) :
    ∃ kind others, expr.kinds = kind :: others ∧ kind ≠ .punct .comma ∧ kind ≠ .punct .colon := by
  cases expr with
  | plain expr =>
    cases expr with
    | unary op operand => cases op <;> exact ⟨_, _, rfl, nofun, nofun⟩
    | constant | symbol | binary => exact ⟨_, _, rfl, nofun, nofun⟩
  | modified kind expr negated => cases negated <;> exact ⟨_, _, rfl, nofun, nofun⟩

/-- Expressions that can be written, under no modifier or one with a name. -/
def Writable : OperandExpr → Prop
  | plain expr => expr.Writable
  | modified kind expr _ => kind ≠ .addressText ∧ expr.Writable

theorem ne_addressText_of_ofName? {name : String} {kind : Modifier}
    (h : Modifier.ofName? name = some kind) : kind ≠ .addressText := by
  have named : ∀ pair ∈ Modifier.names, pair.2 ≠ .addressText := by decide
  exact named _ (Text.mem_of_lookup h)

theorem gives_group (sign : Expr → Expr)
    (h : ∀ expr : Expr, expr.Writable → (sign expr).Writable) :
    Reader.Gives Expr.Writable (readInner.group sign) :=
  Expr.gives_read.bind Expr.passes_read fun expr written =>
    (Reader.gives_trivial _).bind (Reader.passes_expect _ _) fun _ _ =>
      Reader.gives_pure (h expr written)

theorem gives_readInner : Reader.Gives Expr.Writable readInner := by
  intro start value now lexed read
  unfold readInner at read
  split at read
  · next here =>
    have later : Cursor.LaterBy 2 start (start.advance 2) :=
      Cursor.laterBy_advance (by simp [here])
    exact gives_group (.unary .neg) (fun _ written => written) (lexed.later later) read
  · next here =>
    have later : Cursor.LaterBy 2 start (start.advance 2) :=
      Cursor.laterBy_advance (by simp [here])
    exact gives_group id (fun _ written => written) (lexed.later later) read
  · exact Expr.gives_read lexed read

theorem gives_readStub {name : String} {kind : Modifier} (h : kind ≠ .addressText) :
    Reader.Gives (· ≠ .addressText) (readStub name kind) := by
  intro start value now _ read
  unfold readStub at read
  split at read
  · split at read
    · next stub found =>
      split at read
      · cases read
        exact ne_addressText_of_ofName? found
      · cases read
        exact h
    · cases read
      exact h
  · cases read
    exact h

theorem gives_readArgument {name : String} {kind : Modifier} (h : kind ≠ .addressText)
    (negated : Bool) : Reader.Gives Writable (readArgument name kind negated) :=
  (gives_readStub h).bind (passes_readStub name kind) fun _ named =>
    gives_readInner.bind passes_readInner fun _ written =>
      (Reader.gives_trivial _).bind (Reader.passes_expect _ _) fun _ _ =>
        Reader.gives_pure ⟨named, written⟩

theorem gives_half (kind : Modifier) (h : kind ≠ .addressText) (negated : Bool) :
    Reader.Gives Writable (readUnsigned.half negated kind) :=
  Expr.gives_read.bind Expr.passes_read fun _ written => Reader.gives_pure ⟨h, written⟩

theorem gives_readUnsigned (negated : Bool) : Reader.Gives Writable (readUnsigned negated) := by
  intro start value now lexed read
  unfold readUnsigned at read
  split at read
  · next here =>
    have later : Cursor.LaterBy 1 start (start.advance 1) :=
      Cursor.laterBy_advance (by simp [here])
    exact gives_half .addr16Low nofun negated (lexed.later later) read
  · next here =>
    have later : Cursor.LaterBy 1 start (start.advance 1) :=
      Cursor.laterBy_advance (by simp [here])
    exact gives_half .addr16High nofun negated (lexed.later later) read
  · next here =>
    split at read
    · next kind found =>
      have later : Cursor.LaterBy 2 start (start.advance 2) :=
        Cursor.laterBy_advance (by simp [here])
      exact gives_readArgument (ne_addressText_of_ofName? found) negated (lexed.later later) read
    · cases read
  · have plain : Reader.Gives Writable readUnsigned.plainExpr :=
      Expr.gives_read.bind Expr.passes_read fun _ written => Reader.gives_pure written
    exact plain lexed read

theorem gives_read : Reader.Gives Writable read :=
  (Reader.gives_trivial _).bind passes_readSign fun negated _ => gives_readUnsigned negated

end OperandExpr

namespace Operand

/-- The tokens of the text of an operand that can be read. -/
inductive Spells (features : FeatureSet) : Operand → List TokenKind → Prop
  | token {kind : TokenKind} {span : Span} (lexed : kind.IsLexed)
      (inside : kind ≠ .endOfStatement) (apart : kind ≠ .punct .comma)
      (other : registerOf? features kind = none) : Spells features (.token kind.text span) [kind]
  | register {found : Register} {span : Span} (h : found.isOperandClass) :
      Spells features (.register found span) [.name found.text]
  | immediate {expr : OperandExpr} {span : Span} (h : expr.Writable) :
      Spells features (.immediate expr span) expr.kinds

theorem Spells.inside {features : FeatureSet} {operand : Operand} {kinds : List TokenKind}
    (h : operand.Spells features kinds) : ∀ kind ∈ kinds, kind ≠ .endOfStatement := by
  cases h with
  | token _ inside _ _ => exact List.forall_mem_singleton.2 inside
  | register => exact List.forall_mem_singleton.2 nofun
  | @immediate expr => exact expr.inside_kinds

/-- Whether an operand can be read from some tokens. -/
def IsSpelled (features : FeatureSet) (operand : Operand) : Prop :=
  ∃ kinds, operand.Spells features kinds

variable {features : FeatureSet} {config : Config} {first : Bool} {token : Token}
  {start now : Cursor}

theorem isSpelled_verbatim (lexed : token.kind.IsLexed) (inside : token.kind ≠ .endOfStatement)
    (apart : token.kind ≠ .punct .comma) (other : registerOf? features token.kind = none) :
    (verbatim token).IsSpelled features :=
  ⟨_, .token lexed inside apart other⟩

/-- The accumulator is no operand register, so it stays a token. -/
theorem isSpelled_accumulator (span : Span) :
    (Operand.token accumulator span).IsSpelled features := by
  have spelling : accumulator.toLower.toList = ['a'] := by cbv
  have other : registerOf? features (.name accumulator) = none := by
    simp only [registerOf?, TokenKind.name?, Option.bind_some, Register.ofName?, spelling,
      Register.canonical?]
    rfl
  have name : TokenKind.IsNameText accumulator := ⟨'a', [], rfl, rfl, by simp⟩
  have spelled : Spells features (.token (TokenKind.name accumulator).text span) _ :=
    .token name (by simp) (by simp) other
  exact ⟨_, spelled⟩

/-- An opening delimiter is neither a comma nor a register. -/
theorem isSpelled_punct {p : Punct} (same : token.kind = .punct p) (apart : p ≠ .comma) :
    (verbatim token).IsSpelled features := by
  refine isSpelled_verbatim ?_ ?_ ?_ ?_ <;> rw [same]
  · trivial
  · nofun
  · exact fun comma => apart (TokenKind.punct.inj comma)
  · rfl

theorem gives_readImmediate :
    Reader.Gives (fun operand => ∃ expr span, operand = immediate expr span ∧ expr.Writable)
      readImmediate := by
  intro start value now lexed read
  unfold readImmediate at read
  split at read
  · next expr after found =>
    cases read
    exact ⟨expr, _, rfl, OperandExpr.gives_read lexed found⟩
  · cases read

theorem isSpelled_of_readImmediate {operand : Operand} (lexed : start.IsLexed)
    (read : readImmediate start = .ok operand now) : operand.IsSpelled features := by
  obtain ⟨expr, span, rfl, written⟩ := gives_readImmediate lexed read
  exact ⟨_, .immediate written⟩

theorem isSpelled_of_readBare {item : Item} (lexed : start.IsLexed)
    (here : start.peek? = some token) (inside : token.kind ≠ .endOfStatement)
    (read : readBare features first token start = .ok item now) :
    ∀ operand ∈ item.operands, operand.IsSpelled features := by
  have lexed' := lexed.peek here
  unfold readBare at read
  split at read
  · cases read
    simp
  · next apart =>
    split at read
    · cases read
      exact List.forall_mem_singleton.2 (isSpelled_accumulator token.span)
    · split at read
      · next found named =>
        cases read
        exact List.forall_mem_singleton.2 ⟨_, .register (Option.mem_filter_iff.1 named).2⟩
      · next other =>
        have spelled := isSpelled_verbatim lexed' inside apart other
        split at read
        · split at read
          · next found =>
            cases read
            exact List.forall_mem_singleton.2 (isSpelled_of_readImmediate lexed found)
          · split at read
            · cases read
              exact List.forall_mem_singleton.2 spelled
            · cases read
        · cases read
          exact List.forall_mem_singleton.2 spelled

theorem isSpelled_of_readHash {item : Item} (lexed : start.IsLexed)
    (here : start.peek? = some token) (hash : token.kind = .punct .hash)
    (read : readHash token start = .ok item now) :
    ∀ operand ∈ item.operands, operand.IsSpelled features := by
  unfold readHash at read
  split at read
  · next found =>
    cases read
    have behind := lexed.later (Cursor.laterBy_advance_one here)
    exact List.forall_mem_cons.2 ⟨isSpelled_punct hash nofun,
      List.forall_mem_singleton.2 (isSpelled_of_readImmediate behind found)⟩
  · cases read

theorem isSpelled_of_readPastDelimiter {item : Item} (lexed : start.IsLexed)
    (delimiter : (verbatim token).IsSpelled features)
    (read : readPastDelimiter features first token start = .ok item now) :
    ∀ operand ∈ item.operands, operand.IsSpelled features := by
  unfold readPastDelimiter at read
  split at read
  · cases read
    exact List.forall_mem_singleton.2 delimiter
  · next following here =>
    split at read
    · cases read
      exact List.forall_mem_singleton.2 delimiter
    · next inside =>
      split at read
      · next found =>
        cases read
        exact List.forall_mem_cons.2 ⟨delimiter, isSpelled_of_readBare lexed here inside found⟩
      · cases read

theorem delimiter?_eq_some {kind : TokenKind} {what : Expected}
    (h : delimiter? features kind = some what) :
    kind = .punct .openParen ∨ kind = .punct .openBracket := by
  unfold delimiter? at h
  split at h
  · exact .inl rfl
  · exact .inr rfl
  · cases h

theorem isSpelled_of_readItem {item : Item} (lexed : start.IsLexed)
    (here : start.peek? = some token) (inside : token.kind ≠ .endOfStatement)
    (read : readItem config first token start = .ok item now) :
    ∀ operand ∈ item.operands, operand.IsSpelled config.features := by
  unfold readItem at read
  split at read
  · next hash => exact isSpelled_of_readHash lexed here hash read
  · split at read
    · next what found =>
      have delimiter : (verbatim token).IsSpelled config.features := by
        rcases delimiter?_eq_some found with paren | bracket
        · exact isSpelled_punct paren nofun
        · exact isSpelled_punct bracket nofun
      have behind := lexed.later (Cursor.laterBy_advance_one here)
      unfold readDelimited at read
      split at read
      · next found =>
        cases read
        exact List.forall_mem_cons.2
          ⟨delimiter, List.forall_mem_singleton.2 (isSpelled_of_readImmediate behind found)⟩
      · split at read
        · exact isSpelled_of_readPastDelimiter behind delimiter read
        · cases read
    · exact isSpelled_of_readBare lexed here inside read

theorem gives_readItems (config : Config) (first : Bool) :
    Reader.Gives (fun operands => ∀ operand ∈ operands, operand.IsSpelled config.features)
      (readItems config first) := by
  intro start operands now lexed read
  fun_induction readItems config first start generalizing operands with
  | case1 | case2 =>
    cases read
    simp
  | case3 first start current here inside item after found operands stop rest ih =>
    cases read
    have later := readItem_passed config first here
    rw [found] at later
    exact List.forall_mem_append.2 ⟨isSpelled_of_readItem lexed here inside found,
      ih (lexed.later later) rest⟩
  | case4 => cases read
  | case5 => cases read

end Operand

end Asm65
