import Asm65.Proofs.Alignment.OperandExpr
import Asm65.Proofs.Provenance

/-!
# Expressions read back

The tokens of the text of an expression are read as that expression
(`Expr.read_kinds`), and those of an operand expression as that operand
expression but for a plus sign (`OperandExpr.read_text`), unless a symbol in it
is taken for another word. Nothing is lost where `OperandExpr.KeepsText` holds.

## Implementation notes

The machine of the expression reader meets the tokens of an expression with
other operators waiting. `run_kinds` is by induction on the expression for
every stack of them.
-/

namespace Asm65

namespace Text

theorem digitValue_of_isDigit {c : Char} (h : c.isDigit) :
    digitValue c = c.toNat - '0'.toNat := by
  have bounds : '9'.val.toNat < 'A'.val.toNat ∧ '9'.val.toNat < 'a'.val.toNat := by decide
  simp only [Char.isDigit, Bool.and_eq_true, decide_eq_true_eq, ge_iff_le,
    UInt32.le_iff_toNat_le] at h
  have lower : ¬('a' ≤ c) := by
    rw [Char.le_def, UInt32.le_iff_toNat_le]
    omega
  have upper : ¬('A' ≤ c) := by
    rw [Char.le_def, UInt32.le_iff_toNat_le]
    omega
  rw [digitValue, if_neg lower, if_neg upper]

theorem isDigit_of_mem_toDigits {n : Nat} : ∀ c ∈ Nat.toDigits 10 n, c.isDigit :=
  fun _ among => Nat.isDigit_of_mem_toDigits (by decide) (by decide) among

theorem positionalValue_toDigits (n : Nat) : positionalValue 10 (Nat.toDigits 10 n) = n := by
  have same {digits : List Char} (h : ∀ c ∈ digits, c.isDigit) (start : Nat) :
      digits.foldl (fun acc c => acc * 10 + digitValue c) start =
        Nat.ofDigitChars 10 digits start := by
    induction digits generalizing start with
    | nil => rfl
    | cons c digits ih =>
      obtain ⟨digit, others⟩ := List.forall_mem_cons.1 h
      rw [List.foldl_cons, ih others, Nat.ofDigitChars_cons, digitValue_of_isDigit digit,
        Nat.mul_comm]
  rw [positionalValue, same isDigit_of_mem_toDigits,
    Nat.ofDigitChars_toDigits (by decide) (by decide)]

theorem signedDecimal_ofNat {n : Nat} (h : n < 0x100000000) :
    signedDecimal (Int64.ofNat n).toInt = decimal n := by
  rw [Int64.toInt_ofNat_of_lt (by omega)]
  exact if_neg (Int.not_lt.2 (Int.natCast_nonneg n))

/-- A decimal text is spelled like a numeral. -/
theorem isNumeralText_decimal (n : Nat) : TokenKind.IsNumeralText .decimal (decimal n) := by
  rw [TokenKind.IsNumeralText, decimal, String.toList_ofList]
  cases h : Nat.toDigits 10 n with
  | nil => exact absurd h Nat.toDigits_ne_nil
  | cons c rest =>
    have digits : ∀ d ∈ c :: rest, d.isDigit := h ▸ isDigit_of_mem_toDigits
    refine ⟨c, rest, rfl, digits c List.mem_cons_self, fun d among => ?_⟩
    simp [Radix.isNumeralChar, Radix.isDigit, digits d among]

theorem value?_decimal {n : Nat} (h : n < 0x100000000) :
    (TokenKind.number .decimal (decimal n)).value? = some n := by
  have plain : numeralDigits (decimal n) = Nat.toDigits 10 n := by
    rw [numeralDigits, decimal, String.toList_ofList, List.filter_eq_self]
    intro c among
    have digit := isDigit_of_mem_toDigits c among
    simp only [decide_eq_true_eq]
    rintro rfl
    cases digit
  have value : numeralValue? .decimal (decimal n) = some n := by
    rw [numeralValue?_of_isDigit (plain ▸ isDigit_of_mem_toDigits), plain,
      if_neg Nat.toDigits_ne_nil, Radix.base, positionalValue_toDigits]
  rw [TokenKind.value?, value]
  exact Option.filter_eq_some_iff.2 ⟨rfl, decide_eq_true h⟩

end Text

/-- The tokens that may follow the text of an operand. -/
def TokenKind.Follows : TokenKind → Prop
  | .punct p => p = .comma ∨ p = .closeParen ∨ p = .closeBracket
  | kind => kind = .endOfStatement

namespace Expr

variable {expr : Expr}

theorem kinds_ne_nil (expr : Expr) : expr.kinds ≠ [] := by
  cases expr <;> simp [kinds]

theorem step_constant {n : Nat} (h : n < 0x100000000) (stack : List Pending) :
    (State.operand stack).step
        (.number .decimal (Text.signedDecimal (Int64.ofNat n).toInt)) =
      .shift (complete stack (.constant (Int64.ofNat n))) := by
  simp only [State.step, Text.signedDecimal_ofNat h, Text.value?_decimal h]

theorem step_unary (op : UnaryOp) (stack : List Pending) :
    (State.operand stack).step (.punct op.punct) = .shift (.operand (.unary op :: stack)) := by
  cases op <;> rfl

theorem step_binary (op : BinaryOp) (left : Expr) (stack : List Pending) :
    (State.operator (.group :: stack) left).step (.punct op.punct) =
      .shift (.operand (.binary left op :: .group :: stack)) := by
  cases op <;> rfl

theorem step_close (op : BinaryOp) (left right : Expr) (stack : List Pending) :
    (State.operator (.binary left op :: .group :: stack) right).step (.punct .closeParen) =
      .shift (complete stack (.binary op left right)) := by
  simp only [State.step, reduce, Nat.zero_le, if_true]

theorem step_follows {kind : TokenKind} (h : kind.Follows) (value : Expr) :
    (State.operator [] value).step kind = .stop := by
  cases kind with
  | punct p => rcases h with rfl | rfl | rfl <;> rfl
  | endOfStatement | name | number | char | unknown => rfl

theorem run_shift {stop position : Nat} {state state' : State} {token : Token}
    {rest : List Token} (moved : state.step token.kind = .shift state') :
    run stop state position (token :: rest) = run stop state' (position + 1) rest := by
  simp only [run, moved]

/-- Running over the tokens of an expression completes it. -/
theorem run_kinds (written : expr.Writable) (stop position : Nat) (stack : List Pending)
    {tokens : List Token} (h : tokens.map Token.kind = expr.kinds) (more : List Token) :
    run stop (.operand stack) position (tokens ++ more) =
      run stop (complete stack expr) (position + tokens.length) more := by
  induction expr generalizing position stack tokens more with
  | constant value =>
    obtain ⟨n, small, rfl⟩ := written
    obtain ⟨token, rfl, same⟩ := List.map_eq_singleton_iff.1 h
    exact run_shift (same ▸ step_constant small stack)
  | symbol name =>
    obtain ⟨token, rfl, same⟩ := List.map_eq_singleton_iff.1 h
    exact run_shift (by rw [same]; rfl)
  | unary op operand ih =>
    obtain ⟨token, rest, rfl, same, tail⟩ := List.map_eq_cons_iff.1 h
    rw [List.cons_append, run_shift (same ▸ step_unary op stack), ih written _ _ tail,
      List.length_cons, Nat.add_assoc, Nat.add_comm 1]
    rfl
  | binary op left right ihLeft ihRight =>
    obtain ⟨writtenLeft, writtenRight⟩ := written
    obtain ⟨_, close, rfl, front, closes⟩ := List.map_eq_append_iff.1 h
    obtain ⟨last, rfl, closing⟩ := List.map_eq_singleton_iff.1 closes
    obtain ⟨first, rest, rfl, second, rest'⟩ := List.map_eq_append_iff.1 front
    obtain ⟨opener, lefts, rfl, opening, second⟩ := List.map_eq_cons_iff.1 second
    obtain ⟨sign, rights, rfl, signs, third⟩ := List.map_eq_cons_iff.1 rest'
    have opened : (State.operand stack).step opener.kind = .shift (.operand (.group :: stack)) := by
      rw [opening]
      rfl
    have closed := closing ▸ step_close op left right stack
    calc
      run stop (.operand stack) position (opener :: lefts ++ sign :: rights ++ [last] ++ more)
        = run stop (.operand (.group :: stack)) (position + 1)
            (lefts ++ (sign :: rights ++ last :: more)) := by
          simp only [List.cons_append, List.append_assoc, run_shift opened, List.nil_append]
      _ = run stop (.operator (.group :: stack) left) (position + 1 + lefts.length)
            (sign :: rights ++ last :: more) := ihLeft writtenLeft _ _ second _
      _ = run stop (.operand (.binary left op :: .group :: stack))
            (position + 1 + lefts.length + 1) (rights ++ last :: more) :=
          run_shift (signs ▸ step_binary op left stack)
      _ = run stop (.operator (.binary left op :: .group :: stack) right)
            (position + 1 + lefts.length + 1 + rights.length) (last :: more) :=
          ihRight writtenRight _ _ third _
      _ = run stop (complete stack (.binary op left right))
            (position + 1 + lefts.length + 1 + rights.length + 1) more := run_shift closed
      _ = run stop (complete stack (.binary op left right))
            (position + (opener :: lefts ++ sign :: rights ++ [last]).length) more := by
          congr 1
          simp only [List.length_append, List.length_cons, List.length_nil]
          omega

/-- The tokens of an expression are read as that expression. -/
theorem read_kinds (written : expr.Writable) {cursor : Cursor} {tokens more : List Token}
    (here : cursor.rest = tokens ++ more) (h : tokens.map Token.kind = expr.kinds)
    (follows : ∀ token ∈ more.head?, token.kind.Follows) :
    read cursor = .ok expr (cursor.advance tokens.length) := by
  have result : (State.operator [] expr).result = .ok expr := rfl
  have behind : (⟨cursor.position + tokens.length, more, cursor.stop⟩ : Cursor) =
      cursor.advance tokens.length := by
    rw [Cursor.advance, here, List.drop_left]
  rw [read, here, run_kinds written _ _ _ h]
  change run cursor.stop (.operator [] expr) _ more = _
  rw [← behind]
  cases more with
  | nil => simp only [run, run.finish, result]
  | cons token rest =>
    simp only [run, step_follows (follows token rfl), run.finish, result]

/-- The tokens between the parentheses of a binary operation are read as that operation. -/
theorem read_inside {op : BinaryOp} {left right : Expr} (written : (binary op left right).Writable)
    {cursor : Cursor} {lefts rights more : List Token} {sign close : Token}
    (here : cursor.rest = lefts ++ sign :: rights ++ close :: more)
    (first : lefts.map Token.kind = left.kinds) (middle : sign.kind = .punct op.punct)
    (second : rights.map Token.kind = right.kinds) (closing : close.kind = .punct .closeParen) :
    read cursor = .ok (.binary op left right)
      (cursor.advance (lefts ++ sign :: rights).length) := by
  have moved : (State.operator [] left).step sign.kind =
      .shift (.operand [.binary left op]) := by
    rw [middle]
    cases op <;> rfl
  have result : (State.operator [.binary left op] right).result =
      .ok (.binary op left right) := by
    simp only [State.result, reduce, Nat.zero_le, if_true]
  have stopped : (State.operator [.binary left op] right).step close.kind = .stop := by
    rw [closing]
    simp only [State.step, reduce, Nat.zero_le, if_true]
  have behind : (⟨cursor.position + lefts.length + 1 + rights.length, close :: more,
      cursor.stop⟩ : Cursor) = cursor.advance (lefts ++ sign :: rights).length := by
    rw [Cursor.advance, here, List.drop_left]
    simp only [List.length_append, List.length_cons, Cursor.mk.injEq, and_true]
    omega
  calc
    read cursor = run cursor.stop (.operand []) cursor.position
        (lefts ++ (sign :: (rights ++ close :: more))) := by
      rw [read, here]
      simp only [List.append_assoc, List.cons_append]
    _ = run cursor.stop (.operator [] left) (cursor.position + lefts.length)
        (sign :: (rights ++ close :: more)) := run_kinds written.1 _ _ _ first _
    _ = run cursor.stop (.operand [.binary left op]) (cursor.position + lefts.length + 1)
        (rights ++ close :: more) := run_shift moved
    _ = run cursor.stop (.operator [.binary left op] right)
        (cursor.position + lefts.length + 1 + rights.length) (close :: more) :=
      run_kinds written.2 _ _ _ second _
    _ = .ok (.binary op left right) (cursor.advance (lefts ++ sign :: rights).length) := by
      simp only [run, stopped, run.finish, result, behind]

/-- What is read of an expression inside the parentheses of a modifier. -/
def withoutPlus : Expr → Expr
  | unary .plus (binary op left right) => binary op left right
  | expr => expr

theorem value?_plus (expr : Expr) : (unary .plus expr).value? = expr.value? :=
  Option.map_id'

theorem value?_withoutPlus (expr : Expr) : expr.withoutPlus.value? = expr.value? := by
  unfold withoutPlus
  split
  · next op left right => exact (value?_plus (binary op left right)).symm
  · rfl

/-- Only the text of a binary operation starts with a parenthesis. -/
theorem eq_binary_of_prefix {more : List TokenKind}
    (h : [TokenKind.punct .openParen] <+: expr.kinds ++ more) :
    ∃ op left right, expr = .binary op left right := by
  cases expr with
  | binary op left right => exact ⟨op, left, right, rfl⟩
  | unary op operand => cases op <;> simp [kinds, UnaryOp.punct] at h
  | constant | symbol => simp [kinds] at h

theorem eq_unary_of_prefix {p : Punct} (sign : p ≠ .openParen) {more : List TokenKind}
    (h : [TokenKind.punct p, .punct .openParen] <+: expr.kinds ++ more) :
    ∃ sign op left right, sign.punct = p ∧ expr = .unary sign (.binary op left right) := by
  cases expr with
  | unary sign' operand =>
    obtain ⟨same, tail⟩ := List.cons_prefix_cons.1 h
    obtain ⟨op, left, right, rfl⟩ := eq_binary_of_prefix tail
    exact ⟨sign', op, left, right, (TokenKind.punct.inj same).symm, rfl⟩
  | binary =>
    have same := (List.cons_prefix_cons.1 h).1
    exact absurd (TokenKind.punct.inj same) sign
  | constant | symbol => simp [kinds] at h

/-- The text of an expression does not look like a modifier. -/
theorem name_not_prefix {name : String} {more : List TokenKind}
    (apart : more.head? ≠ some (.punct .openParen)) (expr : Expr) :
    ¬[TokenKind.name name, .punct .openParen] <+: expr.kinds ++ more := by
  cases expr with
  | symbol other =>
    intro h
    have tail := (List.cons_prefix_cons.1 h).2
    cases more with
    | nil => simp at tail
    | cons kind more =>
      have same := (List.cons_prefix_cons.1 tail).1
      exact apart (congrArg some same.symm)
  | constant | unary | binary => simp [kinds]

/-- Nor does it look like a signed one. -/
theorem sign_not_prefix {p : Punct} {name : String} {more : List TokenKind}
    (apart : more.head? ≠ some (.punct .openParen)) (sign : p ≠ .openParen) (expr : Expr) :
    ¬[TokenKind.punct p, .name name, .punct .openParen] <+: expr.kinds ++ more := by
  cases expr with
  | unary op operand =>
    intro h
    exact name_not_prefix apart operand (List.cons_prefix_cons.1 h).2
  | binary op left right =>
    intro h
    have same := (List.cons_prefix_cons.1 h).1
    exact sign (TokenKind.punct.inj same)
  | constant | symbol => simp [kinds]

/-- Nor like one of the halves of an address. -/
theorem half_not_prefix {p : Punct} (half : p = .less ∨ p = .greater) {more : List TokenKind}
    (expr : Expr) : ¬[TokenKind.punct p] <+: expr.kinds ++ more := by
  cases expr with
  | unary op operand => rcases half with rfl | rfl <;> cases op <;> simp [kinds, UnaryOp.punct]
  | binary => rcases half with rfl | rfl <;> simp [kinds]
  | constant | symbol => simp [kinds]

end Expr

namespace OperandExpr

/-- Whether the text of an operand expression shows all of it. A modifier hides a plus sign in
front of a binary operation, and takes a symbol for the word that asks for a stub. -/
def KeepsText : OperandExpr → Prop
  | plain _ => True
  | modified kind inner _ => inner.withoutPlus = inner ∧
    ∀ name, inner = .symbol name → Text.SameIgnoringCase name Modifier.stubWord →
      Modifier.stub? kind.text = none

/-- Whether an operand expression is no symbol that its modifier takes for the word that asks for a
stub. -/
def ShowsSymbol : OperandExpr → Prop
  | plain _ => True
  | modified kind inner _ => ∀ name, inner = .symbol name →
    Text.SameIgnoringCase name Modifier.stubWord → Modifier.stub? kind.text = none

/-- What is read of the text of an operand expression. -/
def withoutPlus : OperandExpr → OperandExpr
  | plain expr => plain expr
  | modified kind inner negated => modified kind inner.withoutPlus negated

theorem keepsText_iff {expr : OperandExpr} :
    expr.KeepsText ↔ expr.withoutPlus = expr ∧ expr.ShowsSymbol := by
  cases expr with
  | plain expr => simp [KeepsText, withoutPlus, ShowsSymbol]
  | modified kind inner negated => simp [KeepsText, withoutPlus, ShowsSymbol]

variable {cursor : Cursor}

section Closing

variable {tokens more : List Token} {close : Token}

theorem readClose_behind (here : cursor.rest = tokens ++ close :: more)
    (closing : close.kind = .punct .closeParen) :
    readClose (cursor.advance tokens.length) = .ok () (cursor.advance (tokens.length + 1)) := by
  have behind := Cursor.rest_advance here
  simp only [readClose, Reader.expect, Cursor.accept, Cursor.peek?, behind, List.head?_cons,
    closing, if_true, Cursor.advance_advance]

/-- A group is read when the expression in it is. -/
theorem readGroup_of_read {value : Expr} (here : cursor.rest = tokens ++ close :: more)
    (closing : close.kind = .punct .closeParen)
    (read : Expr.read cursor = .ok value (cursor.advance tokens.length)) (sign : Expr → Expr) :
    readInner.group sign cursor = .ok (sign value) (cursor.advance (tokens.length + 1)) :=
  Reader.bind_eq_ok_iff.2 ⟨_, _, read,
    Reader.bind_eq_ok_iff.2 ⟨_, _, readClose_behind here closing, rfl⟩⟩

/-- The argument of a modifier is read when the expression in it is. -/
theorem readArgument_of_readInner {name : String} {kind : Modifier} {inner : Expr}
    (here : cursor.rest = tokens ++ close :: more) (closing : close.kind = .punct .closeParen)
    (stub : readStub name kind cursor = .ok kind cursor)
    (read : readInner cursor = .ok inner (cursor.advance tokens.length)) (negated : Bool) :
    readArgument name kind negated cursor =
      .ok (.modified kind inner negated) (cursor.advance (tokens.length + 1)) :=
  Reader.bind_eq_ok_iff.2 ⟨_, _, stub, Reader.bind_eq_ok_iff.2 ⟨_, _, read,
    Reader.bind_eq_ok_iff.2 ⟨_, _, readClose_behind here closing, rfl⟩⟩⟩

end Closing

theorem readGroup_kinds {op : BinaryOp} {left right : Expr}
    (written : (Expr.binary op left right).Writable) (sign : Expr → Expr)
    {tokens more : List Token} {opener : Token} (here : cursor.rest = tokens ++ more)
    (h : opener.kind :: tokens.map Token.kind = (Expr.binary op left right).kinds) :
    readInner.group sign cursor =
      .ok (sign (.binary op left right)) (cursor.advance tokens.length) := by
  obtain ⟨_, tail⟩ := List.cons.inj h
  obtain ⟨front, close, rfl, inside, closes⟩ := List.map_eq_append_iff.1 tail
  obtain ⟨last, rfl, closing⟩ := List.map_eq_singleton_iff.1 closes
  obtain ⟨lefts, rest, rfl, first, rest'⟩ := List.map_eq_append_iff.1 inside
  obtain ⟨between, rights, rfl, middle, second⟩ := List.map_eq_cons_iff.1 rest'
  rw [List.append_assoc, List.singleton_append] at here
  have read := Expr.read_inside written here first middle second closing
  rw [List.length_append]
  exact readGroup_of_read here closing read sign

theorem starts_iff {tokens more : List Token} {kinds : List TokenKind}
    (here : cursor.rest = tokens ++ more) (h : tokens.map Token.kind = kinds)
    (expected : List TokenKind) :
    cursor.Starts expected ↔ expected <+: kinds ++ more.map Token.kind := by
  rw [Cursor.Starts, here, List.map_append, h]

/-- A sign in front of a binary operation is read together with the parenthesis behind it. -/
theorem readInner_sign {sign : UnaryOp} {op : BinaryOp} {left right : Expr}
    (written : (Expr.binary op left right).Writable) {tokens more : List Token}
    (here : cursor.rest = tokens ++ more)
    (h : tokens.map Token.kind = (Expr.unary sign (.binary op left right)).kinds)
    (signed : sign ≠ .not) :
    readInner cursor = .ok (Expr.unary sign (.binary op left right)).withoutPlus
      (cursor.advance tokens.length) := by
  have starts := (starts_iff here h [.punct sign.punct, .punct .openParen]).2 (by simp [Expr.kinds])
  obtain ⟨first, rest, rfl, -, tail⟩ := List.map_eq_cons_iff.1 h
  obtain ⟨opener, inside, rfl, opening, tail'⟩ := List.map_eq_cons_iff.1 tail
  have behind : (cursor.advance 2).rest = inside ++ more := by
    rw [Cursor.advance, here]
    rfl
  have kinds : opener.kind :: inside.map Token.kind = (Expr.binary op left right).kinds := by
    rw [opening, tail']
    rfl
  have length : 2 + inside.length = (first :: opener :: inside).length := Nat.add_comm _ _
  cases sign with
  | neg =>
    rw [readInner_of_minus starts, readGroup_kinds written _ behind kinds, Cursor.advance_advance,
      length]
    rfl
  | plus =>
    rw [readInner_of_plus starts, readGroup_kinds written _ behind kinds, Cursor.advance_advance,
      length]
    rfl
  | not => exact absurd rfl signed

theorem readInner_kinds {inner : Expr} (written : inner.Writable) {tokens more : List Token}
    {close : Token} (here : cursor.rest = tokens ++ close :: more)
    (h : tokens.map Token.kind = inner.kinds) (closing : close.kind = .punct .closeParen) :
    readInner cursor = .ok inner.withoutPlus (cursor.advance tokens.length) := by
  by_cases signed : ∃ sign op left right, sign ≠ .not ∧ inner = .unary sign (.binary op left right)
  · obtain ⟨sign, op, left, right, signed, rfl⟩ := signed
    exact readInner_sign written here h signed
  · have unsigned {p : Punct} (sign : p ≠ .openParen) (other : p ≠ .tilde) :
        ¬cursor.Starts [.punct p, .punct .openParen] := by
      intro starts
      obtain ⟨op, _, _, _, same, found⟩ :=
        Expr.eq_unary_of_prefix sign ((starts_iff here h _).1 starts)
      refine signed ⟨op, _, _, _, ?_, found⟩
      rintro rfl
      exact other same.symm
    have plain : inner.withoutPlus = inner := by
      unfold Expr.withoutPlus
      split
      · exact absurd ⟨.plus, _, _, _, nofun, rfl⟩ signed
      · rfl
    have follows : ∀ token ∈ (close :: more).head?, token.kind.Follows := by
      intro token found
      cases found
      rw [closing]
      exact .inr (.inl rfl)
    rw [readInner_of_unsigned (unsigned nofun nofun) (unsigned nofun nofun), plain]
    exact Expr.read_kinds written here h follows

/-- Only the word that asks for a stub is passed, and only where there is one. -/
theorem readStub_of_other {name : String} {kind : Modifier} {token : Token}
    (peek : cursor.peek? = some token)
    (other : token.kind.IsName Modifier.stubWord → Modifier.stub? name = none) :
    readStub name kind cursor = .ok kind cursor := by
  simp only [readStub, peek]
  cases stub : Modifier.stub? name with
  | none => rfl
  | some found =>
    apply if_neg
    intro word
    rw [other word] at stub
    cases stub

/-- A name and a parenthesis lead to the argument of the modifier with that name. -/
theorem read_of_name {name : String} {kind : Modifier} (known : Modifier.ofName? name = some kind)
    (starts : cursor.Starts [.name name, .punct .openParen]) :
    read cursor = readArgument name kind false (cursor.advance 2) := by
  have unsigned (p : Punct) (other : String) :
      ¬cursor.Starts [.punct p, .name other, .punct .openParen] := by
    intro signed
    cases Cursor.kind_eq_of_starts starts signed
  rw [read, Reader.bind_of_ok (readSign_of_unsigned (unsigned .dash) (unsigned .plus)),
    readUnsigned_of_name known starts]

section Argument

variable {kind : Modifier} {inner : Expr} {negated : Bool} {tokens more : List Token}
  {close : Token}

theorem readStub_kinds (here : cursor.rest = tokens ++ more)
    (h : tokens.map Token.kind = inner.kinds)
    (shows : (modified kind inner negated).ShowsSymbol) :
    readStub kind.text kind cursor = .ok kind cursor := by
  cases found : inner.kinds with
  | nil => exact absurd found inner.kinds_ne_nil
  | cons first others =>
    rw [found] at h
    obtain ⟨token, rest, rfl, same, -⟩ := List.map_eq_cons_iff.1 h
    have peek : cursor.peek? = some token := by rw [Cursor.peek?, here]; rfl
    apply readStub_of_other peek
    rintro ⟨name, named, word⟩
    rw [same] at named
    have symbol : inner = .symbol name := by
      cases inner <;> simp_all [Expr.kinds]
    exact shows name symbol word

theorem readArgument_kinds (written : inner.Writable)
    (shows : (modified kind inner negated).ShowsSymbol)
    (here : cursor.rest = tokens ++ close :: more) (h : tokens.map Token.kind = inner.kinds)
    (closing : close.kind = .punct .closeParen) :
    readArgument kind.text kind negated cursor =
      .ok (modified kind inner negated).withoutPlus (cursor.advance (tokens.length + 1)) := by
  have stub := readStub_kinds here h shows
  have read := readInner_kinds written here h closing
  exact readArgument_of_readInner here closing stub read negated

/-- Nothing is read inside empty parentheses. -/
theorem readInner_close (here : cursor.rest = close :: more)
    (closing : close.kind = .punct .closeParen) :
    readInner cursor = .error ⟨.expected .expression, cursor.span⟩ cursor := by
  have unsigned (p : Punct) (apart : p ≠ .closeParen) :
      ¬cursor.Starts [.punct p, .punct .openParen] := by
    intro starts
    rw [Cursor.Starts, here, List.map_cons, closing] at starts
    exact apart (TokenKind.punct.inj (List.cons_prefix_cons.1 starts).1)
  have same : (⟨cursor.position, close :: more, cursor.stop⟩ : Cursor) = cursor := by rw [← here]
  rw [readInner_of_unsigned (unsigned .dash (by simp)) (unsigned .plus (by simp)), Expr.read, here,
    Expr.run, closing]
  simp only [Expr.State.step, UnaryOp.ofPunct?, Expr.run.finish, Expr.State.result, same]

/-- A symbol taken for the word that asks for a stub leaves empty parentheses. -/
theorem readArgument_of_hidden (hidden : ¬(modified kind inner negated).ShowsSymbol)
    (here : cursor.rest = tokens ++ close :: more) (h : tokens.map Token.kind = inner.kinds)
    (closing : close.kind = .punct .closeParen) :
    readArgument kind.text kind negated cursor =
      .error ⟨.expected .expression, close.span⟩ (cursor.advance 1) := by
  simp only [ShowsSymbol, not_forall] at hidden
  obtain ⟨name, rfl, word, stubbed⟩ := hidden
  obtain ⟨stub, found⟩ := Option.ne_none_iff_exists'.1 stubbed
  obtain ⟨token, rfl, named⟩ := List.map_eq_singleton_iff.1 h
  have peek : cursor.peek? = some token := by rw [Cursor.peek?, here]; rfl
  have taken : token.kind.IsName Modifier.stubWord := ⟨name, named, word⟩
  have passed : readStub kind.text kind cursor = .ok stub (cursor.advance 1) := by
    simp only [readStub, peek, found, if_pos taken]
  have behind : (cursor.advance 1).rest = close :: more := by rw [Cursor.advance, here]; rfl
  have missed := readInner_close behind closing
  have span : (cursor.advance 1).span = close.span := by rw [Cursor.span, Cursor.peek?, behind]; rfl
  rw [span] at missed
  exact Reader.bind_eq_error_iff.2
    (.inr ⟨_, _, passed, Reader.bind_eq_error_iff.2 (.inl missed)⟩)

/-- The text of a modified expression leads to its argument. -/
theorem read_modified (named : kind ≠ .addressText) (here : cursor.rest = tokens ++ more)
    (h : tokens.map Token.kind = (modified kind inner negated).kinds) :
    ∃ count argument close, read cursor =
        readArgument kind.text kind negated (cursor.advance count) ∧
      (cursor.advance count).rest = argument ++ close :: more ∧
      argument.map Token.kind = inner.kinds ∧ close.kind = .punct .closeParen ∧
      count + (argument.length + 1) = tokens.length := by
  obtain ⟨front, last, rfl, front', closes⟩ := List.map_eq_append_iff.1 h
  obtain ⟨close, rfl, closing⟩ := List.map_eq_singleton_iff.1 closes
  obtain ⟨signs, rest, rfl, sign, rest'⟩ := List.map_eq_append_iff.1 front'
  obtain ⟨name, rest, rfl, naming, rest'⟩ := List.map_eq_cons_iff.1 rest'
  obtain ⟨opener, argument, rfl, opening, inside⟩ := List.map_eq_cons_iff.1 rest'
  have known := Modifier.ofName?_text named
  cases negated with
  | true =>
    obtain ⟨dash, rfl, signed⟩ := List.map_eq_singleton_iff.1 sign
    have signed : cursor.Starts [.punct .dash, .name kind.text, .punct .openParen] := by
      simp [Cursor.Starts, here, signed, naming, opening]
    have starts : (cursor.advance 1).Starts [.name kind.text, .punct .openParen] := by
      simp [Cursor.Starts, Cursor.advance, here, naming, opening]
    refine ⟨3, argument, close, ?_, ?_, inside, closing, ?_⟩
    · rw [read, Reader.bind_of_ok (readSign_of_minus signed), readUnsigned_of_name known starts,
        Cursor.advance_advance]
    · simp [Cursor.advance, here]
    · simp only [List.length_append, List.length_cons, List.length_nil]
      omega
  | false =>
    rw [List.map_eq_nil_iff.1 sign] at here ⊢
    have starts : cursor.Starts [.name kind.text, .punct .openParen] := by
      simp [Cursor.Starts, here, naming, opening]
    refine ⟨2, argument, close, read_of_name known starts, ?_, inside, closing, ?_⟩
    · simp [Cursor.advance, here]
    · simp only [List.nil_append, List.length_append, List.length_cons, List.length_nil]
      omega

end Argument

/-- The tokens of the text of an operand expression are read as that expression, but for a plus
sign in front of a binary operation. -/
theorem read_text {expr : OperandExpr} (written : expr.Writable) (shows : expr.ShowsSymbol)
    {tokens more : List Token} (here : cursor.rest = tokens ++ more)
    (h : tokens.map Token.kind = expr.kinds)
    (follows : ∀ token ∈ more.head?, token.kind.Follows) :
    read cursor = .ok expr.withoutPlus (cursor.advance tokens.length) := by
  cases expr with
  | plain expr =>
    have apart : (more.map Token.kind).head? ≠ some (.punct .openParen) := by
      intro found
      rw [List.head?_map, Option.map_eq_some_iff] at found
      obtain ⟨token, first, same⟩ := found
      have follow := follows token first
      rw [same] at follow
      rcases follow with h | h | h <;> cases h
    have unsigned {p : Punct} (sign : p ≠ .openParen) (name : String) :
        ¬cursor.Starts [.punct p, .name name, .punct .openParen] :=
      mt (starts_iff here h _).1 (Expr.sign_not_prefix apart sign expr)
    have unnamed (name : String) : ¬cursor.Starts [.name name, .punct .openParen] :=
      mt (starts_iff here h _).1 (Expr.name_not_prefix apart expr)
    have unhalved {p : Punct} (half : p = .less ∨ p = .greater) : ¬cursor.Starts [.punct p] :=
      mt (starts_iff here h _).1 (Expr.half_not_prefix half expr)
    have inner := Expr.read_kinds written here h follows
    rw [read, Reader.bind_of_ok (readSign_of_unsigned (unsigned nofun) (unsigned nofun)),
      readUnsigned_of_plain (unhalved (.inl rfl)) (unhalved (.inr rfl)) unnamed,
      readUnsigned.plainExpr, Reader.bind_of_ok inner]
    rfl
  | modified kind inner negated =>
    obtain ⟨count, argument, close, read, behind, inside, closing, length⟩ :=
      read_modified written.1 here h
    rw [read, readArgument_kinds written.2 shows behind inside closing, Cursor.advance_advance,
      length]

/-- Nothing is read where a symbol is taken for the word that asks for a stub. -/
theorem read_text_of_hidden {expr : OperandExpr} (written : expr.Writable)
    (hidden : ¬expr.ShowsSymbol) {tokens more : List Token} (here : cursor.rest = tokens ++ more)
    (h : tokens.map Token.kind = expr.kinds) :
    ∃ span after, read cursor = .error ⟨.expected .expression, span⟩ after := by
  cases expr with
  | plain expr => exact absurd trivial hidden
  | modified kind inner negated =>
    obtain ⟨count, argument, close, read, behind, inside, closing, -⟩ :=
      read_modified written.1 here h
    exact ⟨_, _, by rw [read, readArgument_of_hidden hidden behind inside closing]⟩

theorem read_of_keepsText {expr : OperandExpr} (written : expr.Writable) (keeps : expr.KeepsText)
    {tokens more : List Token} (here : cursor.rest = tokens ++ more)
    (h : tokens.map Token.kind = expr.kinds)
    (follows : ∀ token ∈ more.head?, token.kind.Follows) :
    read cursor = .ok expr (cursor.advance tokens.length) := by
  obtain ⟨same, shows⟩ := keepsText_iff.1 keeps
  rw [read_text written shows here h follows, same]

/-- What is read as the same operand expression shows all of it. -/
theorem keepsText_of_read {expr : OperandExpr} (written : expr.Writable)
    {tokens more : List Token} (here : cursor.rest = tokens ++ more)
    (h : tokens.map Token.kind = expr.kinds) {after : Cursor}
    (found : read cursor = .ok expr after) : expr.KeepsText := by
  by_cases shows : expr.ShowsSymbol
  · cases expr with
    | plain expr => trivial
    | modified kind inner negated =>
      obtain ⟨count, argument, close, read, behind, inside, closing, -⟩ :=
        read_modified written.1 here h
      rw [read, readArgument_kinds written.2 shows behind inside closing] at found
      exact keepsText_iff.2 ⟨(EStateM.Result.ok.inj found).1, shows⟩
  · obtain ⟨_, _, failed⟩ := read_text_of_hidden written shows here h
    cases found.symm.trans failed

end OperandExpr

end Asm65
