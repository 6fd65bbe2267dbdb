import Asm65.Proofs.Alignment.OperandExpr
import Asm65.Proofs.LetterCase

/-!
# Expressions in lower case

The readers of expressions and of modifiers give on tokens in lower case what
they give on the tokens themselves, in lower case and at the same place.

## Implementation notes

`Reader.Lowers` compares two readers, since some take a name that was read
before, which one of them has in lower case.
-/

namespace Asm65

namespace Cursor

variable {cursor : Cursor}

theorem advance_toLower (cursor : Cursor) (count : Nat) :
    cursor.toLower.advance count = (cursor.advance count).toLower := by
  simp only [toLower, advance, List.map_drop]

theorem peek?_toLower (cursor : Cursor) : cursor.toLower.peek? = cursor.peek?.map Token.toLower :=
  List.head?_map

theorem span_toLower (cursor : Cursor) : cursor.toLower.span = cursor.span := by
  simp only [span, peek?_toLower]
  cases cursor.peek? <;> rfl

theorem spanSince_toLower (start now : Cursor) :
    start.toLower.spanSince now.toLower = start.spanSince now := by
  obtain ⟨position, rest, stop⟩ := start
  cases rest with
  | nil => exact span_toLower now
  | cons first rest =>
    simp only [spanSince, toLower, List.map_cons]
    rw [← List.map_cons, ← List.map_take, List.getLast?_map]
    cases List.getLast? _ <;> rfl

theorem starts_toLower_iff {kinds : List TokenKind} : cursor.toLower.Starts kinds ↔
    ∃ spelled, cursor.Starts spelled ∧ spelled.map TokenKind.toLower = kinds := by
  have same : cursor.toLower.rest.map Token.kind =
      (cursor.rest.map Token.kind).map TokenKind.toLower := by
    simp only [toLower, List.map_map, Function.comp_def, Token.kind_toLower]
  rw [Starts, same, List.prefix_map_iff]
  simp only [Starts, eq_comm]

theorem Starts.toLower {kinds : List TokenKind} (h : cursor.Starts kinds) :
    cursor.toLower.Starts (kinds.map TokenKind.toLower) :=
  starts_toLower_iff.2 ⟨kinds, h, rfl⟩

theorem starts_puncts_toLower_iff (puncts : List Punct) :
    cursor.toLower.Starts (puncts.map .punct) ↔ cursor.Starts (puncts.map .punct) := by
  have kept (spelled : List TokenKind) :
      spelled.map TokenKind.toLower = puncts.map .punct ↔ spelled = puncts.map .punct := by
    induction puncts generalizing spelled with
    | nil => simp
    | cons p puncts ih => cases spelled <;> simp [TokenKind.toLower_eq_punct_iff, ih]
  simp only [starts_toLower_iff, kept, exists_eq_right]

theorem exists_starts_name_toLower_iff {p : Punct} :
    (∃ name, cursor.toLower.Starts [.name name, .punct p]) ↔
      ∃ name, cursor.Starts [.name name, .punct p] := by
  simp [starts_toLower_iff, List.map_eq_cons_iff, TokenKind.toLower_eq_punct_iff,
    TokenKind.toLower_eq_name_iff]

theorem exists_starts_signed_toLower_iff {sign p : Punct} :
    (∃ name, cursor.toLower.Starts [.punct sign, .name name, .punct p]) ↔
      ∃ name, cursor.Starts [.punct sign, .name name, .punct p] := by
  simp [starts_toLower_iff, List.map_eq_cons_iff, TokenKind.toLower_eq_punct_iff,
    TokenKind.toLower_eq_name_iff]

end Cursor

namespace Reader

variable {α β : Type} {f : α → α} {g : β → β}

/-- A result in lower case, with the way its value is lowered. -/
def lower (f : α → α) :
    EStateM.Result Diagnostic Cursor α → EStateM.Result Diagnostic Cursor α
  | .ok value after => .ok (f value) after.toLower
  | .error diagnostic after => .error diagnostic.toLower after.toLower

/-- On tokens in lower case, the second reader gives what the first gives on the tokens. -/
def Lowers (f : α → α) (reader reader' : Reader α) : Prop :=
  ∀ cursor, reader' cursor.toLower = lower f (reader cursor)

theorem lowers_pure (f : α → α) (value : α) : Lowers f (pure value) (pure (f value)) :=
  fun _ => rfl

theorem Lowers.bind {reader reader' : Reader α} {next next' : α → Reader β}
    (first : Lowers f reader reader') (rest : ∀ value, Lowers g (next value) (next' (f value))) :
    Lowers g (reader >>= next) (reader' >>= next') := by
  intro cursor
  change EStateM.bind reader' next' cursor.toLower = lower g (EStateM.bind reader next cursor)
  unfold EStateM.bind
  rw [first cursor]
  cases reader cursor with
  | ok value after => exact rest value after
  | error diagnostic after => rfl

theorem lowers_expect (p : Punct) (what : Expected) :
    Lowers id (expect (.punct p) what) (expect (.punct p) what) := by
  intro cursor
  simp only [expect, Cursor.accept, Cursor.peek?_toLower, fail, Cursor.span_toLower]
  cases cursor.peek? with
  | none => rfl
  | some token =>
    simp only [Option.map_some, Token.kind_toLower, TokenKind.toLower_eq_punct_iff,
      Cursor.advance_toLower]
    by_cases same : token.kind = .punct p
    · simp only [if_pos same]
      rfl
    · simp only [if_neg same]
      rfl

end Reader

namespace Expr

/-- What waits for an operand, in lower case. -/
def Pending.toLower : Pending → Pending
  | unary op => unary op
  | binary left op => binary left.toLower op
  | group => group

/-- A state in lower case. -/
def State.toLower : State → State
  | operand stack => operand (stack.map Pending.toLower)
  | operator stack value => operator (stack.map Pending.toLower) value.toLower

/-- A move to a state in lower case. -/
def Move.toLower : Move → Move
  | shift state => shift state.toLower
  | outOfRange => outOfRange
  | stop => stop

theorem complete_toLower (stack : List Pending) (value : Expr) :
    complete (stack.map Pending.toLower) value.toLower = (complete stack value).toLower := by
  induction stack generalizing value with
  | nil => rfl
  | cons pending stack ih =>
    cases pending with
    | unary op => exact ih (.unary op value)
    | binary | group => rfl

theorem reduce_toLower (level : Nat) (stack : List Pending) (value : Expr) :
    reduce level (stack.map Pending.toLower) value.toLower =
      ((reduce level stack value).1.map Pending.toLower, (reduce level stack value).2.toLower) := by
  induction stack generalizing value with
  | nil => rfl
  | cons pending stack ih =>
    cases pending with
    | unary | group => rfl
    | binary left op =>
      simp only [List.map_cons, Pending.toLower, reduce]
      split
      · exact ih (.binary op left value)
      · rfl

namespace State

theorem step_toLower (state : State) (kind : TokenKind) :
    state.toLower.step kind.toLower = (state.step kind).toLower := by
  cases state with
  | operand stack =>
    cases kind with
    | endOfStatement | unknown => rfl
    | name text => exact congrArg Move.shift (complete_toLower stack (.symbol text))
    | number radix numeral =>
      have value := TokenKind.value?_toLower (.number radix numeral)
      simp only [TokenKind.toLower] at value
      simp only [toLower, TokenKind.toLower, step, value]
      cases TokenKind.value? (.number radix numeral) with
      | none => rfl
      | some n => exact congrArg Move.shift (complete_toLower stack (.constant _))
    | char c => exact congrArg Move.shift (complete_toLower stack (.constant _))
    | punct p => cases p <;> rfl
  | operator stack value =>
    cases kind with
    | endOfStatement | unknown | name | number | char => rfl
    | punct p =>
      by_cases close : p = .closeParen
      · subst close
        simp only [toLower, TokenKind.toLower, step, reduce_toLower]
        rcases reduce 0 stack value with ⟨_ | ⟨_ | _ | _, outer⟩, inner⟩
        case group => exact congrArg Move.shift (complete_toLower outer inner)
        all_goals rfl
      · simp only [toLower, TokenKind.toLower, step, reduce_toLower]
        cases BinaryOp.ofPunct? p <;> rfl

theorem result_toLower (state : State) :
    state.toLower.result = state.result.map Expr.toLower := by
  cases state with
  | operand stack => rfl
  | operator stack value =>
    simp only [toLower, result, reduce_toLower]
    rcases reduce 0 stack value with ⟨_ | ⟨_, _⟩, inner⟩ <;> rfl

end State

theorem finish_toLower (state : State) (cursor : Cursor) :
    run.finish state.toLower cursor.toLower =
      Reader.lower Expr.toLower (run.finish state cursor) := by
  simp only [run.finish, State.result_toLower, Cursor.span_toLower]
  cases state.result <;> rfl

theorem run_toLower (stop : Nat) (state : State) (position : Nat) (tokens : List Token) :
    run stop state.toLower position (tokens.map Token.toLower) =
      Reader.lower Expr.toLower (run stop state position tokens) := by
  induction tokens generalizing state position with
  | nil => exact finish_toLower state ⟨position, [], stop⟩
  | cons token rest ih =>
    simp only [List.map_cons, run, Token.kind_toLower, State.step_toLower]
    cases state.step token.kind with
    | shift state' => exact ih state' (position + 1)
    | outOfRange => rfl
    | stop => exact finish_toLower state ⟨position, token :: rest, stop⟩

theorem lowers_read : Reader.Lowers Expr.toLower read read :=
  fun cursor => run_toLower cursor.stop (.operand []) cursor.position cursor.rest

end Expr

namespace Modifier

theorem ofName?_toLower (name : String) : ofName? name.toLower = ofName? name := by
  rw [ofName?, Text.toLower_toLower, ofName?]

theorem stub?_toLower (name : String) : stub? name.toLower = stub? name := by
  unfold stub? ofName?
  simp only [Text.toLower_append, Text.toLower_toLower]

end Modifier

namespace OperandExpr

theorem lowers_readSign : Reader.Lowers id readSign readSign := by
  intro cursor
  by_cases minus : ∃ name, cursor.Starts [.punct .dash, .name name, .punct .openParen]
  · obtain ⟨name, here⟩ := minus
    rw [readSign_of_minus here, readSign_of_minus here.toLower, Cursor.advance_toLower]
    rfl
  · by_cases plus : ∃ name, cursor.Starts [.punct .plus, .name name, .punct .openParen]
    · obtain ⟨name, here⟩ := plus
      rw [readSign_of_plus here, readSign_of_plus here.toLower, Cursor.advance_toLower]
      rfl
    · have minus' := mt Cursor.exists_starts_signed_toLower_iff.1 minus
      have plus' := mt Cursor.exists_starts_signed_toLower_iff.1 plus
      rw [readSign_of_unsigned (not_exists.1 minus) (not_exists.1 plus),
        readSign_of_unsigned (not_exists.1 minus') (not_exists.1 plus')]
      rfl

theorem lowers_readStub (name : String) (kind : Modifier) :
    Reader.Lowers id (readStub name kind) (readStub name.toLower kind) := by
  intro cursor
  simp only [readStub, Cursor.peek?_toLower, Modifier.stub?_toLower]
  cases cursor.peek? with
  | none => rfl
  | some token =>
    cases Modifier.stub? name with
    | none => rfl
    | some stub =>
      simp only [Option.map_some, Token.kind_toLower, TokenKind.isName_toLower_iff,
        Cursor.advance_toLower]
      split <;> rfl

theorem lowers_readClose : Reader.Lowers id readClose readClose :=
  Reader.lowers_expect .closeParen .closeParen

theorem lowers_group (sign : Expr → Expr)
    (same : ∀ expr : Expr, sign expr.toLower = (sign expr).toLower) :
    Reader.Lowers Expr.toLower (readInner.group sign) (readInner.group sign) :=
  Expr.lowers_read.bind fun expr => lowers_readClose.bind fun _ => by
    rw [same]
    exact Reader.lowers_pure Expr.toLower (sign expr)

theorem lowers_readInner : Reader.Lowers Expr.toLower readInner readInner := by
  intro cursor
  by_cases minus : cursor.Starts [.punct .dash, .punct .openParen]
  · rw [readInner_of_minus minus, readInner_of_minus minus.toLower, Cursor.advance_toLower]
    exact lowers_group (.unary .neg) (fun _ => rfl) _
  · by_cases plus : cursor.Starts [.punct .plus, .punct .openParen]
    · rw [readInner_of_plus plus, readInner_of_plus plus.toLower, Cursor.advance_toLower]
      exact lowers_group id (fun _ => rfl) _
    · rw [readInner_of_unsigned minus plus,
        readInner_of_unsigned (mt (Cursor.starts_puncts_toLower_iff [.dash, .openParen]).1 minus)
          (mt (Cursor.starts_puncts_toLower_iff [.plus, .openParen]).1 plus)]
      exact Expr.lowers_read cursor

theorem lowers_readArgument (name : String) (kind : Modifier) (negated : Bool) :
    Reader.Lowers toLower (readArgument name kind negated)
      (readArgument name.toLower kind negated) :=
  (lowers_readStub name kind).bind fun _ => lowers_readInner.bind fun expr =>
    lowers_readClose.bind fun _ => Reader.lowers_pure toLower (.modified _ expr negated)

theorem lowers_half (negated : Bool) (kind : Modifier) :
    Reader.Lowers toLower (readUnsigned.half negated kind) (readUnsigned.half negated kind) :=
  Expr.lowers_read.bind fun expr => Reader.lowers_pure toLower (.modified kind expr negated)

theorem lowers_plainExpr : Reader.Lowers toLower readUnsigned.plainExpr readUnsigned.plainExpr :=
  Expr.lowers_read.bind fun expr => Reader.lowers_pure toLower (.plain expr)

theorem lowers_readUnsigned (negated : Bool) :
    Reader.Lowers toLower (readUnsigned negated) (readUnsigned negated) := by
  intro cursor
  by_cases less : cursor.Starts [.punct .less]
  · rw [readUnsigned_of_less less, readUnsigned_of_less less.toLower, Cursor.advance_toLower]
    exact lowers_half _ _ _
  by_cases greater : cursor.Starts [.punct .greater]
  · rw [readUnsigned_of_greater greater, readUnsigned_of_greater greater.toLower,
      Cursor.advance_toLower]
    exact lowers_half _ _ _
  by_cases named : ∃ name, cursor.Starts [.name name, .punct .openParen]
  · obtain ⟨name, here⟩ := named
    have known' := Modifier.ofName?_toLower name
    cases known : Modifier.ofName? name with
    | some kind =>
      rw [readUnsigned_of_name known here,
        readUnsigned_of_name (known'.trans known) here.toLower, Cursor.advance_toLower]
      exact lowers_readArgument _ _ _ _
    | none =>
      rw [readUnsigned_of_unknown known here,
        readUnsigned_of_unknown (known'.trans known) here.toLower, Cursor.span_toLower]
      rfl
  · have named' := mt Cursor.exists_starts_name_toLower_iff.1 named
    rw [readUnsigned_of_plain less greater (not_exists.1 named),
      readUnsigned_of_plain (mt (Cursor.starts_puncts_toLower_iff [.less]).1 less)
        (mt (Cursor.starts_puncts_toLower_iff [.greater]).1 greater) (not_exists.1 named')]
    exact lowers_plainExpr cursor

/-- An operand expression in lower case is read from tokens in lower case. -/
theorem lowers_read : Reader.Lowers toLower read read :=
  lowers_readSign.bind lowers_readUnsigned

end OperandExpr

end Asm65
