import Asm65.Cursor
import Asm65.Expr

/-!
# Reading expressions

An expression is read one token at a time. The machine keeps the operators
that wait for their right operand, innermost first, and the operand to their
right once it is complete.

## Implementation notes

A prefix operator is applied as soon as its operand is complete. A binary
operator first applies the waiting ones that bind at least as tightly, so
operators of one level group to the left. The first token that continues no
expression stops the machine and is not read.
-/

namespace Asm65

/-- The prefix operator a token stands for. -/
def UnaryOp.ofPunct? : Punct → Option UnaryOp
  | .dash => some .neg
  | .plus => some .plus
  | .tilde => some .not
  | _ => none

/-- The binary operator a token stands for. -/
def BinaryOp.ofPunct? : Punct → Option BinaryOp
  | .pipe => some .or
  | .caret => some .xor
  | .amp => some .and
  | .shl => some .shl
  | .shr => some .shr
  | .plus => some .add
  | .dash => some .sub
  | .star => some .mul
  | .slash => some .div
  | .percent => some .mod
  | _ => none

namespace Expr

/-- What waits for an operand to its right. -/
inductive Pending
  | unary (op : UnaryOp)
  | binary (left : Expr) (op : BinaryOp)
  | group
deriving DecidableEq

/-- The state between two tokens of an expression. -/
inductive State
  /-- An operand must follow. -/
  | operand (stack : List Pending)
  /-- A complete operand has been read. -/
  | operator (stack : List Pending) (value : Expr)
deriving DecidableEq

/-- What a token does to the state. -/
inductive Move
  | shift (state : State)
  | outOfRange
  | stop
deriving DecidableEq

/-- A complete operand, with the prefix operators before it applied. -/
def complete : List Pending → Expr → State
  | .unary op :: stack, value => complete stack (.unary op value)
  | stack, value => .operator stack value

/-- Applies the waiting binary operators that bind at least as tightly as a level. -/
def reduce (level : Nat) : List Pending → Expr → List Pending × Expr
  | .binary left op :: stack, value =>
    if level ≤ op.precedence then reduce level stack (.binary op left value)
    else (.binary left op :: stack, value)
  | stack, value => (stack, value)

namespace State

/-- One step of the machine. -/
def step : State → TokenKind → Move
  | operand stack, kind =>
    match kind with
    | .number .. | .char _ =>
      match kind.value? with
      | some n => .shift (complete stack (.constant (Int64.ofNat n)))
      | none => .outOfRange
    | .name name => .shift (complete stack (.symbol name))
    | .punct .openParen => .shift (operand (.group :: stack))
    | .punct p =>
      match UnaryOp.ofPunct? p with
      | some op => .shift (operand (.unary op :: stack))
      | none => .stop
    | .endOfStatement | .unknown _ => .stop
  | operator stack value, .punct .closeParen =>
    match reduce 0 stack value with
    | (.group :: outer, value) => .shift (complete outer value)
    | _ => .stop
  | operator stack value, .punct p =>
    match BinaryOp.ofPunct? p with
    | some op =>
      let reduced := reduce op.precedence stack value
      .shift (operand (.binary reduced.2 op :: reduced.1))
    | none => .stop
  | operator .., _ => .stop

/-- Only numbers are out of range: every character has a value. -/
theorem exists_number_of_outOfRange {state : State} {kind : TokenKind}
    (h : state.step kind = .outOfRange) :
    ∃ radix numeral, kind = .number radix numeral ∧ kind.value? = none := by
  unfold step at h
  split at h
  · split at h
    · split at h
      · cases h
      · next valueless => exact ⟨_, _, rfl, valueless⟩
    · cases h
    · cases h
    · cases h
    · split at h <;> cases h
    · cases h
    · cases h
  · split at h <;> cases h
  · split at h <;> cases h
  · cases h

/-- How many more tokens the machine needs at least. -/
def need : State → Nat
  | operand _ => 1
  | operator .. => 0

theorem need_le_one (state : State) : state.need ≤ 1 := by
  cases state
  · exact Nat.le_refl 1
  · exact Nat.zero_le 1

/-- The expression read when no further token belongs to it. -/
def result : State → Except Expected Expr
  | operand _ => .error .expression
  | operator stack value =>
    match reduce 0 stack value with
    | ([], value) => .ok value
    | _ => .error .closeParen

end State

/-- Runs the machine on the tokens from a place on. -/
def run (stop : Nat) : State → Nat → List Token → EStateM.Result Diagnostic Cursor Expr
  | state, position, [] => finish state ⟨position, [], stop⟩
  | state, position, token :: rest =>
    match state.step token.kind with
    | .shift state => run stop state (position + 1) rest
    | .outOfRange => .error ⟨.literalRange, token.span⟩ ⟨position + 1, rest, stop⟩
    | .stop => finish state ⟨position, token :: rest, stop⟩
where
  finish (state : State) (cursor : Cursor) : EStateM.Result Diagnostic Cursor Expr :=
    match state.result with
    | .ok value => .ok value cursor
    | .error what => .error ⟨.expected what, cursor.span⟩ cursor

/-- At its end, the machine fails only for what it still expects. -/
theorem exists_expected_of_finish {state : State} {cursor now : Cursor} {diagnostic : Diagnostic}
    (failed : run.finish state cursor = .error diagnostic now) :
    ∃ what, diagnostic = ⟨.expected what, cursor.span⟩ := by
  unfold run.finish at failed
  split at failed
  · cases failed
  · cases failed
    exact ⟨_, rfl⟩

theorem finish_passes (state : State) (cursor : Cursor) :
    Reader.Passed state.need cursor (run.finish state cursor) := by
  unfold run.finish
  cases state with
  | operand stack => exact Cursor.LaterBy.refl cursor
  | operator stack value =>
    cases (State.operator stack value).result with
    | ok value => exact Cursor.LaterBy.refl cursor
    | error what => exact Cursor.LaterBy.refl cursor

theorem run_passes (stop : Nat) (state : State) (position : Nat) (tokens : List Token) :
    Reader.Passed state.need ⟨position, tokens, stop⟩ (run stop state position tokens) := by
  induction tokens generalizing state position with
  | nil => exact finish_passes state _
  | cons token rest ih =>
    have behind : Cursor.LaterBy 1 ⟨position, token :: rest, stop⟩ ⟨position + 1, rest, stop⟩ :=
      Cursor.laterBy_advance (Nat.succ_le_succ (Nat.zero_le rest.length))
    unfold run
    cases state.step token.kind with
    | shift state' =>
      have later := ih state' (position + 1)
      dsimp only
      cases h : run stop state' (position + 1) rest with
      | ok value now =>
        rw [h] at later
        exact (behind.trans later).mono (Nat.le_trans state.need_le_one (Nat.le_add_right 1 _))
      | error diagnostic now =>
        rw [h] at later
        exact (behind.mono (Nat.zero_le 1)).trans later
    | outOfRange => exact behind.mono (Nat.zero_le 1)
    | stop => exact finish_passes state _

/-- Reads the longest expression at the cursor. -/
def read : Reader Expr := fun cursor =>
  run cursor.stop (.operand []) cursor.position cursor.rest

theorem passes_read : Reader.Passes 1 read :=
  fun start => run_passes start.stop (.operand []) start.position start.rest

end Expr

end Asm65
