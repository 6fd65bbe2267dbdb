import Asm65.Diagnostic
import Asm65.Token

/-!
# Cursors

A place in a list of tokens: what is still to be read, how many tokens came
before, and where the text ends. Readers take a cursor to a value or a
diagnostic, and in both cases to the cursor afterwards.

## Implementation notes

The tokens before a cursor are not kept. A span over tokens already read is
computed from the cursor they were read from (`spanSince`).
-/

namespace Asm65

/-- A place in a list of tokens. -/
structure Cursor where
  /-- The number of tokens before this place. -/
  position : Nat
  /-- The tokens from this place on. -/
  rest : List Token
  /-- The offset where the last token of the list ends. -/
  stop : Nat
deriving DecidableEq

namespace Cursor

/-- The offset where the last token of a list ends. -/
def stopOf (tokens : List Token) : Nat :=
  (tokens.getLast?.map fun token => token.span.stop).getD 0

/-- The place before the token with an index, or behind all tokens. -/
def atIndex (tokens : List Token) (position : Nat) : Cursor :=
  ⟨position, tokens.drop position, stopOf tokens⟩

/-- The place before the first token. -/
def ofTokens (tokens : List Token) : Cursor :=
  atIndex tokens 0

/-- The place some tokens further on. -/
def advance (cursor : Cursor) (count : Nat) : Cursor :=
  ⟨cursor.position + count, cursor.rest.drop count, cursor.stop⟩

theorem advance_advance (cursor : Cursor) (first second : Nat) :
    (cursor.advance first).advance second = cursor.advance (first + second) := by
  simp [advance, Nat.add_assoc]

theorem atIndex_advance (tokens : List Token) (position count : Nat) :
    (atIndex tokens position).advance count = atIndex tokens (position + count) := by
  simp [atIndex, advance]

/-- What follows some tokens is left behind them. -/
theorem rest_advance {cursor : Cursor} {tokens more : List Token}
    (here : cursor.rest = tokens ++ more) : (cursor.advance tokens.length).rest = more := by
  rw [advance, here, List.drop_left]

/-- One place stands behind another by at least a number of tokens. -/
def LaterBy (least : Nat) (start now : Cursor) : Prop :=
  ∃ count, least ≤ count ∧ count ≤ start.rest.length ∧ now = start.advance count

theorem LaterBy.refl (cursor : Cursor) : LaterBy 0 cursor cursor :=
  ⟨0, Nat.le_refl 0, Nat.zero_le _, rfl⟩

theorem LaterBy.mono {least least' : Nat} {start now : Cursor} (h : least' ≤ least)
    (later : LaterBy least start now) : LaterBy least' start now := by
  obtain ⟨count, enough, bound, same⟩ := later
  exact ⟨count, Nat.le_trans h enough, bound, same⟩

theorem LaterBy.trans {least least' : Nat} {start middle now : Cursor}
    (first : LaterBy least start middle) (second : LaterBy least' middle now) :
    LaterBy (least + least') start now := by
  obtain ⟨count, enough, bound, rfl⟩ := first
  obtain ⟨count', enough', bound', rfl⟩ := second
  refine ⟨count + count', Nat.add_le_add enough enough', ?_, advance_advance start count count'⟩
  simp only [advance, List.length_drop] at bound'
  omega

theorem laterBy_advance {cursor : Cursor} {count : Nat} (h : count ≤ cursor.rest.length) :
    LaterBy count cursor (cursor.advance count) :=
  ⟨count, Nat.le_refl count, h, rfl⟩

theorem LaterBy.length_le {least : Nat} {start now : Cursor} (later : LaterBy least start now) :
    now.rest.length + least ≤ start.rest.length := by
  obtain ⟨count, enough, bound, rfl⟩ := later
  simp only [advance, List.length_drop]
  omega

theorem LaterBy.subset {least : Nat} {start now : Cursor} (later : LaterBy least start now) :
    now.rest ⊆ start.rest := by
  obtain ⟨count, -, -, rfl⟩ := later
  exact List.drop_subset count start.rest

/-- The token at the cursor. -/
def peek? (cursor : Cursor) : Option Token :=
  cursor.rest.head?

theorem laterBy_advance_one {cursor : Cursor} {token : Token} (h : cursor.peek? = some token) :
    LaterBy 1 cursor (cursor.advance 1) := by
  apply laterBy_advance
  cases rest : cursor.rest with
  | nil => simp [peek?, rest] at h
  | cons => simp

/-- The token that stands some tokens after the one at the cursor. -/
def peekNth? (cursor : Cursor) (n : Nat) : Option Token :=
  cursor.rest[n]?

/-- Whether all tokens are read. -/
def isEmpty (cursor : Cursor) : Bool :=
  cursor.rest.isEmpty

/-- Whether no token of the statement is left. -/
def AtEndOfStatement (cursor : Cursor) : Prop :=
  ∀ token ∈ cursor.peek?, token.kind = .endOfStatement

instance (cursor : Cursor) : Decidable cursor.AtEndOfStatement :=
  match h : cursor.peek? with
  | none => .isTrue (by simp [AtEndOfStatement, h])
  | some token =>
    if h' : token.kind = .endOfStatement then .isTrue (by simp [AtEndOfStatement, h, h'])
    else .isFalse (by simp [AtEndOfStatement, h, h'])

theorem exists_peek_of_inside {cursor : Cursor} (h : ¬cursor.AtEndOfStatement) :
    ∃ token, cursor.peek? = some token ∧ token.kind ≠ .endOfStatement := by
  simpa [AtEndOfStatement] using h

/-- The token at the cursor, with the cursor behind it. -/
def next (cursor : Cursor) : Option Token × Cursor :=
  match cursor.peek? with
  | some token => (some token, cursor.advance 1)
  | none => (none, cursor)

theorem laterBy_next (cursor : Cursor) : LaterBy 0 cursor cursor.next.2 := by
  unfold next
  cases h : cursor.peek? with
  | none => exact LaterBy.refl cursor
  | some token => exact (laterBy_advance_one h).mono (Nat.zero_le 1)

/-- Passes the token at the cursor if it is of a kind. -/
def accept (cursor : Cursor) (kind : TokenKind) : Option Token × Cursor :=
  match cursor.peek? with
  | some token => if token.kind = kind then (some token, cursor.advance 1) else (none, cursor)
  | none => (none, cursor)

/-- The number of tokens up to the end of a statement, which is counted too. -/
def statementLength : List Token → Nat
  | [] => 0
  | token :: rest => if token.kind = .endOfStatement then 1 else statementLength rest + 1

theorem statementLength_le (tokens : List Token) : statementLength tokens ≤ tokens.length := by
  induction tokens with
  | nil => exact Nat.le_refl 0
  | cons token rest ih =>
    rw [statementLength, List.length_cons]
    split <;> omega

theorem statementLength_pos {tokens : List Token} (h : tokens ≠ []) :
    0 < statementLength tokens := by
  cases tokens with
  | nil => exact absurd rfl h
  | cons token rest =>
    rw [statementLength]
    split <;> omega

/-- The place after the next end of statement. -/
def skipStatement (cursor : Cursor) : Cursor :=
  cursor.advance (statementLength cursor.rest)

theorem laterBy_skipStatement (cursor : Cursor) :
    LaterBy (statementLength cursor.rest) cursor cursor.skipStatement :=
  laterBy_advance (statementLength_le cursor.rest)

/-- The span of the token at the cursor, or an empty one at the end. -/
def span (cursor : Cursor) : Span :=
  match cursor.peek? with
  | some token => token.span
  | none => .empty cursor.stop

/-- The span of the tokens read between two places in the same list. The tokens of a source stand
in order, so the last one does not end before the first one starts (`Checked.spanSince_eq`). -/
def spanSince (start now : Cursor) : Span :=
  match start.rest with
  | [] => now.span
  | first :: _ =>
    match (start.rest.take (now.position - start.position)).getLast? with
    | none => .empty first.span.offset
    | some last => first.span.through last.span

end Cursor

/-- A reader of tokens. The cursor afterwards is known whether it succeeds or fails. -/
abbrev Reader (α : Type) : Type :=
  EStateM Diagnostic Cursor α

namespace Reader

variable {α β : Type}

theorem bind_of_ok {reader : Reader α} {start middle : Cursor} {value : α}
    (h : reader start = .ok value middle) (next : α → Reader β) :
    (reader >>= next) start = next value middle := by
  change EStateM.bind reader next start = _
  rw [EStateM.bind, h]

theorem bind_eq_ok_iff {reader : Reader α} {next : α → Reader β} {start stop : Cursor} {value : β} :
    (reader >>= next) start = .ok value stop ↔
      ∃ first middle, reader start = .ok first middle ∧ next first middle = .ok value stop := by
  change EStateM.bind reader next start = _ ↔ _
  unfold EStateM.bind
  cases h : reader start with
  | ok first middle =>
    constructor
    · intro read
      exact ⟨first, middle, by simpa using read⟩
    · rintro ⟨_, _, same, read⟩
      cases same
      exact read
  | error diagnostic middle => simp

theorem bind_eq_error_iff {reader : Reader α} {next : α → Reader β} {start stop : Cursor}
    {diagnostic : Diagnostic} :
    (reader >>= next) start = .error diagnostic stop ↔
      reader start = .error diagnostic stop ∨
        ∃ first middle, reader start = .ok first middle ∧
          next first middle = .error diagnostic stop := by
  change EStateM.bind reader next start = _ ↔ _
  unfold EStateM.bind
  cases h : reader start with
  | ok first middle =>
    constructor
    · intro read
      exact Or.inr ⟨first, middle, by simpa using read⟩
    · rintro (failed | ⟨_, _, same, read⟩)
      · cases failed
      · cases same
        exact read
  | error diagnostic middle => simp

/-- A result stands behind a place: on success by at least a number of tokens. -/
def Passed (least : Nat) (start : Cursor) : EStateM.Result Diagnostic Cursor α → Prop
  | .ok _ now => Cursor.LaterBy least start now
  | .error _ now => Cursor.LaterBy 0 start now

/-- A reader passes at least a number of tokens when it succeeds, and never goes back. -/
def Passes (least : Nat) (reader : Reader α) : Prop :=
  ∀ start, Passed least start (reader start)

theorem Passes.of_ok {least : Nat} {reader : Reader α} (passes : Passes least reader)
    {start now : Cursor} {value : α} (h : reader start = .ok value now) :
    Cursor.LaterBy least start now := by
  have := passes start
  rwa [h] at this

theorem Passes.of_error {least : Nat} {reader : Reader α} (passes : Passes least reader)
    {start now : Cursor} {diagnostic : Diagnostic} (h : reader start = .error diagnostic now) :
    Cursor.LaterBy 0 start now := by
  have := passes start
  rwa [h] at this

/-- A reader that starts at a later place has passed the tokens before it too. -/
theorem Passed.after {least needed passed : Nat} {reader : Reader α} {start middle : Cursor}
    (later : Cursor.LaterBy passed start middle) (enough : needed ≤ passed + least)
    (passes : Passes least reader) : Passed needed start (reader middle) := by
  have read := passes middle
  cases h : reader middle with
  | ok value now =>
    rw [h] at read
    exact (later.trans read).mono enough
  | error diagnostic now =>
    rw [h] at read
    exact (later.mono (Nat.zero_le passed)).trans read

theorem passes_pure (value : α) : Passes 0 (pure value : Reader α) :=
  fun start => Cursor.LaterBy.refl start

theorem Passes.bind {least least' : Nat} {reader : Reader α} {next : α → Reader β}
    (passes : Passes least reader) (rest : ∀ value, Passes least' (next value)) :
    Passes (least + least') (reader >>= next) := by
  intro start
  cases h : (reader >>= next) start with
  | ok value now =>
    obtain ⟨first, middle, read, read'⟩ := bind_eq_ok_iff.1 h
    exact (passes.of_ok read).trans ((rest first).of_ok read')
  | error diagnostic now =>
    rcases bind_eq_error_iff.1 h with failed | ⟨first, middle, read, failed⟩
    · exact passes.of_error failed
    · exact ((passes.of_ok read).mono (Nat.zero_le least)).trans ((rest first).of_error failed)

/-- Fails at the cursor because something else was expected. -/
def fail (what : Expected) : Reader α := fun cursor =>
  .error ⟨.expected what, cursor.span⟩ cursor

/-- Passes a token of a kind, and fails at any other. -/
def expect (kind : TokenKind) (what : Expected) : Reader Unit := fun cursor =>
  match cursor.accept kind with
  | (some _, after) => .ok () after
  | (none, _) => fail what cursor

theorem passes_expect (kind : TokenKind) (what : Expected) : Passes 1 (expect kind what) := by
  intro start
  unfold expect Cursor.accept
  cases h : start.peek? with
  | none => exact Cursor.LaterBy.refl start
  | some token =>
    by_cases same : token.kind = kind
    · simpa [same, Passed] using Cursor.laterBy_advance_one h
    · simpa [same, fail, Passed] using Cursor.LaterBy.refl start

end Reader

end Asm65
