import Asm65.Proofs.Placement

/-!
# Aligned readers

Two cursors are aligned when the statements they stand in agree up to and
including their ends. A reader that starts at aligned cursors gives results
that agree, and never leaves the statement: what follows the statement, where
its tokens are counted from, and where the text ends have no influence.

## Implementation notes

An alignment fixes what follows the two statements, so the cursors behind them
are known. Only differences of positions matter; `base` and `base'` are the
positions that correspond.
-/

namespace Asm65

/-- What two aligned cursors have to do with each other. -/
structure Alignment where
  place : Placement
  base : Nat
  base' : Nat
  /-- The tokens behind the two statements. -/
  more : List Token
  more' : List Token

/-- Whether the next tokens at a cursor are of these kinds. -/
def Cursor.Starts (cursor : Cursor) (kinds : List TokenKind) : Prop :=
  kinds <+: cursor.rest.map Token.kind

theorem prefix_kinds_iff {kind : TokenKind} {kinds : List TokenKind} {tokens : List Token} :
    (kind :: kinds) <+: tokens.map Token.kind ↔
      ∃ span rest, tokens = ⟨kind, span⟩ :: rest ∧ kinds <+: rest.map Token.kind := by
  constructor
  · intro h
    cases tokens with
    | nil => simp at h
    | cons token rest =>
      obtain ⟨kind', span⟩ := token
      simp only [List.map_cons, List.cons_prefix_cons] at h
      obtain ⟨rfl, tail⟩ := h
      exact ⟨span, rest, rfl, tail⟩
  · rintro ⟨span, rest, rfl, tail⟩
    simpa only [List.map_cons, List.cons_prefix_cons, true_and] using tail

namespace Cursor

variable {cursor : Cursor} {kind kind' : TokenKind} {kinds kinds' : List TokenKind}

theorem kind_eq_of_starts (h : cursor.Starts (kind :: kinds))
    (h' : cursor.Starts (kind' :: kinds')) : kind = kind' := by
  obtain ⟨span, rest, here, -⟩ := prefix_kinds_iff.1 h
  obtain ⟨span', rest', here', -⟩ := prefix_kinds_iff.1 h'
  exact congrArg Token.kind (List.cons.inj (here.symm.trans here')).1

theorem starts_advance_one (h : cursor.Starts (kind :: kinds)) :
    (cursor.advance 1).Starts kinds := by
  obtain ⟨span, rest, here, tail⟩ := prefix_kinds_iff.1 h
  rwa [Starts, advance, here]

end Cursor

namespace Alignment

variable {a : Alignment}

/-- The alignment with the two texts exchanged. -/
def swap (a : Alignment) : Alignment :=
  ⟨a.place.swap, a.base', a.base, a.more', a.more⟩

/-- Two token lists whose first statements agree. -/
inductive Tokens (a : Alignment) : List Token → List Token → Prop
  | last {token token' : Token} (h : token.Agree a.place token')
      (closed : token.kind = .endOfStatement) : Tokens a (token :: a.more) (token' :: a.more')
  | cons {token token' : Token} {rest rest' : List Token} (h : token.Agree a.place token')
      (inside : token.kind ≠ .endOfStatement) (tail : Tokens a rest rest') :
      Tokens a (token :: rest) (token' :: rest')

namespace Tokens

variable {tokens tokens' : List Token}

/-- The same kinds of tokens stand in front, unless an end of statement is among them. -/
theorem prefix_iff (h : Tokens a tokens tokens') {kinds : List TokenKind}
    (inside : ∀ kind ∈ kinds, kind ≠ .endOfStatement) :
    kinds <+: tokens.map Token.kind ↔ kinds <+: tokens'.map Token.kind := by
  induction h generalizing kinds with
  | last h closed =>
    cases kinds with
    | nil => simp only [List.nil_prefix]
    | cons kind kinds =>
      have apart := inside kind List.mem_cons_self
      simp only [List.map_cons, List.cons_prefix_cons, ← h.kind, closed, apart, false_and]
  | cons h _ _ ih =>
    cases kinds with
    | nil => simp only [List.nil_prefix]
    | cons kind kinds =>
      have tail := ih fun kind' among => inside kind' (List.mem_cons_of_mem kind among)
      simp only [List.map_cons, List.cons_prefix_cons, h.kind, tail]

theorem more_lt (h : Tokens a tokens tokens') : a.more.length < tokens.length := by
  induction h with
  | last => exact Nat.lt_succ_self _
  | cons _ _ _ ih => exact Nat.lt_succ_of_lt ih

theorem statementLength_add (h : Tokens a tokens tokens') :
    Cursor.statementLength tokens + a.more.length = tokens.length := by
  induction h with
  | last _ closed =>
    simp only [Cursor.statementLength, closed, if_true, List.length_cons]
    omega
  | cons _ inside _ ih =>
    simp only [Cursor.statementLength, inside, if_false, List.length_cons]
    omega

theorem drop_statement (h : Tokens a tokens tokens') :
    tokens.drop (Cursor.statementLength tokens) = a.more := by
  induction h with
  | last _ closed => simp [Cursor.statementLength, closed]
  | cons _ inside _ ih => simpa [Cursor.statementLength, inside] using ih

/-- The tokens between two aligned places of a statement agree. -/
theorem take (h : Tokens a tokens tokens') {count : Nat}
    (now : Tokens a (tokens.drop count) (tokens'.drop count)) :
    List.Forall₂ (Token.Agree a.place) (tokens.take count) (tokens'.take count) := by
  induction h generalizing count with
  | last =>
    cases count with
    | zero => exact .nil
    | succ count =>
      have short := now.more_lt
      simp only [List.drop_succ_cons, List.length_drop] at short
      omega
  | cons head _ _ ih =>
    cases count with
    | zero => exact .nil
    | succ count => exact .cons head (ih now)

theorem swap (h : Tokens a tokens tokens') : Tokens a.swap tokens' tokens := by
  induction h with
  | last h closed => exact .last h.swap (h.kind.symm.trans closed)
  | cons h inside _ ih => exact .cons h.swap (h.kind ▸ inside) ih

end Tokens

/-- Two cursors in statements that agree from there on. -/
structure Cursors (a : Alignment) (cursor cursor' : Cursor) : Prop where
  position : cursor.position + a.base' = cursor'.position + a.base
  tokens : Tokens a cursor.rest cursor'.rest

namespace Cursors

variable {cursor cursor' : Cursor}

theorem swap (h : a.Cursors cursor cursor') : a.swap.Cursors cursor' cursor :=
  ⟨h.position.symm, h.tokens.swap⟩

theorem rest_ne_nil (h : a.Cursors cursor cursor') : cursor.rest ≠ [] := by
  have some_left := h.tokens.more_lt
  exact List.ne_nil_of_length_pos (Nat.zero_lt_of_lt some_left)

theorem peek (h : a.Cursors cursor cursor') : ∃ token token', cursor.peek? = some token ∧
    cursor'.peek? = some token' ∧ token.Agree a.place token' := by
  obtain ⟨position, rest, stop⟩ := cursor
  obtain ⟨position', rest', stop'⟩ := cursor'
  obtain ⟨_, tokens⟩ := h
  cases tokens with
  | last h | cons h => exact ⟨_, _, rfl, rfl, h⟩

theorem starts_iff (h : a.Cursors cursor cursor') (kinds : List TokenKind)
    (inside : ∀ kind ∈ kinds, kind ≠ .endOfStatement) :
    cursor.Starts kinds ↔ cursor'.Starts kinds :=
  h.tokens.prefix_iff inside

theorem atEndOfStatement_iff (h : a.Cursors cursor cursor') :
    cursor.AtEndOfStatement ↔ cursor'.AtEndOfStatement := by
  obtain ⟨token, token', here, there, agree⟩ := h.peek
  simp only [Cursor.AtEndOfStatement, here, there, Option.mem_some, forall_eq', agree.kind]

theorem span (h : a.Cursors cursor cursor') : a.place.Rel cursor.span cursor'.span := by
  obtain ⟨token, token', here, there, agree⟩ := h.peek
  simpa only [Cursor.span, here, there] using agree.span

theorem advance_one (h : a.Cursors cursor cursor') {token : Token}
    (here : cursor.peek? = some token) (inside : token.kind ≠ .endOfStatement) :
    a.Cursors (cursor.advance 1) (cursor'.advance 1) := by
  obtain ⟨position, tokens⟩ := h
  unfold Cursor.peek? at here
  refine ⟨by simp only [Cursor.advance]; omega, ?_⟩
  simp only [Cursor.advance]
  generalize cursor.rest = rest, cursor'.rest = rest' at tokens here
  cases tokens with
  | last h closed =>
    cases here
    exact absurd closed inside
  | cons h _ tail => exact tail

theorem advance_of_starts (h : a.Cursors cursor cursor') {kind : TokenKind}
    {kinds : List TokenKind} (here : cursor.Starts (kind :: kinds))
    (inside : kind ≠ .endOfStatement) : a.Cursors (cursor.advance 1) (cursor'.advance 1) := by
  obtain ⟨span, rest, first, _⟩ := prefix_kinds_iff.1 here
  exact h.advance_one (by rw [Cursor.peek?, first]; rfl) inside

theorem advance_two (h : a.Cursors cursor cursor') {kind kind' : TokenKind}
    {kinds : List TokenKind} (here : cursor.Starts (kind :: kind' :: kinds))
    (inside : kind ≠ .endOfStatement) (inside' : kind' ≠ .endOfStatement) :
    a.Cursors (cursor.advance 2) (cursor'.advance 2) := by
  have here' := Cursor.starts_advance_one here
  have next := (h.advance_of_starts here inside).advance_of_starts here' inside'
  simpa only [Cursor.advance_advance] using next

/-- The spans of the same tokens read. -/
theorem spanSince {now now' : Cursor} (h : a.Cursors cursor cursor')
    (h' : a.Cursors now now') (later : Cursor.LaterBy 0 cursor now)
    (later' : Cursor.LaterBy 0 cursor' now') :
    a.place.Rel (cursor.spanSince now) (cursor'.spanSince now') := by
  obtain ⟨count, -, -, rfl⟩ := later
  obtain ⟨count', -, -, rfl⟩ := later'
  have same : count' = count := by
    have before := h.position
    have after := h'.position
    simp only [Cursor.advance] at after
    omega
  subst same
  have between := h.tokens.take h'.tokens
  have first := h.tokens
  simp only [Cursor.spanSince, Cursor.advance, Nat.add_sub_cancel_left]
  generalize cursor.rest = rest, cursor'.rest = rest' at between first
  have ends := rel_getLast? between
  cases first with
  | last head | cons head =>
    dsimp only
    revert ends
    generalize List.getLast? _ = last, List.getLast? _ = last'
    rintro (agree | _)
    · exact a.place.through head.span agree.span
    · exact a.place.start head.span

end Cursors

variable {α β : Type} {related : α → α → Prop} {related' : β → β → Prop}

/-- Two results of readers that agree: both succeed with related values, or both fail. -/
inductive Results (a : Alignment) (related : α → α → Prop) :
    EStateM.Result Diagnostic Cursor α → EStateM.Result Diagnostic Cursor α → Prop
  | ok {value value' : α} {now now' : Cursor} (h : related value value')
      (aligned : a.Cursors now now') :
      Results a related (.ok value now) (.ok value' now')
  | error {diagnostic diagnostic' : Diagnostic} {now now' : Cursor}
      (h : diagnostic.Agree a.place diagnostic') (aligned : a.Cursors now now') :
      Results a related (.error diagnostic now) (.error diagnostic' now')

/-- Two readers that give agreeing results at aligned cursors. -/
def Respects (a : Alignment) (related : α → α → Prop) (reader reader' : Reader α) : Prop :=
  ∀ ⦃cursor cursor' : Cursor⦄, a.Cursors cursor cursor' →
    a.Results related (reader cursor) (reader' cursor')

theorem respects_pure {value value' : α} (h : related value value') :
    a.Respects related (pure value) (pure value') :=
  fun _ _ aligned => .ok h aligned

theorem Respects.bind {reader reader' : Reader α} {next next' : α → Reader β}
    (first : a.Respects related reader reader')
    (rest : ∀ {value value'},
      related value value' → a.Respects related' (next value) (next' value')) :
    a.Respects related' (reader >>= next) (reader' >>= next') := by
  intro cursor cursor' aligned
  change a.Results related' (EStateM.bind reader next cursor) (EStateM.bind reader' next' cursor')
  unfold EStateM.bind
  have results := first aligned
  revert results
  generalize reader cursor = result, reader' cursor' = result'
  rintro (⟨h, now⟩ | ⟨h, now⟩)
  · exact rest h now
  · exact .error h now

theorem respects_fail (what : Expected) :
    a.Respects related (Reader.fail what) (Reader.fail what) :=
  fun _ _ aligned => .error ⟨rfl, aligned.span⟩ aligned

theorem respects_expect (kind : TokenKind) (what : Expected) (inside : kind ≠ .endOfStatement) :
    a.Respects Eq (Reader.expect kind what) (Reader.expect kind what) := by
  intro cursor cursor' aligned
  obtain ⟨token, token', here, there, agree⟩ := aligned.peek
  simp only [Reader.expect, Cursor.accept, here, there, ← agree.kind]
  by_cases same : token.kind = kind
  · simp only [if_pos same]
    exact .ok rfl (aligned.advance_one here (same ▸ inside))
  · simp only [if_neg same]
    exact respects_fail what aligned

end Alignment

end Asm65
