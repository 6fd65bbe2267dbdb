import Asm65.Proofs.Alignment

/-!
# What settles a result

A reader that `Settles` decides by the tokens it passes and the one it stops at.
The same tokens, with the same one behind them, give the same result, and nothing
further on has any influence. When something else was expected, the tokens passed
so far can be gone on with to ones that are taken (`Mends`).

## Implementation notes

A value is also kept when another token follows, if it is one that no reader looks
for ahead (`TokenKind.Inert`). Tokens are mended with such ones only, so two readers
can be put together: what mends the second one does not change the first one.
-/

namespace Asm65

/-- The tokens that end or complete an expression, and that no reader of expressions looks for
ahead: numbers, closing parentheses, and ends of statements. -/
def TokenKind.Inert : TokenKind → Prop
  | endOfStatement | number .. => True
  | punct p => p = .closeParen
  | name _ | char _ | unknown _ => False

/-- Whether the first one of some tokens is inert, if there is any. -/
def Token.InertFirst (tokens : List Token) : Prop :=
  ∀ token ∈ tokens.head?, token.kind.Inert

theorem Token.InertFirst.append {tokens tokens' : List Token} (h : InertFirst tokens)
    (h' : InertFirst tokens') : InertFirst (tokens ++ tokens') := by
  cases tokens with
  | nil => exact h'
  | cons token rest => exact h

namespace Cursor

variable {cursor cursor' : Cursor} {n m : Nat} {kinds : List TokenKind}

theorem advance_inj (h : cursor.advance n = cursor.advance m) : n = m :=
  Nat.add_left_cancel (congrArg position h)

theorem take_advance (same : cursor'.rest.take (m + n) = cursor.rest.take (m + n)) :
    (cursor'.advance m).rest.take n = (cursor.advance m).rest.take n := by
  simpa [advance, List.drop_take] using congrArg (List.drop m) same

/-- The token with an index among the first ones. -/
theorem getElem?_of_take (same : cursor'.rest.take n = cursor.rest.take n) (lt : m < n) :
    cursor'.rest[m]? = cursor.rest[m]? := by
  simpa [List.getElem?_take_of_lt lt] using congrArg (·[m]?) same

theorem rest_advance_take {behind : List Token} (bound : m + n ≤ cursor.rest.length)
    (here : cursor'.rest = cursor.rest.take (m + n) ++ behind) :
    (cursor'.advance m).rest = (cursor.advance m).rest.take n ++ behind := by
  have length : m ≤ (cursor.rest.take (m + n)).length := by
    rw [List.length_take_of_le bound]
    exact Nat.le_add_right m n
  rw [advance, here, List.drop_append_of_le_length length, List.drop_take, Nat.add_sub_cancel_left]
  rfl

/-- Whether a number of tokens at two places are the same, and then comes the same token at both or
an inert one at the second. -/
structure GoesOn (n : Nat) (cursor cursor' : Cursor) : Prop where
  passed : cursor'.rest.take n = cursor.rest.take n
  next : cursor'.rest[n]? = cursor.rest[n]? ∨ ∀ token ∈ cursor'.rest[n]?, token.kind.Inert

/-- What a reader passes, as the number of tokens between two places. -/
theorem LaterBy.le_length (later : LaterBy 0 cursor (cursor.advance n)) :
    n ≤ cursor.rest.length := by
  obtain ⟨count, -, bound, same⟩ := later
  rwa [advance_inj same]

theorem LaterBy.exists_add (later : LaterBy 0 (cursor.advance m) (cursor.advance n)) :
    ∃ count, n = m + count := by
  obtain ⟨count, -, -, same⟩ := later
  rw [advance_advance] at same
  exact ⟨count, advance_inj same⟩

/-- Places with the same first tokens start with the same kinds. -/
theorem starts_iff_of_take (same : cursor'.rest.take n = cursor.rest.take n)
    (long : kinds.length ≤ n) : cursor'.Starts kinds ↔ cursor.Starts kinds := by
  have reach (cursor : Cursor) :
      cursor.Starts kinds ↔ kinds = ((cursor.rest.take n).map Token.kind).take kinds.length := by
    rw [Starts, List.prefix_iff_eq_take, List.map_take, List.take_take, Nat.min_eq_left long]
  rw [reach, reach, same]

namespace GoesOn

theorem of_take (h : cursor'.rest.take (n + 1) = cursor.rest.take (n + 1)) :
    GoesOn n cursor cursor' := by
  refine ⟨?_, .inl (getElem?_of_take h (Nat.lt_succ_self n))⟩
  simpa [List.take_take] using congrArg (List.take n) h

theorem of_append {behind : List Token} (bound : n ≤ cursor.rest.length)
    (here : cursor'.rest = cursor.rest.take n ++ behind) (inert : Token.InertFirst behind) :
    GoesOn n cursor cursor' := by
  have length : (cursor.rest.take n).length = n := List.length_take_of_le bound
  refine ⟨by rw [here, List.take_left' length], .inr fun token found => inert token ?_⟩
  rwa [here, List.getElem?_append_right length.le, length, Nat.sub_self,
    ← List.head?_eq_getElem?] at found

theorem mono (h : GoesOn n cursor cursor') (le : m ≤ n) : GoesOn m cursor cursor' := by
  have passed : cursor'.rest.take m = cursor.rest.take m := by
    simpa [List.take_take, le] using congrArg (List.take m) h.passed
  rcases Nat.eq_or_lt_of_le le with rfl | lt
  · exact h
  · exact ⟨passed, .inl (getElem?_of_take h.passed lt)⟩

theorem advance (h : GoesOn (m + n) cursor cursor') :
    GoesOn n (cursor.advance m) (cursor'.advance m) := by
  refine ⟨take_advance h.passed, ?_⟩
  simpa [Cursor.advance, List.getElem?_drop] using h.next

theorem starts (h : GoesOn n cursor cursor') (starts : cursor.Starts kinds)
    (long : kinds.length ≤ n) : cursor'.Starts kinds :=
  (starts_iff_of_take h.passed long).2 starts

/-- Of what a reader looks for ahead, the second place has no more than the first one. -/
theorem starts_take (h : GoesOn n cursor cursor') (live : ∀ kind ∈ kinds, ¬kind.Inert)
    (starts : cursor'.Starts kinds) : cursor.Starts (kinds.take (n + 1)) := by
  rcases Nat.lt_or_ge n kinds.length with lt | long
  · have starts' : cursor'.Starts (kinds.take (n + 1)) := (List.take_prefix _ _).trans starts
    refine (starts_iff_of_take ?_ (List.length_take_le _ _)).1 starts'
    rcases h.next with same | inert
    · rw [List.take_add_one, List.take_add_one, h.passed, same]
    · obtain ⟨token, found, kind⟩ : ∃ token, cursor'.rest[n]? = some token ∧
          token.kind = kinds[n] := by
        have found := List.prefix_iff_getElem?.1 starts n lt
        rwa [List.getElem?_map, Option.map_eq_some_iff] at found
      exact absurd (kind ▸ inert token found) (live _ (List.getElem_mem lt))
  · rw [List.take_of_length_le (by omega)]
    exact (starts_iff_of_take h.passed long).1 starts

end GoesOn

end Cursor

namespace Reader

variable {α β : Type} {reader : Reader α} {next : α → Reader β} {tokens : List Token}
  {cursor cursor' : Cursor} {n : Nat}

/-- Whether some tokens can be gone on with to ones that a reader takes, whatever inert follows. -/
def Mends (reader : Reader α) (tokens : List Token) : Prop :=
  ∃ more value, Token.InertFirst more ∧ ∀ (cursor : Cursor) (behind : List Token),
    cursor.rest = tokens ++ more ++ behind → Token.InertFirst behind →
      reader cursor = .ok value (cursor.advance (tokens ++ more).length)

theorem Passes.mono {least least' : Nat} (passes : Passes least reader) (h : least' ≤ least) :
    Passes least' reader := by
  intro start
  have passed := passes start
  revert passed
  cases reader start with
  | ok value now => exact Cursor.LaterBy.mono h
  | error diagnostic now => exact id

theorem mends_pure (value : α) : Mends (pure value : Reader α) [] :=
  ⟨[], value, nofun, fun _ _ _ _ => rfl⟩

theorem Mends.bind (first : Mends reader tokens) (rest : ∀ value, Mends (next value) []) :
    Mends (reader >>= next) tokens := by
  obtain ⟨more, value, inert, taken⟩ := first
  obtain ⟨more', value', inert', taken'⟩ := rest value
  refine ⟨more ++ more', value', inert.append inert', fun cursor behind here inert'' => ?_⟩
  have split : cursor.rest = (tokens ++ more) ++ (more' ++ behind) := by simp [here]
  rw [bind_of_ok (taken cursor _ split (inert'.append inert'')),
    taken' _ behind (Cursor.rest_advance split) inert'', Cursor.advance_advance]
  simp [Nat.add_assoc]

/-- What mends the tokens behind a place mends them together with those that lead there. -/
theorem Mends.behind {second : Reader α} {m : Nat} (bound : m + n ≤ cursor.rest.length)
    (h : Mends second ((cursor.advance m).rest.take n))
    (same : ∀ cursor', Cursor.GoesOn (m + n) cursor cursor' →
      reader cursor' = second (cursor'.advance m)) : Mends reader (cursor.rest.take (m + n)) := by
  obtain ⟨more, value, inert, taken⟩ := h
  refine ⟨more, value, inert, fun cursor' behind here inert' => ?_⟩
  rw [List.append_assoc] at here
  have there := Cursor.rest_advance_take bound here
  rw [← List.append_assoc] at there
  rw [same cursor' (.of_append bound here (inert.append inert')), taken _ behind there inert',
    Cursor.advance_advance]
  have bound' : n ≤ (cursor.advance m).rest.length := by
    simp only [Cursor.advance, List.length_drop]
    omega
  rw [List.length_append, List.length_append, List.length_take_of_le bound,
    List.length_take_of_le bound', Nat.add_assoc]

/-- Whether a reader ends a number of tokens on, with a value or expecting something else. -/
def EndsAfter (reader : Reader α) (cursor : Cursor) (n : Nat) : Prop :=
  (∃ value, reader cursor = .ok value (cursor.advance n)) ∨
    ∃ what span, reader cursor = .error ⟨.expected what, span⟩ (cursor.advance n)

/-- A reader whose result is settled by the tokens it passes and the one it stops at, and that can
be mended when it expected something else there. -/
structure Settles (reader : Reader α) : Prop where
  passes : Passes 0 reader
  ok : ∀ {cursor cursor' n value}, reader cursor = .ok value (cursor.advance n) →
    Cursor.GoesOn n cursor cursor' → reader cursor' = .ok value (cursor'.advance n)
  error : ∀ {cursor cursor' n what span},
    reader cursor = .error ⟨.expected what, span⟩ (cursor.advance n) →
    cursor'.rest.take (n + 1) = cursor.rest.take (n + 1) →
      reader cursor' = .error ⟨.expected what, (cursor'.advance n).span⟩ (cursor'.advance n)
  mends : ∀ {cursor n what span},
    reader cursor = .error ⟨.expected what, span⟩ (cursor.advance n) →
      Mends reader (cursor.rest.take n)

theorem settles_pure (value : α) : Settles (pure value : Reader α) where
  passes := passes_pure value
  ok := by
    intro cursor cursor' n value' read _
    obtain ⟨rfl, same⟩ := EStateM.Result.ok.inj read
    obtain rfl : 0 = n := Cursor.advance_inj same
    rfl
  error := by
    intro cursor cursor' n what span failed
    cases failed
  mends := by
    intro cursor n what span failed
    cases failed

theorem Settles.bind (first : Settles reader) (rest : ∀ value, Settles (next value))
    (start : ∀ value, Mends (next value) []) : Settles (reader >>= next) where
  passes := first.passes.bind fun value => (rest value).passes
  ok := by
    intro cursor cursor' n value read goesOn
    obtain ⟨value', middle, here, there⟩ := bind_eq_ok_iff.1 read
    obtain ⟨m, -, -, rfl⟩ := first.passes.of_ok here
    obtain ⟨k, rfl⟩ := ((rest value').passes.of_ok there).exists_add
    rw [← Cursor.advance_advance] at there ⊢
    rw [bind_of_ok (first.ok here (goesOn.mono (Nat.le_add_right m k)))]
    exact (rest value').ok there goesOn.advance
  error := by
    intro cursor cursor' n what span failed same
    rcases bind_eq_error_iff.1 failed with failed | ⟨value', middle, here, failed⟩
    · exact bind_eq_error_iff.2 (.inl (first.error failed same))
    · obtain ⟨m, -, -, rfl⟩ := first.passes.of_ok here
      obtain ⟨k, rfl⟩ := ((rest value').passes.of_error failed).exists_add
      have goesOn := (Cursor.GoesOn.of_take same).mono (Nat.le_add_right m k)
      rw [← Cursor.advance_advance] at failed ⊢
      rw [bind_of_ok (first.ok here goesOn)]
      exact (rest value').error failed (Cursor.take_advance same)
  mends := by
    intro cursor n what span failed
    have later := (first.passes.bind fun value => (rest value).passes).of_error failed
    rcases bind_eq_error_iff.1 failed with failed | ⟨value', middle, here, failed⟩
    · exact (first.mends failed).bind start
    · obtain ⟨m, -, -, rfl⟩ := first.passes.of_ok here
      obtain ⟨k, rfl⟩ := ((rest value').passes.of_error failed).exists_add
      rw [← Cursor.advance_advance] at failed
      refine ((rest value').mends failed).behind later.le_length fun cursor' goesOn => ?_
      exact bind_of_ok (first.ok here (goesOn.mono (Nat.le_add_right m k))) next

theorem Mends.map (h : Mends reader tokens) (f : α → β) :
    Mends (reader >>= fun value => pure (f value)) tokens :=
  h.bind fun value => mends_pure (f value)

theorem Settles.map (h : Settles reader) (f : α → β) :
    Settles (reader >>= fun value => pure (f value)) :=
  h.bind (fun value => settles_pure (f value)) fun value => mends_pure (f value)

/-- A reader settles when it goes on, behind some tokens, as one that does, and when the tokens that
settle the result also settle which one that is. -/
theorem Settles.of_branches (passes : Passes 0 reader)
    (h : ∀ cursor n, EndsAfter reader cursor n → ∃ (branch : Reader α) (m : Nat), Settles branch ∧
      reader cursor = branch (cursor.advance m) ∧
      (m ≤ n → ∀ cursor', Cursor.GoesOn n cursor cursor' →
        reader cursor' = branch (cursor'.advance m))) : Settles reader where
  passes := passes
  ok := by
    intro cursor cursor' n value read goesOn
    obtain ⟨branch, m, settles, same, same'⟩ := h cursor n (.inl ⟨value, read⟩)
    rw [same] at read
    obtain ⟨k, rfl⟩ := (settles.passes.of_ok read).exists_add
    rw [same' (Nat.le_add_right m k) cursor' goesOn]
    rw [← Cursor.advance_advance] at read ⊢
    exact settles.ok read goesOn.advance
  error := by
    intro cursor cursor' n what span failed same
    obtain ⟨branch, m, settles, here, there⟩ := h cursor n (.inr ⟨what, span, failed⟩)
    rw [here] at failed
    obtain ⟨k, rfl⟩ := (settles.passes.of_error failed).exists_add
    rw [there (Nat.le_add_right m k) cursor' (.of_take same)]
    rw [← Cursor.advance_advance] at failed ⊢
    exact settles.error failed (Cursor.take_advance same)
  mends := by
    intro cursor n what span failed
    have later := passes.of_error failed
    obtain ⟨branch, m, settles, here, there⟩ := h cursor n (.inr ⟨what, span, failed⟩)
    rw [here] at failed
    obtain ⟨k, rfl⟩ := (settles.passes.of_error failed).exists_add
    rw [← Cursor.advance_advance] at failed
    exact (settles.mends failed).behind later.le_length (there (Nat.le_add_right m k))

/-- Whether a reader ends does not depend on what becomes of its value. -/
theorem EndsAfter.of_map {f : α → β}
    (h : EndsAfter (reader >>= fun value => pure (f value)) cursor n) :
    EndsAfter reader cursor n := by
  rcases h with ⟨value, read⟩ | ⟨what, span, failed⟩
  · obtain ⟨value', middle, here, there⟩ := bind_eq_ok_iff.1 read
    obtain ⟨-, rfl⟩ := EStateM.Result.ok.inj there
    exact .inl ⟨value', here⟩
  · rcases bind_eq_error_iff.1 failed with failed | ⟨_, _, -, failed⟩
    · exact .inr ⟨what, span, failed⟩
    · cases failed

section Expect

variable {kind : TokenKind}

theorem expect_of_starts (starts : cursor.Starts [kind]) (what : Expected) :
    expect kind what cursor = .ok () (cursor.advance 1) := by
  obtain ⟨_, _, here, -⟩ := prefix_kinds_iff.1 starts
  simp [expect, Cursor.accept, Cursor.peek?, here]

theorem expect_of_other (other : ¬cursor.Starts [kind]) (what : Expected) :
    expect kind what cursor = .error ⟨.expected what, cursor.span⟩ cursor := by
  unfold expect Cursor.accept
  cases here : cursor.peek? with
  | none => rfl
  | some token =>
    obtain ⟨rest, whole⟩ := List.head?_eq_some_iff.1 here
    have apart : token.kind ≠ kind := by
      rintro rfl
      exact other (by simp [Cursor.Starts, whole])
    simp only [if_neg apart]
    rfl

theorem mends_expect (inert : kind.Inert) (what : Expected) : Mends (expect kind what) [] := by
  refine ⟨[⟨kind, .empty 0⟩], (), ?_, fun cursor _ here _ => ?_⟩
  · simpa [Token.InertFirst] using inert
  · exact expect_of_starts (by simp [Cursor.Starts, here]) what

theorem expect_eq_ok_iff {what : Expected} {value : Unit} :
    expect kind what cursor = .ok value cursor' ↔
      cursor.Starts [kind] ∧ cursor' = cursor.advance 1 := by
  by_cases starts : cursor.Starts [kind]
  · simp [expect_of_starts starts, starts, eq_comm]
  · simp [expect_of_other starts, starts]

theorem exists_cons_of_expect {what : Expected} {value : Unit}
    (h : expect kind what cursor = .ok value cursor') :
    ∃ token, token.kind = kind ∧ cursor.rest = token :: cursor'.rest := by
  obtain ⟨starts, rfl⟩ := expect_eq_ok_iff.1 h
  obtain ⟨span, rest, here, -⟩ := prefix_kinds_iff.1 starts
  exact ⟨⟨kind, span⟩, rfl, by rw [Cursor.advance, here]; rfl⟩

theorem expect_eq_error_iff {what : Expected} {diagnostic : Diagnostic} :
    expect kind what cursor = .error diagnostic cursor' ↔
      ¬cursor.Starts [kind] ∧ diagnostic = ⟨.expected what, cursor.span⟩ ∧ cursor' = cursor := by
  by_cases starts : cursor.Starts [kind]
  · simp [expect_of_starts starts, starts]
  · simp [expect_of_other starts, starts, eq_comm]

/-- A token that no reader looks for ahead is expected at its place only. -/
theorem settles_expect (inert : kind.Inert) (what : Expected) : Settles (expect kind what) where
  passes := (passes_expect kind what).mono (Nat.zero_le 1)
  ok := by
    intro cursor cursor' n value read goesOn
    obtain ⟨starts, stop⟩ := expect_eq_ok_iff.1 read
    obtain rfl : n = 1 := Cursor.advance_inj stop
    exact expect_of_starts (goesOn.starts starts (Nat.le_refl 1)) what
  error := by
    intro cursor cursor' n what' span failed same
    obtain ⟨other, diagnostic, stop⟩ := expect_eq_error_iff.1 failed
    obtain rfl : n = 0 := Cursor.advance_inj stop
    cases diagnostic
    have length : [kind].length ≤ 0 + 1 := Nat.le_refl 1
    exact expect_of_other (mt (Cursor.starts_iff_of_take same length).1 other) what
  mends := by
    intro cursor n what' span failed
    obtain ⟨-, -, stop⟩ := expect_eq_error_iff.1 failed
    obtain rfl : n = 0 := Cursor.advance_inj stop
    exact mends_expect inert what

end Expect

end Reader

end Asm65
