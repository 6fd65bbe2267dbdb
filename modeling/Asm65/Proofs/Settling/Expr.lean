import Asm65.Proofs.Grammar
import Asm65.Proofs.Settling

/-!
# What settles an expression

Reading an expression is settled by the tokens it passes and the one it stops at
(`Expr.settles_read`).

## Implementation notes

Where something else is expected, what waits in the machine needs an operand, if
none is complete, and the parentheses that close. The grammar says so
(`Expr.Waits.completes`), so the machine need not be run on them.
-/

namespace Asm65

open Grammar

namespace Expr

variable {n : Nat} {kinds kinds' : List TokenKind} {value : Expr} {stack : List Pending}
  {state last : State} {tokens : List Token} {cursor cursor' : Cursor}

/-- Closing parentheses are all that is missing behind an operand for what waits. -/
theorem Waits.completes (waits : Waits stack kinds) : ∃ count, ∀ {level own value}, 1 ≤ level →
    Derives level own value → Loose level stack ∨ 7 ≤ level →
      ∃ expr, Derives 1 (kinds ++ own ++ .replicate count (.punct .closeParen)) expr := by
  induction waits with
  | nil => exact ⟨0, fun le derived _ => ⟨_, by simpa using derived.mono le⟩⟩
  | unary op _ ih =>
    obtain ⟨count, completes⟩ := ih
    refine ⟨count, fun _ derived tight => ?_⟩
    have whole := Derives.unary op (derived.mono (by simpa [Loose] using tight))
    simpa using completes (by decide) whole (.inr (Nat.le_refl 7))
  | binary op _ loose derived' ih =>
    obtain ⟨count, completes⟩ := ih
    refine ⟨count, fun {level _ _} _ derived tight => ?_⟩
    have tighter : op.precedence + 1 ≤ level := by
      rcases tight with loose | tight
      · exact loose
      · exact Nat.le_trans (Nat.succ_le_succ (precedence_le op)) tight
    have whole := Derives.binary (mem_operators_iff.2 rfl) derived' (derived.mono tighter)
    simpa using completes op.precedence_pos whole (.inl loose)
  | group _ ih =>
    obtain ⟨count, completes⟩ := ih
    refine ⟨count + 1, fun le derived _ => ?_⟩
    have whole := Derives.group (derived.mono le)
    simpa [List.replicate_succ] using completes (by decide) whole (.inr (by decide))

/-- What has been read in a state is the first part of an expression. -/
theorem Reads.completes (reads : Reads state kinds) :
    ∃ more expr, Token.InertFirst more ∧ Derives 1 (kinds ++ more.map Token.kind) expr := by
  let close : Token := ⟨.punct .closeParen, .empty 0⟩
  cases state with
  | operand stack =>
    have waits : Waits stack kinds := reads
    obtain ⟨count, completes⟩ := waits.completes
    have zero : TokenKind.value? (.number .decimal "0") = some 0 := by decide +kernel
    obtain ⟨expr, derived⟩ := completes (by decide) (.literal zero) (.inr (by decide))
    refine ⟨⟨_, .empty 0⟩ :: .replicate count close, expr, ?_, by simpa using derived⟩
    simp [Token.InertFirst, TokenKind.Inert]
  | operator stack value =>
    obtain ⟨before, own, rfl, waits, derived, loose⟩ := reads
    obtain ⟨count, completes⟩ := waits.completes
    obtain ⟨expr, derived'⟩ := completes (by decide) derived (.inl loose)
    refine ⟨.replicate count close, expr, ?_, by simpa [close] using derived'⟩
    cases count with
    | zero => simp [Token.InertFirst]
    | succ => simp [List.replicate_succ, Token.InertFirst, TokenKind.Inert, close]

theorem inert_ne_punct {kind : TokenKind} (inert : kind.Inert) (op : BinaryOp) :
    kind ≠ .punct op.punct := by
  rintro rfl
  cases op <;> cases inert

theorem mends_of_reads (reads : Reads state (tokens.map Token.kind)) :
    Reader.Mends read tokens := by
  obtain ⟨more, expr, inert, derived⟩ := reads.completes
  rw [← List.map_append] at derived
  exact ⟨more, expr, inert, fun cursor behind here inert' =>
    read_of_apart here derived fun token next => inert_ne_punct (inert' token next)⟩

theorem mends_read : Reader.Mends read [] :=
  mends_of_reads (show Reads (.operand []) [] from Waits.nil)

/-- The result of reading an expression is settled. -/
theorem settles_read : Reader.Settles read where
  passes := passes_read.mono (Nat.zero_le 1)
  ok := by
    intro cursor cursor' n value read goesOn
    obtain ⟨count, bound, same, derived, apart⟩ := read_eq_ok_iff.1 read
    obtain rfl := Cursor.advance_inj same
    have bound' : n ≤ cursor'.rest.length := by
      have length := congrArg List.length goesOn.passed
      rw [List.length_take_of_le bound] at length
      exact length ▸ List.length_take_le' n _
    refine read_eq_ok_iff.2 ⟨n, bound', rfl, goesOn.passed ▸ derived, fun token next => ?_⟩
    rcases goesOn.next with same | inert
    · exact apart token (same.symm.trans next)
    · exact inert_ne_punct (inert token next)
  error := by
    intro cursor cursor' n what span failed same
    obtain ⟨taken, more, last, here, now, -, shifts, result, stopped⟩ := run_eq_error_iff.1 failed
    obtain rfl : n = taken.length := Nat.add_left_cancel (congrArg Cursor.position now)
    have passed : cursor'.rest.take taken.length = taken := by
      rw [(Cursor.GoesOn.of_take same).passed, here, List.take_left]
    refine run_eq_error_iff.2 ⟨taken, cursor'.rest.drop taken.length, last, ?_, rfl, rfl, shifts,
      result, fun token next => stopped token ?_⟩
    · nth_rewrite 1 [← List.take_append_drop taken.length cursor'.rest]
      rw [passed]
    · rwa [List.head?_drop, Cursor.getElem?_of_take same (Nat.lt_succ_self _), ← List.head?_drop,
        here, List.drop_left] at next
  mends := by
    intro cursor n what span failed
    obtain ⟨taken, more, last, here, now, -, shifts, -⟩ := run_eq_error_iff.1 failed
    obtain rfl : n = taken.length := Nat.add_left_cancel (congrArg Cursor.position now)
    have start : Reads (.operand []) [] := Waits.nil
    rw [here, List.take_left]
    exact mends_of_reads (start.shifts shifts)

theorem Shifts.split (h : Shifts state (kinds ++ kinds') last) :
    ∃ middle, Shifts state kinds middle ∧ Shifts middle kinds' last := by
  induction kinds generalizing state with
  | nil => exact ⟨state, .refl state, h⟩
  | cons kind kinds ih =>
    cases h with
    | step moved rest =>
      obtain ⟨middle, before, behind⟩ := ih rest
      exact ⟨middle, .step moved before, behind⟩

theorem run_of_prefix (shifts : Shifts state kinds last) (starts : kinds <+: tokens.map Token.kind)
    (stop position : Nat) : run stop state position tokens =
      run stop last (position + kinds.length) (tokens.drop kinds.length) := by
  induction shifts generalizing tokens position with
  | refl => rfl
  | step moved _ ih =>
    obtain ⟨span, rest, rfl, tail⟩ := prefix_kinds_iff.1 starts
    rw [run_shift moved, ih tail, List.length_cons, List.drop_succ_cons, Nat.add_assoc,
      Nat.add_comm 1]

/-- Reading an expression passes the first tokens on which the machine moves. -/
theorem length_le_of_starts (shifts : Shifts (.operand []) kinds last)
    (starts : cursor.Starts kinds) (ends : Reader.EndsAfter read cursor n) : kinds.length ≤ n := by
  have passed := run_passes cursor.stop last (cursor.position + kinds.length)
    (cursor.rest.drop kinds.length)
  rw [← run_of_prefix shifts starts] at passed
  have later : Cursor.LaterBy 0 (cursor.advance kinds.length) (cursor.advance n) := by
    rcases ends with ⟨value, found⟩ | ⟨what, span, failed⟩
    · rw [read] at found
      rw [found] at passed
      exact passed.mono (Nat.zero_le _)
    · rw [read] at failed
      rw [failed] at passed
      exact passed
  obtain ⟨count, rfl⟩ := later.exists_add
  exact Nat.le_add_right _ count

/-- Tokens on which the machine moves, and one more, stand where an expression is read if they stand
at a place that goes on in the same way. -/
theorem starts_of_goesOn (ends : Reader.EndsAfter read cursor n)
    (goesOn : Cursor.GoesOn n cursor cursor') (shifts : Shifts (.operand []) kinds last)
    {kind : TokenKind} (live : ∀ kind' ∈ kinds ++ [kind], ¬kind'.Inert)
    (starts : cursor'.Starts (kinds ++ [kind])) : cursor.Starts (kinds ++ [kind]) := by
  have passed := goesOn.starts_take live starts
  rcases Nat.lt_or_ge n kinds.length with lt | long
  · rw [List.take_append_of_le_length lt] at passed
    rw [← List.take_append_drop (n + 1) kinds] at shifts
    obtain ⟨middle, shifts, -⟩ := shifts.split
    have bound := length_le_of_starts shifts passed ends
    rw [List.length_take_of_le lt] at bound
    exact absurd bound (Nat.not_succ_le_self n)
  · rwa [List.take_of_length_le (by simpa using long)] at passed

end Expr

end Asm65
