import Asm65.Proofs.ReadBack.Expr

/-!
# The grammar of expressions

An expression is read exactly where the grammar derives one and no further
binary operator follows (`read_eq_ok_iff_derives`). The grammar has six levels
of binary operators that group to the left, prefix operators behind them, and
literals, names and parentheses at the end. It says nothing about operators
that wait or about precedences as numbers of the machine.

## Implementation notes

The machine postpones a binary operation until it sees what follows, so the
tokens of an expression do not lead to a single state. They lead to one from
which the waiting operators give the expression (`shifts_of_derives`). In the
other direction, the tokens read so far are split among the operators that
wait and the operand behind them (`Reads`).
-/

namespace Asm65

namespace Grammar

/-- The binary operators of a level, of which 1 is the loosest and 6 the tightest. -/
def operators : Nat → List BinaryOp
  | 1 => [.or]
  | 2 => [.xor]
  | 3 => [.and]
  | 4 => [.shl, .shr]
  | 5 => [.add, .sub]
  | 6 => [.mul, .div, .mod]
  | _ => []

/-- The tokens that derive an expression at a level. Behind the levels of binary operators, the
prefix operators are level 7, and literals, names and parentheses are level 8. -/
inductive Derives : Nat → List TokenKind → Expr → Prop
  | binary {level : Nat} {op : BinaryOp} {lefts rights : List TokenKind} {left right : Expr}
      (among : op ∈ operators level) (first : Derives level lefts left)
      (second : Derives (level + 1) rights right) :
      Derives level (lefts ++ .punct op.punct :: rights) (.binary op left right)
  | unary (op : UnaryOp) {kinds : List TokenKind} {expr : Expr} (h : Derives 7 kinds expr) :
      Derives 7 (.punct op.punct :: kinds) (.unary op expr)
  | literal {kind : TokenKind} {n : Nat} (h : kind.value? = some n) :
      Derives 8 [kind] (.constant (Int64.ofNat n))
  | symbol (name : String) : Derives 8 [.name name] (.symbol name)
  | group {kinds : List TokenKind} {expr : Expr} (h : Derives 1 kinds expr) :
      Derives 8 (.punct .openParen :: kinds ++ [.punct .closeParen]) expr
  | tighter {level : Nat} {kinds : List TokenKind} {expr : Expr}
      (h : Derives (level + 1) kinds expr) : Derives level kinds expr

theorem mem_operators_iff {op : BinaryOp} {level : Nat} :
    op ∈ operators level ↔ op.precedence = level := by
  constructor
  · intro h
    unfold operators at h
    split at h <;> cases op <;> simp_all [BinaryOp.precedence]
  · rintro rfl
    cases op <;> decide

theorem precedence_le (op : BinaryOp) : op.precedence ≤ 6 := by
  cases op <;> decide

variable {level level' : Nat} {kinds : List TokenKind} {expr : Expr}

theorem Derives.mono (h : Derives level kinds expr) (looser : level' ≤ level) :
    Derives level' kinds expr := by
  induction looser using Nat.decreasingInduction with
  | self => exact h
  | of_succ level _ ih => exact .tighter ih

theorem Derives.ne_nil (h : Derives level kinds expr) : kinds ≠ [] := by
  induction h with
  | tighter _ ih => exact ih
  | binary | unary | literal | symbol | group => simp

theorem Derives.statement_of_mem (h : Derives level kinds expr) {kind : TokenKind}
    (among : kind ∈ kinds) : kind ≠ .endOfStatement ∧ kind ≠ .punct .colon := by
  induction h with
  | @binary _ op _ _ _ _ _ _ _ ihFirst ihSecond =>
    rcases List.mem_append.1 among with first | rest
    · exact ihFirst first
    · rcases List.mem_cons.1 rest with rfl | second
      · cases op <;> exact ⟨nofun, nofun⟩
      · exact ihSecond second
  | unary op _ ih =>
    rcases List.mem_cons.1 among with rfl | inside
    · cases op <;> exact ⟨nofun, nofun⟩
    · exact ih inside
  | literal known =>
    cases List.mem_singleton.1 among
    constructor <;> rintro rfl <;> cases known
  | symbol name =>
    cases List.mem_singleton.1 among
    exact ⟨nofun, nofun⟩
  | group _ ih =>
    rcases List.mem_append.1 among with inside | last
    · rcases List.mem_cons.1 inside with rfl | inside
      · exact ⟨nofun, nofun⟩
      · exact ih inside
    · cases List.mem_singleton.1 last
      exact ⟨nofun, nofun⟩
  | tighter _ ih => exact ih among

end Grammar

namespace Expr

open Grammar

variable {level : Nat} {kinds kinds' : List TokenKind} {kind : TokenKind} {expr value : Expr}
  {stack outer : List Pending} {state state' last : State}

/-- The tokens on which the machine moves from one state to another. -/
inductive Shifts : State → List TokenKind → State → Prop
  | refl (state : State) : Shifts state [] state
  | step {state next last : State} {kind : TokenKind} {kinds : List TokenKind}
      (moved : state.step kind = .shift next) (rest : Shifts next kinds last) :
      Shifts state (kind :: kinds) last

namespace Shifts

theorem append (h : Shifts state kinds state') (h' : Shifts state' kinds' last) :
    Shifts state (kinds ++ kinds') last := by
  induction h with
  | refl => exact h'
  | step moved _ ih => exact .step moved (ih h')

theorem snoc (h : Shifts state kinds state') (moved : state'.step kind = .shift last) :
    Shifts state (kinds ++ [kind]) last :=
  h.append (.step moved (.refl last))

theorem unique (h : Shifts state kinds last) (h' : Shifts state kinds state') : last = state' := by
  induction h with
  | refl =>
    cases h'
    rfl
  | step moved _ ih =>
    cases h' with
    | step moved' rest =>
      cases moved.symm.trans moved'
      exact ih rest

end Shifts

theorem finish_eq_ok_iff {cursor now : Cursor} :
    run.finish state cursor = .ok value now ↔ state.result = .ok value ∧ now = cursor := by
  unfold run.finish
  cases state.result with
  | ok found => simp [eq_comm]
  | error what => simp

theorem finish_eq_error_iff {cursor now : Cursor} {what : Expected} {span : Span} :
    run.finish state cursor = .error ⟨.expected what, span⟩ now ↔
      state.result = .error what ∧ now = cursor ∧ span = cursor.span := by
  unfold run.finish
  cases state.result with
  | ok found => simp
  | error what' => simp [eq_comm, and_left_comm, and_comm]

/-- A run over tokens on which the machine moves ends in the last state if it stops there. -/
theorem run_of_shifts {read more : List Token} (shifts : Shifts state (read.map Token.kind) last)
    (stopped : ∀ token ∈ more.head?, last.step token.kind = .stop) (stop position : Nat) :
    run stop state position (read ++ more) =
      run.finish last ⟨position + read.length, more, stop⟩ := by
  induction read generalizing state position with
  | nil =>
    cases shifts
    cases more with
    | nil => rfl
    | cons token rest => simp only [List.nil_append, run, stopped token rfl]; rfl
  | cons token read ih =>
    cases shifts with
    | step moved rest =>
      rw [List.cons_append, run_shift moved, ih rest, List.length_cons, Nat.add_assoc,
        Nat.add_comm 1]

/-- Every run is such a run, unless a literal on the way has no value. -/
theorem exists_run (stop : Nat) (state : State) (position : Nat) (tokens : List Token) :
    (∃ read more last, tokens = read ++ more ∧ Shifts state (read.map Token.kind) last ∧
        ∀ token ∈ more.head?, last.step token.kind = .stop) ∨
      ∃ span now, run stop state position tokens = .error ⟨.literalRange, span⟩ now := by
  induction tokens generalizing state position with
  | nil => exact .inl ⟨[], [], state, rfl, .refl state, by simp⟩
  | cons token rest ih =>
    cases moved : state.step token.kind with
    | shift next =>
      rw [run_shift moved]
      refine (ih next (position + 1)).imp_left ?_
      rintro ⟨read, more, last, rfl, shifts, stopped⟩
      exact ⟨token :: read, more, last, rfl, .step moved shifts, stopped⟩
    | outOfRange => exact .inr ⟨token.span, _, by simp only [run, moved]; rfl⟩
    | stop =>
      refine .inl ⟨[], token :: rest, state, rfl, .refl state, ?_⟩
      rintro _ ⟨⟩
      exact moved

/-- A run succeeds when the machine moves over some tokens, has an expression, and stops. -/
theorem run_eq_ok_iff {stop position : Nat} {tokens : List Token} {now : Cursor} :
    run stop state position tokens = .ok value now ↔
      ∃ read more last, tokens = read ++ more ∧ now = ⟨position + read.length, more, stop⟩ ∧
        Shifts state (read.map Token.kind) last ∧ last.result = .ok value ∧
        ∀ token ∈ more.head?, last.step token.kind = .stop := by
  constructor
  · intro found
    rcases exists_run stop state position tokens with
      ⟨read, more, last, rfl, shifts, stopped⟩ | ⟨span, now', failed⟩
    · rw [run_of_shifts shifts stopped] at found
      obtain ⟨result, rfl⟩ := finish_eq_ok_iff.1 found
      exact ⟨read, more, last, rfl, rfl, shifts, result, stopped⟩
    · cases failed.symm.trans found
  · rintro ⟨read, more, last, rfl, rfl, shifts, result, stopped⟩
    rw [run_of_shifts shifts stopped]
    exact finish_eq_ok_iff.2 ⟨result, rfl⟩

/-- It expects something else when it stops without one. -/
theorem run_eq_error_iff {stop position : Nat} {tokens : List Token} {now : Cursor}
    {what : Expected} {span : Span} :
    run stop state position tokens = .error ⟨.expected what, span⟩ now ↔
      ∃ read more last, tokens = read ++ more ∧ now = ⟨position + read.length, more, stop⟩ ∧
        span = now.span ∧ Shifts state (read.map Token.kind) last ∧ last.result = .error what ∧
        ∀ token ∈ more.head?, last.step token.kind = .stop := by
  constructor
  · intro found
    rcases exists_run stop state position tokens with
      ⟨read, more, last, rfl, shifts, stopped⟩ | ⟨span, now', failed⟩
    · rw [run_of_shifts shifts stopped] at found
      obtain ⟨result, rfl, rfl⟩ := finish_eq_error_iff.1 found
      exact ⟨read, more, last, rfl, rfl, rfl, shifts, result, stopped⟩
    · cases failed.symm.trans found
  · rintro ⟨read, more, last, rfl, rfl, rfl, shifts, result, stopped⟩
    rw [run_of_shifts shifts stopped]
    exact finish_eq_error_iff.2 ⟨result, rfl, rfl⟩

/-- Whether an operand of a level is complete with regard to what waits for it: no prefix operator
waits, and no binary operator that binds as tightly. -/
def Loose (level : Nat) : List Pending → Prop
  | .binary _ op :: _ => op.precedence < level
  | .unary _ :: _ => False
  | .group :: _ | [] => True

theorem Loose.mono {level' : Nat} (h : Loose level stack) (le : level ≤ level') :
    Loose level' stack := by
  unfold Loose at *
  split at h
  · exact Nat.lt_of_lt_of_le h le
  · exact h
  · trivial
  · trivial

theorem complete_of_loose (h : Loose level stack) (value : Expr) :
    complete stack value = .operator stack value := by
  unfold complete
  split
  · exact absurd h id
  · rfl

theorem reduce_of_loose (h : Loose level stack) (value : Expr) :
    reduce level stack value = (stack, value) := by
  unfold reduce
  split
  · exact if_neg (Nat.not_le.2 h)
  · rfl

/-- Every binary operator is above level 0. -/
theorem reduce_zero (stack : List Pending) (value : Expr) :
    reduce 0 stack value = reduce 1 stack value := by
  fun_induction reduce 1 stack value with
  | case1 left op stack value _ ih => rw [reduce, if_pos (Nat.zero_le _), ih]
  | case2 left op stack value tighter => exact absurd op.precedence_pos tighter
  | case3 stack value other => rw [reduce.eq_2 _ _ _ other]

section Completeness

theorem step_binary_operator (op : BinaryOp) (stack : List Pending) (value : Expr) :
    (State.operator stack value).step (.punct op.punct) =
      .shift (.operand (.binary (reduce op.precedence stack value).2 op ::
        (reduce op.precedence stack value).1)) := by
  cases op <;> rfl

theorem step_literal {n : Nat} (h : kind.value? = some n) (stack : List Pending) :
    (State.operand stack).step kind = .shift (complete stack (.constant (Int64.ofNat n))) := by
  cases kind with
  | number | char => simp only [State.step, h]
  | endOfStatement | name | punct | unknown => simp [TokenKind.value?] at h

/-- Whether a state has an expression of a level as the operand behind what waited before. -/
def Reaches (level : Nat) (stack : List Pending) (expr : Expr) : State → Prop
  | .operand _ => False
  | .operator stack' value =>
    ∀ level' ≤ level, reduce level' stack' value = reduce level' stack expr

/-- Where nothing is postponed, the expression is the operand. -/
theorem reaches_complete (shifts : Shifts (.operand stack) kinds (complete stack expr))
    (loose : Loose level stack) :
    ∃ last, Shifts (.operand stack) kinds last ∧ Reaches level stack expr last := by
  rw [complete_of_loose loose] at shifts
  exact ⟨_, shifts, fun _ _ => rfl⟩

/-- An operator between an expression of its level and a tighter one is postponed. -/
theorem reaches_binary {op : BinaryOp} {left right : Expr} (same : op.precedence = level)
    (loose : Loose level stack) (shifts : Shifts (.operand stack) kinds state)
    (reaches : Reaches level stack left state)
    (second : ∀ stack, Loose (level + 1) stack →
      ∃ last, Shifts (.operand stack) kinds' last ∧ Reaches (level + 1) stack right last) :
    ∃ last, Shifts (.operand stack) (kinds ++ .punct op.punct :: kinds') last ∧
      Reaches level stack (.binary op left right) last := by
  cases state with
  | operand => exact absurd reaches id
  | operator stack' value =>
    have reduced : reduce level stack' value = (stack, left) := by
      rw [reaches level (Nat.le_refl level), reduce_of_loose loose]
    have moved := step_binary_operator op stack' value
    rw [same, reduced] at moved
    have loose' : Loose (level + 1) (.binary left op :: stack) := by
      rw [Loose, same]
      exact Nat.lt_succ_self level
    obtain ⟨last, shifts', reaches'⟩ := second _ loose'
    refine ⟨last, shifts.append (.step moved shifts'), ?_⟩
    cases last with
    | operand => exact absurd reaches' id
    | operator =>
      intro level' le
      rw [reaches' level' (Nat.le_succ_of_le le), reduce, if_pos (same ▸ le)]

/-- A parenthesis closes over what was postponed behind the one that opened. -/
theorem shifts_group (shifts : Shifts (.operand (.group :: stack)) kinds state)
    (reaches : Reaches 1 (.group :: stack) expr state) :
    Shifts (.operand stack) (.punct .openParen :: kinds ++ [.punct .closeParen])
      (complete stack expr) := by
  refine (Shifts.step rfl shifts).snoc ?_
  cases state with
  | operand => exact absurd reaches id
  | operator stack' value =>
    have reduced : reduce 0 stack' value = (.group :: stack, expr) :=
      (reaches 0 (Nat.zero_le 1)).trans rfl
    simp only [State.step, reduced]

/-- The tokens of an expression lead to it. From the prefix operators on nothing is postponed. -/
theorem shifts_of_derives (h : Derives level kinds expr) :
    (7 ≤ level → ∀ stack, Shifts (.operand stack) kinds (complete stack expr)) ∧
      ∀ stack, Loose level stack →
        ∃ last, Shifts (.operand stack) kinds last ∧ Reaches level stack expr last := by
  induction h with
  | @binary level op _ _ _ _ among _ _ ihFirst ihSecond =>
    have same := mem_operators_iff.1 among
    have bound := precedence_le op
    refine ⟨fun high => by omega, fun stack loose => ?_⟩
    obtain ⟨first, shifts, reaches⟩ := ihFirst.2 stack loose
    exact reaches_binary same loose shifts reaches ihSecond.2
  | unary op h ih =>
    have shifts (stack : List Pending) := Shifts.step (step_unary op stack)
      (ih.1 (Nat.le_refl 7) (.unary op :: stack))
    exact ⟨fun _ => shifts, fun stack => reaches_complete (shifts stack)⟩
  | literal h =>
    have shifts (stack : List Pending) := Shifts.step (step_literal h stack) (.refl _)
    exact ⟨fun _ => shifts, fun stack => reaches_complete (shifts stack)⟩
  | symbol name =>
    have shifts (stack : List Pending) :
        Shifts (.operand stack) [.name name] (complete stack (.symbol name)) :=
      .step rfl (.refl _)
    exact ⟨fun _ => shifts, fun stack => reaches_complete (shifts stack)⟩
  | @group kinds expr h ih =>
    have shifts (stack : List Pending) : Shifts (.operand stack)
        (.punct .openParen :: kinds ++ [.punct .closeParen]) (complete stack expr) := by
      obtain ⟨last, inside, reaches⟩ := ih.2 (.group :: stack) trivial
      exact shifts_group inside reaches
    exact ⟨fun _ => shifts, fun stack => reaches_complete (shifts stack)⟩
  | @tighter level kinds expr h ih =>
    refine ⟨fun high => ih.1 (Nat.le_succ_of_le high), fun stack loose => ?_⟩
    obtain ⟨last, shifts, reaches⟩ := ih.2 stack (loose.mono (Nat.le_succ level))
    refine ⟨last, shifts, ?_⟩
    cases last with
    | operand => exact reaches
    | operator => exact fun level' le => reaches level' (Nat.le_succ_of_le le)

/-- The tokens of a whole expression leave it as the operand when nothing more follows. -/
theorem exists_shifts_of_derives (h : Derives 1 kinds expr) :
    ∃ stack value, Shifts (.operand []) kinds (.operator stack value) ∧
      reduce 0 stack value = ([], expr) := by
  obtain ⟨last, shifts, reaches⟩ := (shifts_of_derives h).2 [] trivial
  cases last with
  | operand => exact absurd reaches id
  | operator stack value => exact ⟨stack, value, shifts, (reaches 0 (Nat.zero_le 1)).trans rfl⟩

end Completeness

section Soundness

/-- The tokens that have been read when something waits. -/
inductive Waits : List Pending → List TokenKind → Prop
  | nil : Waits [] []
  | unary (op : UnaryOp) {stack : List Pending} {kinds : List TokenKind} (h : Waits stack kinds) :
      Waits (.unary op :: stack) (kinds ++ [.punct op.punct])
  | binary (op : BinaryOp) {stack : List Pending} {kinds lefts : List TokenKind} {left : Expr}
      (h : Waits stack kinds) (loose : Loose op.precedence stack)
      (derived : Derives op.precedence lefts left) :
      Waits (.binary left op :: stack) (kinds ++ lefts ++ [.punct op.punct])
  | group {stack : List Pending} {kinds : List TokenKind} (h : Waits stack kinds) :
      Waits (.group :: stack) (kinds ++ [.punct .openParen])

/-- Whether tokens end with those of an operand of a level behind those of what waits. -/
def Holds (level : Nat) (stack : List Pending) (value : Expr) (kinds : List TokenKind) : Prop :=
  ∃ before own, kinds = before ++ own ∧ Waits stack before ∧ Derives level own value ∧
    Loose level stack

/-- The tokens that have been read in a state. -/
def Reads : State → List TokenKind → Prop
  | .operand stack, kinds => Waits stack kinds
  | .operator stack value, kinds => Holds 7 stack value kinds

theorem reads_complete {before own : List TokenKind} (waits : Waits stack before)
    (derived : Derives 7 own value) : Reads (complete stack value) (before ++ own) := by
  fun_induction complete stack value generalizing before own with
  | case1 op stack value ih =>
    cases waits with
    | unary _ waits =>
      rw [List.append_assoc]
      exact ih waits (.unary op derived)
  | case2 stack value other =>
    refine ⟨before, own, rfl, waits, derived, ?_⟩
    cases waits with
    | unary op => exact absurd rfl (other op _)
    | binary op => exact Nat.lt_succ_of_le (precedence_le op)
    | nil | group => trivial

/-- Applying the waiting operators keeps the tokens read. -/
theorem Holds.reduce {level' : Nat} (h : Holds level' stack value kinds) (le : level ≤ level') :
    Holds level (Expr.reduce level stack value).1 (Expr.reduce level stack value).2 kinds := by
  fun_induction Expr.reduce level stack value generalizing level' with
  | case1 left op stack value tighter ih =>
    obtain ⟨_, own, rfl, waits, derived, loose⟩ := h
    cases waits with
    | @binary _ _ before lefts _ waits loose' derived' =>
      have right := derived.mono (Nat.succ_le_of_lt loose)
      have whole := Derives.binary (mem_operators_iff.2 rfl) derived' right
      refine ih ⟨before, lefts ++ .punct op.punct :: own, ?_, waits, whole, loose'⟩ tighter
      simp only [List.append_assoc, List.singleton_append]
  | case2 left op stack value looser =>
    obtain ⟨before, own, rfl, waits, derived, -⟩ := h
    exact ⟨before, own, rfl, waits, derived.mono le, Nat.not_le.1 looser⟩
  | case3 stack value other =>
    obtain ⟨before, own, rfl, waits, derived, loose⟩ := h
    refine ⟨before, own, rfl, waits, derived.mono le, ?_⟩
    cases waits with
    | unary => exact loose
    | @binary op _ _ _ left => exact absurd rfl (other left op _)
    | nil | group => trivial

theorem unary_punct {op : UnaryOp} {p : Punct} (h : UnaryOp.ofPunct? p = some op) :
    p = op.punct := by
  unfold UnaryOp.ofPunct? at h
  split at h <;> cases h <;> rfl

theorem binary_punct {op : BinaryOp} {p : Punct} (h : BinaryOp.ofPunct? p = some op) :
    p = op.punct := by
  unfold BinaryOp.ofPunct? at h
  split at h <;> cases h <;> rfl

theorem Reads.step (h : Reads state kinds) (moved : state.step kind = .shift state') :
    Reads state' (kinds ++ [kind]) := by
  unfold State.step at moved
  split at moved
  · next stack _ =>
    have literal {n : Nat} (found : kind.value? = some n) :=
      reads_complete h ((Derives.literal found).mono (by decide))
    split at moved
    · split at moved
      · next found =>
        cases moved
        exact literal found
      · cases moved
    · split at moved
      · next found =>
        cases moved
        exact literal found
      · cases moved
    · next name =>
      cases moved
      exact reads_complete h ((Derives.symbol name).mono (by decide))
    · cases moved
      exact .group h
    · split at moved
      · next op found =>
        cases moved
        cases unary_punct found
        exact .unary op h
      · cases moved
    · cases moved
    · cases moved
  · next stack value =>
    have reduced := Holds.reduce h (show 1 ≤ 7 by decide)
    rw [← reduce_zero] at reduced
    split at moved
    · next outer inner found =>
      cases moved
      rw [found] at reduced
      obtain ⟨_, own, rfl, waits, derived, -⟩ := reduced
      cases waits with
      | group waits =>
        have whole := reads_complete waits ((Derives.group derived).mono (by decide))
        simpa only [List.append_assoc, List.cons_append, List.nil_append] using whole
    · cases moved
  · next stack value p _ =>
    split at moved
    · next op found =>
      cases moved
      cases binary_punct found
      obtain ⟨before, own, rfl, waits, derived, loose⟩ :=
        Holds.reduce h (Nat.le_succ_of_le (precedence_le op))
      exact .binary op waits loose derived
    · cases moved
  · cases moved

theorem Reads.shifts (h : Reads state kinds) (shifts : Shifts state kinds' last) :
    Reads last (kinds ++ kinds') := by
  induction shifts generalizing kinds with
  | refl =>
    rw [List.append_nil]
    exact h
  | step moved _ ih =>
    rw [List.append_cons]
    exact ih (h.step moved)

/-- What has been read when the machine has an expression derives that expression. -/
theorem derives_of_shifts (shifts : Shifts (.operand []) kinds last)
    (result : last.result = .ok value) : Derives 1 kinds value := by
  have start : Reads (.operand []) [] := Waits.nil
  have reads := start.shifts shifts
  rw [List.nil_append] at reads
  unfold State.result at result
  split at result
  · cases result
  · next stack top =>
    split at result
    · next found =>
      cases result
      have reduced := Holds.reduce reads (show 1 ≤ 7 by decide)
      rw [← reduce_zero, found] at reduced
      obtain ⟨_, own, rfl, waits, derived, -⟩ := reduced
      cases waits
      exact derived
    · cases result

end Soundness

/-- Behind an expression, only a binary operator leads on. -/
theorem step_eq_stop_iff (reduced : reduce 0 stack value = ([], expr)) :
    (State.operator stack value).step kind = .stop ↔ ∀ op : BinaryOp, kind ≠ .punct op.punct := by
  constructor
  · rintro stopped op rfl
    rw [step_binary_operator] at stopped
    cases stopped
  · intro apart
    unfold State.step
    split
    · next same =>
      cases same
    · next same =>
      cases same
      rw [reduced]
    · next p _ same =>
      cases same
      split
      · next op found => exact absurd (congrArg TokenKind.punct (binary_punct found)) (apart op)
      · rfl
    · rfl

theorem result_eq_ok_iff : last.result = .ok value ↔
    ∃ stack top, last = .operator stack top ∧ reduce 0 stack top = ([], value) := by
  constructor
  · intro result
    unfold State.result at result
    split at result
    · cases result
    · next stack top =>
      split at result
      · next found =>
        cases result
        exact ⟨stack, top, rfl, found⟩
      · cases result
  · rintro ⟨stack, top, rfl, reduced⟩
    simp only [State.result, reduced]

/-- The tokens that are read derive the expression, and no operator follows them. -/
theorem read_eq_ok_iff {cursor after : Cursor} :
    read cursor = .ok value after ↔
      ∃ n, n ≤ cursor.rest.length ∧ after = cursor.advance n ∧
        Derives 1 ((cursor.rest.take n).map Token.kind) value ∧
        ∀ token ∈ cursor.peekNth? n, ∀ op : BinaryOp, token.kind ≠ .punct op.punct := by
  rw [read, run_eq_ok_iff]
  constructor
  · rintro ⟨read, more, last, whole, rfl, shifts, result, stopped⟩
    obtain ⟨stack, top, rfl, reduced⟩ := result_eq_ok_iff.1 result
    refine ⟨read.length, ?_, ?_, ?_, fun token next => ?_⟩
    · rw [whole, List.length_append]
      exact Nat.le_add_right _ _
    · rw [Cursor.advance, whole, List.drop_left]
    · rw [whole, List.take_left]
      exact derives_of_shifts shifts result
    · rw [Cursor.peekNth?, whole, List.getElem?_append_right (Nat.le_refl _), Nat.sub_self,
        ← List.head?_eq_getElem?] at next
      exact (step_eq_stop_iff reduced).1 (stopped token next)
  · rintro ⟨n, bound, rfl, derived, apart⟩
    obtain ⟨stack, top, shifts, reduced⟩ := exists_shifts_of_derives derived
    refine ⟨cursor.rest.take n, cursor.rest.drop n, _, (List.take_append_drop n _).symm, ?_, shifts,
      result_eq_ok_iff.2 ⟨stack, top, rfl, reduced⟩, fun token next => ?_⟩
    · rw [List.length_take_of_le bound]
      rfl
    · rw [List.head?_drop] at next
      exact (step_eq_stop_iff reduced).2 (apart token next)

/-- The tokens of an expression are read where no operator follows them. -/
theorem read_of_apart {cursor : Cursor} {tokens more : List Token}
    (here : cursor.rest = tokens ++ more) (derived : Derives 1 (tokens.map Token.kind) value)
    (apart : ∀ token ∈ more.head?, ∀ op : BinaryOp, token.kind ≠ .punct op.punct) :
    read cursor = .ok value (cursor.advance tokens.length) := by
  refine read_eq_ok_iff.2 ⟨tokens.length, ?_, rfl, ?_, fun token next => apart token ?_⟩
  · rw [here, List.length_append]
    exact Nat.le_add_right _ _
  · rwa [here, List.take_left]
  · rwa [Cursor.peekNth?, ← List.head?_drop, here, List.drop_left] at next

/-- What is read stands before the place where reading stops. -/
theorem exists_append_of_read {cursor after : Cursor} (h : read cursor = .ok value after) :
    ∃ tokens, cursor.rest = tokens ++ after.rest ∧ Derives 1 (tokens.map Token.kind) value := by
  obtain ⟨n, -, rfl, derived, -⟩ := read_eq_ok_iff.1 h
  exact ⟨cursor.rest.take n, (List.take_append_drop n cursor.rest).symm, derived⟩

/-- The tree of an expression is unique. -/
theorem derives_unique (h : Derives 1 kinds expr) (h' : Derives 1 kinds value) : expr = value := by
  obtain ⟨stack, top, shifts, reduced⟩ := exists_shifts_of_derives h
  obtain ⟨stack', top', shifts', reduced'⟩ := exists_shifts_of_derives h'
  cases shifts.unique shifts'
  exact congrArg Prod.snd (reduced.symm.trans reduced')

/-- Parentheses leave no trace in the tree. -/
theorem derives_parentheses_iff (h : Derives 1 kinds expr) :
    Derives 1 (.punct .openParen :: kinds ++ [.punct .closeParen]) value ↔ value = expr := by
  have grouped := (Derives.group h).mono (by decide : 1 ≤ 8)
  constructor
  · intro h'
    exact derives_unique h' grouped
  · rintro rfl
    exact grouped

/-- Reading an expression gives the tree of the tokens it passes, and stops where no binary operator
stands. Those tokens have one tree, which shows no parentheses, and there is at least one. -/
theorem read_eq_ok_iff_derives (tokens : List Token) (start : Nat) :
    (∀ n value, read (.atIndex tokens start) = .ok value (.atIndex tokens (start + n)) ↔
      start + n ≤ tokens.length ∧ Derives 1 (((tokens.drop start).take n).map Token.kind) value ∧
        ∀ token ∈ tokens[start + n]?, ∀ op : BinaryOp, token.kind ≠ .punct op.punct) ∧
      (∀ value after, read (.atIndex tokens start) = .ok value after →
        ∃ n, 1 ≤ n ∧ after = .atIndex tokens (start + n)) ∧
      (∀ kinds value value', Derives 1 kinds value → Derives 1 kinds value' → value = value') ∧
      ∀ kinds value value', Derives 1 kinds value →
        (Derives 1 (.punct .openParen :: kinds ++ [.punct .closeParen]) value' ↔
          value' = value) := by
  have here (n : Nat) : (Cursor.atIndex tokens start).peekNth? n = tokens[start + n]? :=
    List.getElem?_drop
  refine ⟨fun n value => ?_, fun value after h => ?_, fun _ _ _ => derives_unique,
    fun _ _ _ => derives_parentheses_iff⟩
  · rw [read_eq_ok_iff, ← Cursor.atIndex_advance]
    constructor
    · rintro ⟨count, bound, same, derived, apart⟩
      obtain rfl : n = count := Nat.add_left_cancel (congrArg Cursor.position same)
      have some_read := List.length_pos_iff.2 derived.ne_nil
      simp only [Cursor.atIndex, List.length_map, List.length_take, List.length_drop]
        at bound some_read
      exact ⟨by omega, derived, here n ▸ apart⟩
    · rintro ⟨bound, derived, apart⟩
      refine ⟨n, ?_, rfl, derived, (here n).symm ▸ apart⟩
      simp only [Cursor.atIndex, List.length_drop]
      omega
  · obtain ⟨n, -, rfl, derived, -⟩ := read_eq_ok_iff.1 h
    have some_read := List.length_pos_iff.2 derived.ne_nil
    rw [List.length_map, List.length_take] at some_read
    exact ⟨n, by omega, Cursor.atIndex_advance tokens start n⟩

end Expr

end Asm65
