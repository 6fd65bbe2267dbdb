import Mathlib.Data.List.Basic

/-!
# Parsing expressions

A parsing expression reads a text from its front (`Peg.run`). A choice takes the first
side that reads anything at all, and a repetition goes on for as long as it can: neither
looks at what is to be read behind it. The rules that have read something are left in
trees.

## Implementation notes

A repetition stops at a body that reads nothing, so that a run ends for every
expression.
-/

namespace Asm65

/-- What the rules of a grammar have read. A node stands for a rule that was read where a text
starts, with the trees of what it consists of. A leaf has the text of its rule. -/
inductive Peg.Tree (ρ : Type)
  | node (rule : ρ) (here : List Char) (inner : List (Tree ρ))
  | leaf (rule : ρ) (text : List Char)

/-- A parsing expression over some rules. -/
inductive Peg (ρ : Type)
  | empty
  /-- One character that is accepted. -/
  | one (accepts : Char → Bool)
  | seq (first second : Peg ρ)
  /-- The second side stands only where the first one does not. -/
  | choice (first second : Peg ρ)
  | many (body : Peg ρ)
  /-- Reads nothing, in front of a text that the body does not read. -/
  | absent (body : Peg ρ)
  /-- A rule whose parts are kept. -/
  | node (rule : ρ) (body : Peg ρ)
  /-- A rule of which the text is kept. -/
  | leaf (rule : ρ) (body : Peg ρ)

namespace Peg

variable {ρ : Type}

/-- What is read by a reader that is repeated until it fails, or reads nothing. -/
def iterate (reader : List Char → Option (List (Tree ρ) × List Char)) (text : List Char) :
    List (Tree ρ) × List Char :=
  match reader text with
  | some (trees, rest) =>
    if _ : rest.length < text.length then
      (trees ++ (iterate reader rest).1, (iterate reader rest).2)
    else ([], text)
  | none => ([], text)
termination_by text.length

/-- The trees that an expression reads at the front of a text, and the text behind them. -/
@[simp]
def run : Peg ρ → List Char → Option (List (Tree ρ) × List Char)
  | empty, text => some ([], text)
  | one _, [] => none
  | one accepts, c :: rest => if accepts c then some ([], rest) else none
  | seq first second, text =>
    match first.run text with
    | some (trees, middle) =>
      match second.run middle with
      | some (others, rest) => some (trees ++ others, rest)
      | none => none
    | none => none
  | choice first second, text =>
    match first.run text with
    | some result => some result
    | none => second.run text
  | many body, text => some (iterate body.run text)
  | absent body, text =>
    match body.run text with
    | some _ => none
    | none => some ([], text)
  | node rule body, text =>
    match body.run text with
    | some (trees, rest) => some ([.node rule text trees], rest)
    | none => none
  | leaf rule body, text =>
    match body.run text with
    | some (_, rest) => some ([.leaf rule (text.take (text.length - rest.length))], rest)
    | none => none

/-- Any character. -/
def any : Peg ρ :=
  one fun _ => true

/-- One character and no other. -/
def char (c : Char) : Peg ρ :=
  one (· == c)

/-- Some characters, one behind the other. -/
def word : List Char → Peg ρ
  | [] => empty
  | c :: rest => seq (char c) (word rest)

/-- An expression, or nothing. -/
def opt (body : Peg ρ) : Peg ρ :=
  choice body empty

section Runs

variable {body first second : Peg ρ} {accepts : Char → Bool} {rule : ρ} {c : Char}
  {text middle rest : List Char} {trees others : List (Tree ρ)}

theorem run_one_eq_some_iff : (one accepts : Peg ρ).run text = some (trees, rest) ↔
    ∃ c, accepts c ∧ text = c :: rest ∧ trees = [] := by
  cases text with
  | nil => exact ⟨nofun, nofun⟩
  | cons c text =>
    rw [run]
    constructor
    · intro read
      split at read
      · next accepted =>
        cases read
        exact ⟨c, accepted, rfl, rfl⟩
      · cases read
    · rintro ⟨_, accepted, ⟨⟩, rfl⟩
      rw [if_pos accepted]

theorem run_char_eq_some_iff : (char c : Peg ρ).run text = some (trees, rest) ↔
    text = c :: rest ∧ trees = [] := by
  rw [char, run_one_eq_some_iff]
  constructor
  · rintro ⟨d, same, rfl, rfl⟩
    rw [eq_of_beq same]
    exact ⟨rfl, rfl⟩
  · rintro ⟨rfl, rfl⟩
    exact ⟨c, beq_self_eq_true c, rfl, rfl⟩

theorem run_seq_eq_some_iff : (seq first second).run text = some (trees, rest) ↔
    ∃ before middle behind, first.run text = some (before, middle) ∧
      second.run middle = some (behind, rest) ∧ trees = before ++ behind := by
  rw [run]
  constructor
  · intro read
    split at read
    · next before middle here =>
      split at read
      · next behind _ further =>
        cases read
        exact ⟨before, middle, behind, here, further, rfl⟩
      · cases read
    · cases read
  · rintro ⟨before, middle, behind, here, further, rfl⟩
    rw [here]
    simp only [further]

theorem run_seq (here : first.run text = some (trees, middle))
    (further : second.run middle = some (others, rest)) :
    (seq first second).run text = some (trees ++ others, rest) :=
  run_seq_eq_some_iff.2 ⟨trees, middle, others, here, further, rfl⟩

theorem run_choice_of_none (h : first.run text = none) :
    (choice first second).run text = second.run text := by
  rw [run, h]

theorem run_choice_eq_some_iff : (choice first second).run text = some (trees, rest) ↔
    first.run text = some (trees, rest) ∨
      first.run text = none ∧ second.run text = some (trees, rest) := by
  rw [run]
  cases first.run text with
  | none => simp
  | some result => simp

theorem run_word_eq_some_iff {letters : List Char} :
    (word letters : Peg ρ).run text = some (trees, rest) ↔ text = letters ++ rest ∧ trees = [] := by
  induction letters generalizing text trees with
  | nil =>
    rw [word, run, Option.some.injEq, Prod.mk.injEq, eq_comm, and_comm]
    rfl
  | cons c letters ih =>
    rw [word, run_seq_eq_some_iff]
    constructor
    · rintro ⟨_, middle, _, here, further, rfl⟩
      obtain ⟨rfl, rfl⟩ := run_char_eq_some_iff.1 here
      obtain ⟨rfl, rfl⟩ := ih.1 further
      exact ⟨rfl, rfl⟩
    · rintro ⟨rfl, rfl⟩
      exact ⟨[], letters ++ rest, [], run_char_eq_some_iff.2 ⟨rfl, rfl⟩, ih.2 ⟨rfl, rfl⟩, rfl⟩

theorem run_word (letters rest : List Char) :
    (word letters : Peg ρ).run (letters ++ rest) = some ([], rest) :=
  run_word_eq_some_iff.2 ⟨rfl, rfl⟩

theorem run_word_eq_none {letters : List Char} (h : ¬ letters <+: text) :
    (word letters : Peg ρ).run text = none := by
  rw [Option.eq_none_iff_forall_ne_some]
  rintro ⟨trees, rest⟩ found
  exact h ⟨rest, (run_word_eq_some_iff.1 found).1.symm⟩

theorem run_opt_of_some (h : body.run text = some (trees, rest)) :
    (opt body).run text = some (trees, rest) :=
  run_choice_eq_some_iff.2 (.inl h)

theorem run_opt_of_none (h : body.run text = none) : (opt body).run text = some ([], text) :=
  run_choice_of_none h

theorem run_opt_eq_some (h : (opt body).run text = some (trees, rest)) :
    body.run text = some (trees, rest) ∨ body.run text = none ∧ trees = [] ∧ rest = text := by
  rcases run_choice_eq_some_iff.1 h with here | ⟨none, nothing⟩
  · exact .inl here
  · rw [run] at nothing
    cases nothing
    exact .inr ⟨none, rfl, rfl⟩

theorem run_node_eq_some_iff : (node rule body).run text = some (trees, rest) ↔
    ∃ inner, body.run text = some (inner, rest) ∧ trees = [.node rule text inner] := by
  rw [run]
  cases body.run text with
  | none => exact ⟨nofun, nofun⟩
  | some result => simp [Prod.ext_iff, eq_comm, and_comm]

theorem run_leaf_eq_some_iff : (leaf rule body).run text = some (trees, rest) ↔
    ∃ inner, body.run text = some (inner, rest) ∧
      trees = [.leaf rule (text.take (text.length - rest.length))] := by
  rw [run]
  cases body.run text with
  | none => exact ⟨nofun, nofun⟩
  | some result =>
    obtain ⟨inner, rest'⟩ := result
    constructor
    · rintro ⟨⟩
      exact ⟨inner, rfl, rfl⟩
    · rintro ⟨_, ⟨⟩, rfl⟩
      rfl

theorem run_many_of_none (h : body.run text = none) : (many body).run text = some ([], text) := by
  rw [run, iterate, h]

theorem run_many_of_some (here : body.run text = some (trees, middle))
    (shorter : middle.length < text.length)
    (further : (many body).run middle = some (others, rest)) :
    (many body).run text = some (trees ++ others, rest) := by
  rw [run, Option.some.injEq] at further
  rw [run, iterate, here]
  simp only [dif_pos shorter, further]

/-- What holds where a repetition stops, and also in front of one more item, holds of all that the
repetition reads. -/
theorem many_induction {motive : List Char → List (Tree ρ) → List Char → Prop}
    (progress : ∀ text trees rest, body.run text = some (trees, rest) → rest.length < text.length)
    (stop : ∀ text, body.run text = none → motive text [] text)
    (more : ∀ text trees middle others rest, body.run text = some (trees, middle) →
      motive middle others rest → motive text (trees ++ others) rest)
    (h : (many body).run text = some (trees, rest)) : motive text trees rest := by
  rw [run, Option.some.injEq] at h
  fun_induction iterate body.run text generalizing trees rest with
  | case1 text before middle here _ ih =>
    cases h
    exact more _ _ _ _ _ here (ih rfl)
  | case2 text before middle here longer => exact absurd (progress _ _ _ here) longer
  | case3 text none =>
    cases h
    exact stop _ none

theorem length_iterate_le (reader : List Char → Option (List (Tree ρ) × List Char))
    (text : List Char) : (iterate reader text).2.length ≤ text.length := by
  fun_induction iterate reader text with
  | case1 text before middle here shorter ih => exact Nat.le_trans ih (Nat.le_of_lt shorter)
  | case2 | case3 => exact Nat.le_refl _

/-- An expression leaves no more than there was. -/
theorem length_run_le (h : body.run text = some (trees, rest)) : rest.length ≤ text.length := by
  induction body generalizing text trees rest with
  | empty =>
    cases h
    exact Nat.le_refl _
  | one =>
    obtain ⟨c, -, rfl, -⟩ := run_one_eq_some_iff.1 h
    exact Nat.le_succ _
  | seq first second ih ih' =>
    obtain ⟨_, middle, _, here, further, -⟩ := run_seq_eq_some_iff.1 h
    exact Nat.le_trans (ih' further) (ih here)
  | choice first second ih ih' =>
    rcases run_choice_eq_some_iff.1 h with here | ⟨-, here⟩
    · exact ih here
    · exact ih' here
  | many body =>
    rw [run, Option.some.injEq] at h
    rw [← (Prod.mk.inj h).2]
    exact length_iterate_le _ _
  | absent body =>
    rw [run] at h
    split at h <;> cases h
    exact Nat.le_refl _
  | node rule body ih =>
    obtain ⟨_, here, -⟩ := run_node_eq_some_iff.1 h
    exact ih here
  | leaf rule body ih =>
    obtain ⟨_, here, -⟩ := run_leaf_eq_some_iff.1 h
    exact ih here

/-- A repetition of single characters takes all of them. -/
theorem run_many_one (accepts : Char → Bool) (text : List Char) :
    (many (one accepts : Peg ρ)).run text = some ([], text.dropWhile accepts) := by
  induction text with
  | nil => exact run_many_of_none rfl
  | cons c text ih =>
    by_cases accepted : accepts c
    · rw [List.dropWhile_cons, if_pos accepted]
      exact run_many_of_some (run_one_eq_some_iff.2 ⟨c, accepted, rfl, rfl⟩) (Nat.lt_succ_self _) ih
    · rw [List.dropWhile_cons, if_neg accepted]
      exact run_many_of_none (by rw [run, if_neg accepted])

theorem run_choice_one (accepts accepts' : Char → Bool) :
    (choice (one accepts) (one accepts') : Peg ρ).run =
      (one fun c => accepts c || accepts' c).run := by
  funext text
  cases text with
  | nil => rfl
  | cons c text => by_cases accepted : accepts c <;> simp [run, accepted]

theorem run_many_congr (h : first.run = second.run) : (many first).run = (many second).run := by
  funext text
  rw [run, run, h]

/-- A character that is none of some others. -/
theorem run_absent_one_seq (accepts accepts' : Char → Bool) (h : body.run = (one accepts').run) :
    (seq (absent (one accepts)) body).run = (one fun c => !accepts c && accepts' c).run := by
  funext text
  cases text with
  | nil => simp [run, h]
  | cons c text => by_cases accepted : accepts c <;> by_cases further : accepts' c <;>
      simp [run, h, accepted, further]

/-- A rule of characters takes as many of them as there are. -/
theorem run_leaf_many_eq_some_iff {accepts accepts' : Char → Bool}
    (h : first.run = (one accepts).run) (h' : second.run = (one accepts').run) :
    (leaf rule (seq first (many second))).run text = some (trees, rest) ↔
      ∃ c letters, accepts c ∧ (∀ d ∈ letters, accepts' d) ∧
        (∀ d ∈ rest.head?, accepts' d = false) ∧ text = c :: (letters ++ rest) ∧
        trees = [.leaf rule (c :: letters)] := by
  have taken (text : List Char) : (many second).run text = some ([], text.dropWhile accepts') := by
    rw [run_many_congr h', run_many_one]
  have whole (c : Char) (letters rest : List Char) :
      (c :: (letters ++ rest)).take ((c :: (letters ++ rest)).length - rest.length) =
        c :: letters := by
    rw [← List.cons_append, List.length_append, Nat.add_sub_cancel, List.take_left]
  rw [run_leaf_eq_some_iff]
  constructor
  · rintro ⟨_, read, rfl⟩
    obtain ⟨_, middle, _, here, further, rfl⟩ := run_seq_eq_some_iff.1 read
    rw [h] at here
    obtain ⟨c, accepted, rfl, rfl⟩ := run_one_eq_some_iff.1 here
    rw [taken] at further
    cases further
    have split := List.takeWhile_append_dropWhile (p := accepts') (l := middle)
    refine ⟨c, middle.takeWhile accepts', accepted, List.all_eq_true.1 List.all_takeWhile,
      fun d first => ?_, by rw [split], ?_⟩
    · have stops := List.head?_dropWhile_not accepts' middle
      rwa [first] at stops
    · have text := whole c (middle.takeWhile accepts') (middle.dropWhile accepts')
      rw [split] at text
      rw [text]
  · rintro ⟨c, letters, accepted, all, ends, rfl, rfl⟩
    have here : first.run (c :: (letters ++ rest)) = some ([], letters ++ rest) := by
      rw [h]
      exact run_one_eq_some_iff.2 ⟨c, accepted, rfl, rfl⟩
    have further : (many second).run (letters ++ rest) = some ([], rest) := by
      rw [taken, List.dropWhile_append_of_pos all]
      cases rest with
      | nil => rfl
      | cons d rest => rw [List.dropWhile_cons, ends d rfl, if_neg Bool.false_ne_true]
    exact ⟨[], run_seq here further, by rw [whole]⟩

end Runs

end Peg

end Asm65
