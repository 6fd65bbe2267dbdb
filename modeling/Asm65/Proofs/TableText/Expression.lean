import Asm65.Proofs.ParsingExpression
import Asm65.Proofs.TableText.Layout

/-!
# The parsing expression of tables

The rules of a table as parsing expressions (`Rules.table`), the entries that are
derived from a text (`derive?`), and how the parts of a rule are read.

## Implementation notes

Gaps stand between the parts of a rule (`Rules.spaced`), but there are none inside a
word, a literal, a register or an opcode. A rule does not start with a gap, so a
repetition has them between its items only (`Rules.repeated`). The proofs move each
gap to the item behind it (`Rules.run_repeated_iff`).
-/

namespace Asm65

namespace Table

/-- The rules of a table that leave a tree. -/
inductive Rule
  | entry
  | mnemonic
  | literal
  | literalText
  | register
  | registerName
  | operandClass
  | opcode
  | opcodeHex
  | requires
  | feature

namespace Rules

open Peg Layout

def newline : Peg Rule :=
  choice (word ['\n']) (choice (word ['\r', '\n']) (word ['\r']))

def blank : Peg Rule :=
  choice (char ' ') (char '\t')

/-- A character inside a line. -/
def inside : Peg Rule :=
  seq (absent newline) any

def comment : Peg Rule :=
  seq (char ';') (many inside)

/-- What may stand between two parts of a rule. -/
def gap : Peg Rule :=
  seq (many blank) (many (seq comment (many blank)))

/-- Two parts of a rule with a gap between them. -/
def spaced (first second : Peg Rule) : Peg Rule :=
  seq first (seq gap second)

/-- Any number of items, each behind a gap. -/
def gapped (item : Peg Rule) : Peg Rule :=
  many (seq gap item)

/-- Any number of items with gaps between them. -/
def repeated (item : Peg Rule) : Peg Rule :=
  opt (seq item (gapped item))

/-- A letter, and characters that continue a word. -/
def named (rule : Rule) (continues : Peg Rule) : Peg Rule :=
  leaf rule (seq (one Char.isAlpha) (many continues))

/-- A character inside quotes. -/
def quotable : Peg Rule :=
  seq (absent (char '\'')) inside

def literal : Peg Rule :=
  node .literal (seq (char '\'')
    (seq (leaf .literalText (seq quotable (many quotable))) (char '\'')))

def register : Peg Rule :=
  node .register (seq (char '%') (named .registerName (one Char.isAlphanum)))

def shape : Peg Rule :=
  choice literal (choice register (named .operandClass (one Char.isAlphanum)))

def hexDigit : Peg Rule :=
  one Text.Radix.hexadecimal.isDigit

def opcode : Peg Rule :=
  node .opcode (seq (char '$') (leaf .opcodeHex (seq hexDigit hexDigit)))

def feature : Peg Rule :=
  named .feature (choice (one Char.isAlphanum) (char '-'))

def requires : Peg Rule :=
  node .requires (spaced (char ':') (spaced feature (repeated feature)))

def entry : Peg Rule :=
  node .entry (spaced (named .mnemonic (one Char.isAlphanum))
    (spaced (repeated shape) (spaced (word ['=', '>']) (spaced opcode (opt requires)))))

/-- The expression of a table: entries or nothing, a line each, up to the end of the text. -/
def table : Peg Rule :=
  spaced .empty (spaced (repeated (spaced (opt entry) newline)) (spaced (opt entry) (absent any)))

end Rules

/-- The text of a tree that is a leaf. -/
def leafText : Peg.Tree Rule → String
  | .leaf _ text => String.ofList text
  | .node .. => ""

namespace Entry

/-- An entry with what one of its trees says. -/
def add (entry : Entry) : Peg.Tree Rule → Entry
  | .leaf .mnemonic text => { entry with mnemonic := String.ofList text }
  | .node .literal _ [text] =>
    { entry with shapes := entry.shapes ++ [.literal (leafText text)] }
  | .node .register _ [name] =>
    { entry with shapes := entry.shapes ++ [.register (leafText name)] }
  | .leaf .operandClass name =>
    { entry with shapes := entry.shapes ++ [.operandClass (String.ofList name)] }
  | .node .opcode _ [.leaf _ [high, low]] => { entry with high := high, low := low }
  | .node .requires _ names => { entry with features := entry.features ++ names.map leafText }
  | _ => entry

/-- An entry in a line that nothing is known of. -/
def bare (line : Nat) : Entry :=
  ⟨line, "", [], '0', '0', []⟩

/-- The entry that a tree in a text stands for. -/
def ofTree (text : List Char) : Peg.Tree Rule → Entry
  | .node _ here inner => inner.foldl add
      (bare (1 + (text.take (text.length - here.length)).count '\n'))
  | .leaf .. => bare 0

end Entry

/-- The entries of a text, if it can be derived. -/
def derive? (text : List Char) : Option (List Entry) :=
  (Rules.table.run text).map fun (trees, _) => trees.map (Entry.ofTree text)

namespace Rules

open Peg Layout

/-- Whether a character stands inside a line. -/
def isInside (c : Char) : Bool :=
  c ≠ '\n' && c ≠ '\r'

/-- Whether a line ends in front of a text. -/
def EndsLine (text : List Char) : Prop :=
  ∀ c ∈ text.head?, isInside c = false

def isBlankChar (c : Char) : Bool :=
  c == ' ' || c == '\t'

/-- The text behind a gap. -/
def leave (text : List Char) : List Char :=
  match text.dropWhile isBlankChar with
  | ';' :: rest => rest.dropWhile isInside
  | rest => rest

section Gaps

variable {text rest : List Char} {trees : List (Peg.Tree Rule)}

theorem run_newline_eq_some (h : newline.run text = some (trees, rest)) :
    trees = [] ∧ ∃ ending ∈ endings, text = ending ++ rest := by
  rcases run_choice_eq_some_iff.1 h with here | ⟨-, further⟩
  · obtain ⟨rfl, rfl⟩ := run_word_eq_some_iff.1 here
    exact ⟨rfl, ['\n'], by decide, rfl⟩
  · rcases run_choice_eq_some_iff.1 further with here | ⟨-, here⟩
    · obtain ⟨rfl, rfl⟩ := run_word_eq_some_iff.1 here
      exact ⟨rfl, ['\r', '\n'], by decide, rfl⟩
    · obtain ⟨rfl, rfl⟩ := run_word_eq_some_iff.1 here
      exact ⟨rfl, ['\r'], by decide, rfl⟩

theorem run_newline {ending : List Char} (ended : ending ∈ endings)
    (apart : ending = ['\r'] → text.head? ≠ some '\n') :
    newline.run (ending ++ text) = some ([], text) := by
  simp only [endings, List.mem_cons, List.not_mem_nil, or_false] at ended
  rcases ended with rfl | rfl | rfl
  · rfl
  · rfl
  · have alone : ¬ ['\r', '\n'] <+: ['\r'] ++ text := by
      rintro ⟨more, same⟩
      obtain ⟨-, rfl⟩ := List.cons.inj same
      exact apart rfl rfl
    rw [newline, run_choice_of_none (run_word_eq_none (by simp)),
      run_choice_of_none (run_word_eq_none alone), run_word]

theorem run_newline_eq_none (h : ∀ c ∈ text.head?, isInside c) : newline.run text = none := by
  rw [Option.eq_none_iff_forall_ne_some]
  rintro ⟨trees, rest⟩ found
  obtain ⟨-, ending, ended, rfl⟩ := run_newline_eq_some found
  simp only [endings, List.mem_cons, List.not_mem_nil, or_false] at ended
  rcases ended with rfl | rfl | rfl <;> cases h _ rfl

theorem exists_run_newline {c : Char} (h : isInside c = false) (text : List Char) :
    ∃ rest, newline.run (c :: text) = some ([], rest) := by
  have ends : c = '\n' ∨ c = '\r' := by
    simpa [isInside, or_iff_not_imp_left] using h
  rcases ends with rfl | rfl
  · exact ⟨text, rfl⟩
  · by_cases joined : text.head? = some '\n'
    · obtain ⟨more, rfl⟩ := List.head?_eq_some_iff.1 joined
      exact ⟨more, rfl⟩
    · have ended : ['\r'] ∈ endings := by decide
      exact ⟨text, run_newline ended fun _ => joined⟩

theorem run_inside : inside.run = (one isInside : Peg Rule).run := by
  funext text
  cases text with
  | nil => rfl
  | cons c text =>
    cases within : isInside c with
    | true =>
      have stuck : newline.run (c :: text) = none :=
        run_newline_eq_none (by rintro _ ⟨⟩; exact within)
      simp only [inside, run, stuck, any, within, if_true, List.nil_append]
    | false =>
      obtain ⟨rest, ended⟩ := exists_run_newline within text
      simp only [inside, run, ended, within, Bool.false_eq_true, if_false]

theorem run_blank : blank.run = (one isBlankChar : Peg Rule).run :=
  run_choice_one _ _

theorem run_comment (text : List Char) :
    comment.run (';' :: text) = some ([], text.dropWhile isInside) := by
  have taken : (many inside).run text = some ([], text.dropWhile isInside) := by
    rw [run_many_congr run_inside, run_many_one]
  exact run_seq (run_one_eq_some_iff.2 ⟨';', rfl, rfl, rfl⟩) taken

theorem run_comment_eq_none (h : text.head? ≠ some ';') : comment.run text = none := by
  cases text with
  | nil => rfl
  | cons c text =>
    have other : (c == ';') = false := beq_eq_false_iff_ne.2 fun same => h (congrArg some same)
    simp only [comment, char, run, other, Bool.false_eq_true, if_false]

theorem EndsLine.dropWhile_blank (h : EndsLine text) : text.dropWhile isBlankChar = text := by
  cases text with
  | nil => rfl
  | cons c text =>
    have outside := h c rfl
    have visible : isBlankChar c = false := by
      rw [← Bool.not_eq_true]
      intro space
      rcases Bool.or_eq_true_iff.1 space with same | same <;>
        (rw [eq_of_beq same] at outside; cases outside)
    rw [List.dropWhile_cons, visible, if_neg Bool.false_ne_true]

theorem endsLine_dropWhile (text : List Char) : EndsLine (text.dropWhile isInside) := by
  intro c first
  have stops := List.head?_dropWhile_not isInside text
  rwa [first] at stops

/-- No item starts where a line ends. -/
theorem EndsLine.eq_nil {item : List Char} (h : EndsLine (item ++ rest))
    (unbroken : IsUnbroken item) : item = [] := by
  cases item with
  | nil => rfl
  | cons c item =>
    obtain ⟨newline, single, -⟩ := isUnbroken_cons_iff.1 unbroken
    have within : isInside c := by simp [isInside, newline, single]
    cases (h c rfl).symm.trans within

theorem EndsLine.head?_ne (h : EndsLine text) {c : Char} (within : isInside c) :
    text.head? ≠ some c := by
  intro first
  cases (h c first).symm.trans within

theorem leave_of_comment (h : text.dropWhile isBlankChar = ';' :: rest) :
    leave text = rest.dropWhile isInside := by
  simp only [leave, h]

theorem leave_of_no_comment (h : (text.dropWhile isBlankChar).head? ≠ some ';') :
    leave text = text.dropWhile isBlankChar := by
  rw [leave]
  split
  · next rest here =>
    rw [here] at h
    exact absurd rfl h
  · rfl

/-- Behind the blanks of a gap there is a comment up to the end of its line, or the gap ends. -/
theorem leave_cases (text : List Char) :
    (∃ rest, text.dropWhile isBlankChar = ';' :: rest ∧ leave text = rest.dropWhile isInside) ∨
      (text.dropWhile isBlankChar).head? ≠ some ';' ∧ leave text = text.dropWhile isBlankChar := by
  by_cases comment : (text.dropWhile isBlankChar).head? = some ';'
  · obtain ⟨rest, here⟩ := List.head?_eq_some_iff.1 comment
    exact .inl ⟨rest, here, leave_of_comment here⟩
  · exact .inr ⟨comment, leave_of_no_comment comment⟩

/-- A gap is left behind whatever follows it. -/
theorem run_gap (text : List Char) : gap.run text = some ([], leave text) := by
  have blanks (text : List Char) :
      (many blank).run text = some ([], text.dropWhile isBlankChar) := by
    rw [run_many_congr run_blank, run_many_one]
  have none (text : List Char) (h : text.head? ≠ some ';') :
      (many (seq comment (many blank))).run text = some ([], text) := by
    apply run_many_of_none
    simp only [run, run_comment_eq_none h]
  have comments : (many (seq comment (many blank))).run (text.dropWhile isBlankChar) =
      some ([], leave text) := by
    rcases leave_cases text with ⟨rest, here, left⟩ | ⟨other, left⟩
    · have ends := endsLine_dropWhile rest
      have taken := run_seq (run_comment rest) (blanks _)
      rw [ends.dropWhile_blank] at taken
      rw [here, left]
      refine run_many_of_some taken ?_ (none _ (ends.head?_ne rfl))
      exact Nat.lt_succ_of_le (List.dropWhile_sublist isInside).length_le
    · rw [left]
      exact none _ other
  exact run_seq (blanks text) comments

/-- No gap can stand where one was left. -/
theorem leave_stops (text : List Char) : ∀ c ∈ (leave text).head?, c ∉ [' ', '\t', ';'] := by
  intro c first among
  simp only [List.mem_cons, List.not_mem_nil, or_false] at among
  rcases leave_cases text with ⟨rest, -, left⟩ | ⟨other, left⟩
  · rw [left] at first
    have outside := endsLine_dropWhile rest c first
    rcases among with rfl | rfl | rfl <;> cases outside
  · rw [left] at first
    have visible := List.head?_dropWhile_not isBlankChar text
    rw [first] at visible
    rcases among with rfl | rfl | rfl
    · cases visible
    · cases visible
    · exact other first

theorem leave_cons {c : Char} (h : c ∉ [' ', '\t', ';']) (text : List Char) :
    leave (c :: text) = c :: text := by
  simp only [List.mem_cons, List.not_mem_nil, or_false, not_or] at h
  have visible : isBlankChar c = false := by
    simp only [isBlankChar, Bool.or_eq_false_iff, beq_eq_false_iff_ne]
    exact ⟨h.1, h.2.1⟩
  have stays : (c :: text).dropWhile isBlankChar = c :: text := by
    rw [List.dropWhile_cons, visible, if_neg Bool.false_ne_true]
  have other : ((c :: text).dropWhile isBlankChar).head? ≠ some ';' := by
    rw [stays]
    exact fun first => h.2.2 (Option.some.inj first)
  rw [leave_of_no_comment other, stays]

theorem leave_leave (text : List Char) : leave (leave text) = leave text := by
  cases left : leave text with
  | nil => rfl
  | cons c rest =>
    have stops := leave_stops text
    rw [left] at stops
    exact leave_cons (stops c rfl) rest

theorem isUnbroken_takeWhile (text : List Char) : IsUnbroken (text.takeWhile isInside) := by
  have within := List.all_eq_true.1 (List.all_takeWhile (l := text) (p := isInside))
  constructor
  · intro among
    cases within _ among
  · intro among
    cases within _ among

/-- What is skipped in a gap may stand at the end of a line, and inside a line it is blank. -/
theorem exists_leave (text : List Char) : ∃ skipped, text = skipped ++ leave text ∧
    IsTail skipped ∧ (IsBlank skipped ∨ EndsLine (leave text)) := by
  have blanks : IsBlank (text.takeWhile isBlankChar) := by
    intro c among
    have space := List.all_eq_true.1 List.all_takeWhile c among
    simpa [isBlankChar] using space
  have whole := List.takeWhile_append_dropWhile (p := isBlankChar) (l := text)
  rcases leave_cases text with ⟨rest, here, left⟩ | ⟨-, left⟩
  · rw [left]
    refine ⟨text.takeWhile isBlankChar ++ ';' :: rest.takeWhile isInside, ?_,
      .comment blanks (isUnbroken_takeWhile rest), .inr (endsLine_dropWhile rest)⟩
    rw [List.append_assoc, List.cons_append, List.takeWhile_append_dropWhile, ← here, whole]
  · rw [left]
    exact ⟨text.takeWhile isBlankChar, whole.symm, .blank blanks, .inl blanks⟩

/-- In front of an item there are blanks only. -/
theorem exists_blank_of_leave {item : List Char} (h : leave text = item ++ rest)
    (some_item : item ≠ []) (unbroken : IsUnbroken item) :
    ∃ blank, IsBlank blank ∧ text = blank ++ (item ++ rest) := by
  obtain ⟨skipped, whole, -, blanks | ends⟩ := exists_leave text
  · exact ⟨skipped, blanks, h ▸ whole⟩
  · rw [h] at ends
    exact absurd (ends.eq_nil unbroken) some_item

theorem leave_blank_append {blank : List Char} (h : IsBlank blank) (text : List Char) :
    leave (blank ++ text) = leave text := by
  have all : ∀ c ∈ blank, isBlankChar c := by
    intro c among
    simpa [isBlankChar] using h c among
  rw [leave, List.dropWhile_append_of_pos all, ← leave]

theorem EndsLine.leave_eq_self (h : EndsLine text) : leave text = text := by
  have other : (text.dropWhile isBlankChar).head? ≠ some ';' := by
    rw [h.dropWhile_blank]
    exact h.head?_ne rfl
  rw [leave_of_no_comment other, h.dropWhile_blank]

theorem EndsLine.leave_tail_append {tail : List Char} (h : EndsLine text) (skipped : IsTail tail) :
    leave (tail ++ text) = text := by
  cases skipped with
  | blank blanks => rw [leave_blank_append blanks, h.leave_eq_self]
  | @comment blank comment blanks unbroken =>
    rw [List.append_assoc, leave_blank_append blanks]
    have all : ∀ c ∈ comment, isInside c := by
      intro c among
      simp only [isInside, Bool.and_eq_true, decide_eq_true_eq]
      exact ⟨fun same => unbroken.1 (same ▸ among), fun same => unbroken.2 (same ▸ among)⟩
    change (comment ++ text).dropWhile isInside = text
    rw [List.dropWhile_append_of_pos all]
    cases text with
    | nil => rfl
    | cons c text => rw [List.dropWhile_cons, h c rfl, if_neg Bool.false_ne_true]

end Gaps

section Parts

variable {first second item : Peg Rule} {rule : Rule} {text middle rest behind : List Char}
  {trees others : List (Peg.Tree Rule)}

theorem run_gap_seq (item : Peg Rule) (text : List Char) :
    (seq gap item).run text = item.run (leave text) := by
  rw [run, run_gap]
  cases read : item.run (leave text) with
  | none => simp only [read]
  | some result => simp only [read, List.nil_append]

theorem run_spaced_eq_some_iff : (spaced first second).run text = some (trees, rest) ↔
    ∃ before middle behind, first.run text = some (before, middle) ∧
      second.run (leave middle) = some (behind, rest) ∧ trees = before ++ behind := by
  rw [spaced, run_seq_eq_some_iff]
  simp only [run_gap_seq]

theorem run_spaced (here : first.run text = some (trees, middle))
    (further : second.run (leave middle) = some (others, rest)) :
    (spaced first second).run text = some (trees ++ others, rest) :=
  run_spaced_eq_some_iff.2 ⟨trees, middle, others, here, further, rfl⟩

/-- Whether an expression reads something whenever it reads a text. -/
def Progresses (item : Peg Rule) : Prop :=
  ∀ text trees rest, item.run text = some (trees, rest) → rest.length < text.length

theorem length_leave_le (text : List Char) : (leave text).length ≤ text.length := by
  obtain ⟨skipped, whole, -⟩ := exists_leave text
  have length := congrArg List.length whole
  rw [List.length_append] at length
  omega

theorem run_gapped_of_none (h : item.run (leave text) = none) :
    (gapped item).run text = some ([], text) :=
  run_many_of_none ((run_gap_seq item text).trans h)

theorem run_gapped_of_some (progress : Progresses item)
    (here : item.run (leave text) = some (trees, middle))
    (further : (gapped item).run middle = some (others, rest)) :
    (gapped item).run text = some (trees ++ others, rest) :=
  run_many_of_some ((run_gap_seq item text).trans here)
    (Nat.lt_of_lt_of_le (progress _ _ _ here) (length_leave_le text)) further

theorem exists_run_gapped (item : Peg Rule) (text : List Char) :
    ∃ trees rest, (gapped item).run text = some (trees, rest) := by
  rw [gapped, run]
  exact ⟨_, _, rfl⟩

/-- What holds in front of a gap that no item follows, and also in front of one more item, holds of
all items. -/
theorem gapped_induction {motive : List Char → List (Peg.Tree Rule) → List Char → Prop}
    (progress : Progresses item)
    (stop : ∀ text, item.run (leave text) = none → motive text [] text)
    (more : ∀ text trees middle others rest, item.run (leave text) = some (trees, middle) →
      motive middle others rest → motive text (trees ++ others) rest)
    (h : (gapped item).run text = some (trees, rest)) : motive text trees rest := by
  refine many_induction (fun text trees rest read => ?_) (fun text none => ?_)
    (fun text trees middle others rest here => ?_) h
  · rw [run_gap_seq] at read
    exact Nat.lt_of_lt_of_le (progress _ _ _ read) (length_leave_le text)
  · exact stop text ((run_gap_seq item text).symm.trans none)
  · exact more _ _ _ _ _ ((run_gap_seq item text).symm.trans here)

/-- Items with gaps between them, in a gap, are items with a gap in front of each. -/
theorem run_repeated_iff (progress : Progresses item) :
    (∃ rest, (repeated item).run (leave text) = some (trees, rest) ∧ leave rest = behind) ↔
      ∃ rest, (gapped item).run text = some (trees, rest) ∧ leave rest = behind := by
  cases read : item.run (leave text) with
  | none =>
    have stuck : (seq item (gapped item)).run (leave text) = none := by
      rw [run, read]
    rw [repeated, run_opt_of_none stuck, run_gapped_of_none read]
    constructor
    · rintro ⟨_, ⟨⟩, rfl⟩
      exact ⟨text, rfl, (leave_leave text).symm⟩
    · rintro ⟨_, ⟨⟩, rfl⟩
      exact ⟨leave text, rfl, leave_leave text⟩
  | some result =>
    obtain ⟨before, middle⟩ := result
    obtain ⟨others, rest, further⟩ := exists_run_gapped item middle
    rw [repeated, run_opt_of_some (run_seq read further), run_gapped_of_some progress read further]

theorem length_lt_of_append {word : List Char} (h : word ≠ []) :
    rest.length < (word ++ rest).length := by
  rw [List.length_append]
  exact Nat.lt_add_of_pos_left (List.length_pos_iff.2 h)

theorem leave_word {continues : Char → Bool} {name : String} (h : IsWord continues name)
    (rest : List Char) : leave (name.toList ++ rest) = name.toList ++ rest := by
  obtain ⟨c, letters, spelled, letter, -⟩ := h
  rw [spelled, List.cons_append]
  apply leave_cons
  intro blank
  simp only [List.mem_cons, List.not_mem_nil, or_false] at blank
  rcases blank with rfl | rfl | rfl <;> cases letter

/-- A word of a rule goes on as far as it can. -/
theorem run_named_eq_some_iff {continuation : Peg Rule} {continues : Char → Bool}
    (h : continuation.run = (one continues : Peg Rule).run) :
    (named rule continuation).run text = some (trees, rest) ↔
      ∃ name, IsWord continues name ∧ EndsWord continues rest ∧ text = name.toList ++ rest ∧
        trees = [.leaf rule name.toList] := by
  rw [named, run_leaf_many_eq_some_iff rfl h]
  constructor
  · rintro ⟨c, letters, letter, all, ends, rfl, rfl⟩
    refine ⟨String.ofList (c :: letters), ⟨c, letters, String.toList_ofList, letter, all⟩, ends, ?_⟩
    rw [String.toList_ofList]
    exact ⟨rfl, rfl⟩
  · rintro ⟨name, ⟨c, letters, spelled, letter, all⟩, ends, rfl, rfl⟩
    rw [spelled]
    exact ⟨c, letters, letter, all, ends, rfl, rfl⟩

/-- A word ends where its line does. -/
theorem EndsLine.endsWord_append {continues : Char → Bool} (h : EndsLine behind)
    (newline : continues '\n' = false) (single : continues '\r' = false)
    (ends : EndsWord continues text) : EndsWord continues (text ++ behind) := by
  cases text with
  | nil =>
    intro c first
    have outside := h c first
    simp only [isInside, Bool.and_eq_false_iff, decide_eq_false_iff_not, not_not] at outside
    rcases outside with rfl | rfl
    · exact newline
    · exact single
  | cons c text => exact ends

theorem endsWord_of_append {continues : Char → Bool} (h : EndsWord continues (text ++ behind)) :
    EndsWord continues text := by
  cases text with
  | nil => exact nofun
  | cons c text => exact h

end Parts

end Rules

end Table

end Asm65
