import Asm65.Proofs.Lexer
import Asm65.Proofs.Lines

/-!
# Accounting for every line

A line comes to a label for each name and colon in front of it, and then to
nothing, to one other statement, or to one diagnostic (`Accounts`). Every span
of it lies within the line. A source comes to what its lines come to, in order
(`ofSource_accounted`).
-/

namespace Asm65

/-- Whether a name and a colon are the first tokens. -/
def StartsWithLabel (line : List Token) : Prop :=
  ∃ name, [.name name, .punct .colon] <+: line.map Token.kind

/-- What a line may come to. -/
inductive Accounts : List Token → Assembly → Prop
  | label {name : String} {span colon : Span} {rest : List Token} {made : Assembly}
      (h : Accounts rest made) :
      Accounts (⟨.name name, span⟩ :: ⟨.punct .colon, colon⟩ :: rest)
        (.ofStatement (.label name span) ++ made)
  | blank (span : Span) : Accounts [⟨.endOfStatement, span⟩] ∅
  | statement {token : Token} {rest : List Token} {statement : Statement}
      (inside : token.kind ≠ .endOfStatement) (unlabelled : ¬StartsWithLabel (token :: rest))
      (h : ¬statement.IsLabel) : Accounts (token :: rest) (.ofStatement statement)
  | diagnostic {token : Token} {rest : List Token} {diagnostic : Diagnostic}
      (inside : token.kind ≠ .endOfStatement) (unlabelled : ¬StartsWithLabel (token :: rest)) :
      Accounts (token :: rest) (.ofDiagnostic diagnostic)

/-- Where the first token of a line starts. -/
def startOf (line : List Token) : Nat :=
  (line.head?.map fun token => token.span.offset).getD 0

theorem Span.offset_le_stop (span : Span) : span.offset ≤ span.stop :=
  Nat.le_add_right span.offset span.length

theorem stop_le_stopOf {tokens : List Token}
    (ordered : tokens.Pairwise fun token later => token.span.stop ≤ later.span.offset) :
    ∀ token ∈ tokens, token.span.stop ≤ Cursor.stopOf tokens := by
  induction tokens with
  | nil => simp
  | cons first rest ih =>
    obtain ⟨before, ordered'⟩ := List.pairwise_cons.1 ordered
    cases rest with
    | nil => simp [Cursor.stopOf]
    | cons second rest =>
      have same : Cursor.stopOf (first :: second :: rest) = Cursor.stopOf (second :: rest) := by
        rw [Cursor.stopOf, List.getLast?_cons_cons]
        rfl
      rw [same]
      intro token among
      rcases List.mem_cons.1 among with rfl | among
      · calc
          token.span.stop ≤ second.span.offset := before second List.mem_cons_self
          _ ≤ second.span.stop := second.span.offset_le_stop
          _ ≤ Cursor.stopOf (second :: rest) := ih ordered' second List.mem_cons_self
      · exact ih ordered' token among

/-- Tokens in order lie between the start of the first and the end of the last. -/
theorem inside_of_ordered {tokens : List Token}
    (ordered : tokens.Pairwise fun token later => token.span.stop ≤ later.span.offset) :
    ∀ token ∈ tokens, token.span.Inside (startOf tokens) (Cursor.stopOf tokens) := by
  intro token among
  refine ⟨?_, stop_le_stopOf ordered token among⟩
  cases tokens with
  | nil => cases among
  | cons first rest =>
    rcases List.mem_cons.1 among with rfl | among
    · exact Nat.le_refl _
    · exact Nat.le_trans first.span.offset_le_stop ((List.pairwise_cons.1 ordered).1 token among)

namespace Statement

theorem not_isLabel_of_read {table : Table} {config : Config} {cursor after : Cursor}
    {statement : Statement} (h : read table config cursor = .ok statement after) :
    ¬statement.IsLabel := by
  rcases read_eq_ok h with ⟨_, -, rfl⟩ | ⟨_, _, _, _, -, -, -, -, -, rfl⟩
  · rintro ⟨_, _, ⟨⟩⟩
  · rintro ⟨_, _, ⟨⟩⟩

end Statement

namespace Assembly

theorem accounts_ofCursor (table : Table) (config : Config) {line : List Token} (h : Line line)
    {cursor : Cursor} (here : cursor.rest = line) :
    Accounts line (ofCursor table config cursor) := by
  induction left : line.length using Nat.strongRecOn generalizing line cursor with
  | ind left' ih =>
    subst left
    have aligned := h.aligned here
    rw [ofCursor_of_rest table config aligned.rest_ne_nil]
    by_cases label : ∃ name, cursor.Starts [.name name, .punct .colon]
    · obtain ⟨name, starts⟩ := label
      obtain ⟨span, _, first, second⟩ := prefix_kinds_iff.1 starts
      obtain ⟨colon, rest, rfl, -⟩ := prefix_kinds_iff.1 second
      have place : cursor.span = span := by rw [Cursor.span, Cursor.peek?, first]; rfl
      have tail : (cursor.advance 2).rest = rest := by rw [Cursor.advance, first]; rfl
      rw [first] at here
      subst here
      rw [step_of_label starts, place]
      have line : Line rest := (h.of_cons (by simp)).of_cons (by simp)
      exact .label (ih _ (Nat.lt_succ_of_lt (Nat.lt_succ_self _)) line tail rfl)
    · have unlabelled : ¬StartsWithLabel line := by
        rw [StartsWithLabel, ← here]
        exact label
      have nothing : ofCursor table config (step table config cursor).2 = ∅ := by
        rw [step_skipStatement aligned fun name starts => label ⟨name, starts⟩]
        exact ofCursor_of_end table config aligned.rest_skipStatement
      rw [nothing, append_empty]
      cases h with
      | @last token closed =>
        obtain ⟨_, span⟩ := token
        have ended : cursor.AtEndOfStatement := by
          simpa [Cursor.AtEndOfStatement, Cursor.peek?, here] using closed
        rw [step, if_pos ended]
        subst closed
        exact .blank span
      | @cons token rest inside tail =>
        have unfinished : ¬cursor.AtEndOfStatement := by
          simpa [Cursor.AtEndOfStatement, Cursor.peek?, here] using inside
        rw [step_of_no_label unfinished fun name starts => label ⟨name, starts⟩]
        cases found : Statement.read table config cursor with
        | ok statement after =>
          exact .statement inside unlabelled (Statement.not_isLabel_of_read found)
        | error diagnostic after => exact .diagnostic inside unlabelled

theorem Agree.forall₂_spans {place : Placement} {assembly assembly' : Assembly}
    (h : assembly.Agree place assembly') :
    List.Forall₂ place.Rel assembly.spans assembly'.spans := by
  apply List.rel_append
  · exact List.rel_flatMap h.statements fun _ _ agree => agree.spans
  · rw [List.forall₂_map_left_iff, List.forall₂_map_right_iff]
    exact h.diagnostics.imp fun _ _ agree => agree.span

/-- The spans of an assembly that agrees with another one between two offsets lie there. -/
theorem Agree.inside {low high : Nat} {assembly assembly' : Assembly}
    (h : assembly.Agree (.within low high) assembly') :
    ∀ span ∈ assembly.spans, span.Inside low high := by
  have spans := h.forall₂_spans
  generalize assembly.spans = here, assembly'.spans = there at spans
  induction spans with
  | nil => simp
  | cons head _ ih =>
    intro span among
    rcases List.mem_cons.1 among with rfl | among
    · exact head.2
    · exact ih span among

/-- What a line comes to lies within the line. -/
theorem inside_of_line (table : Table) (config : Config) {line : List Token} (h : Line line)
    (ordered : line.Pairwise fun token later => token.span.stop ≤ later.span.offset) :
    ∀ span ∈ (ofCursor table config (.ofTokens line)).spans,
      span.Inside (startOf line) (Cursor.stopOf line) := by
  have agree : List.Forall₂ (Token.Agree (.within (startOf line) (Cursor.stopOf line))) line line :=
    List.forall₂_same.2 fun token among => ⟨rfl, rfl, inside_of_ordered ordered token among⟩
  exact (ofLine_agree table config h agree).inside

theorem ofLines_eq_foldr (table : Table) (config : Config) (lines : List (List Token)) :
    ofLines table config lines =
      (lines.map fun line => ofCursor table config (.ofTokens line)).foldr (· ++ ·) ∅ := by
  induction lines with
  | nil => rfl
  | cons line lines ih => rw [ofLines, ih, List.map_cons, List.foldr_cons]

/-- Every line of a source is accounted for once, and diagnosed where it stands. -/
theorem ofSource_accounted (table : Table) (config : Config) {source : String}
    {tokens : List Token} (h : Token.lex source = .ok tokens) :
    (splitLines tokens).flatten = tokens ∧ (∀ line ∈ splitLines tokens, Line line) ∧
      ∃ parts, ofSource table config source = parts.foldr (· ++ ·) ∅ ∧
        List.Forall₂ (fun line part => Accounts line part ∧
          ∀ span ∈ part.spans, span.Inside (startOf line) (Cursor.stopOf line))
          (splitLines tokens) parts := by
  have ended := Token.endsStatement_of_lex h
  have lines := line_of_mem_splitLines (.inr ended)
  refine ⟨flatten_splitLines tokens, lines,
    (splitLines tokens).map fun line => ofCursor table config (.ofTokens line), ?_, ?_⟩
  · simp only [ofSource, h]
    rw [ofCursor_eq_ofLines table config (.inr ended), ofLines_eq_foldr]
  · rw [List.forall₂_map_right_iff, List.forall₂_same]
    intro line among
    have part : line.Sublist tokens := by
      rw [← flatten_splitLines tokens]
      exact List.sublist_flatten_of_mem among
    have ordered := (Token.ordered_of_lex h).sublist part
    exact ⟨accounts_ofCursor table config (lines line among) rfl,
      inside_of_line table config (lines line among) ordered⟩

/-- A label, an instruction and a bad line. -/
theorem ofSource_accounted_bad_line :
    ∃ tokens, Token.lex "x: lda #1\n)" = .ok tokens ∧
      ∃ parts, ofSource (.ofTemplates [.ofMnemonic "lda" [.literal "#", .value .imm8] 0xA9 ∅]) {}
        "x: lda #1\n)" = parts.foldr (· ++ ·) ∅ ∧
        List.Forall₂ (fun line part => Accounts line part ∧
          ∀ span ∈ part.spans, span.Inside (startOf line) (Cursor.stopOf line))
          (splitLines tokens) parts := by
  have h : Token.lex "x: lda #1\n)" =
      .ok [⟨.name "x", ⟨0, 1⟩⟩, ⟨.punct .colon, ⟨1, 1⟩⟩, ⟨.name "lda", ⟨3, 3⟩⟩,
        ⟨.punct .hash, ⟨7, 1⟩⟩, ⟨.number .decimal "1", ⟨8, 1⟩⟩, ⟨.endOfStatement, ⟨9, 1⟩⟩,
        ⟨.punct .closeParen, ⟨10, 1⟩⟩, ⟨.endOfStatement, ⟨11, 0⟩⟩] := by
    cbv
  exact ⟨_, h, (ofSource_accounted _ _ h).2.2⟩

end Assembly

end Asm65
