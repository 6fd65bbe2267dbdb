import Asm65.Proofs.Alignment.Statement
import Asm65.Proofs.Lexer

/-!
# Lines

The tokens of a source fall into lines, each up to an end of statement.
Assembling a source is assembling each of its lines alone, in order
(`ofCursor_eq_ofLines`): whatever a statement or a diagnostic leaves unread,
the next statement is looked for behind the same end of statement.
-/

namespace Asm65

/-- Tokens of which the last one, and no other, ends a statement. -/
inductive Line : List Token → Prop
  | last {token : Token} (closed : token.kind = .endOfStatement) : Line [token]
  | cons {token : Token} {rest : List Token} (inside : token.kind ≠ .endOfStatement)
      (tail : Line rest) : Line (token :: rest)

namespace Line

variable {line more : List Token}

theorem ne_nil (h : Line line) : line ≠ [] := by
  cases h <;> exact List.cons_ne_nil _ _

theorem statementLength_append (h : Line line) (more : List Token) :
    Cursor.statementLength (line ++ more) = line.length := by
  induction h with
  | last closed => simp [Cursor.statementLength, closed]
  | cons inside _ ih => simp [Cursor.statementLength, inside, ih]

theorem skipStatement (h : Line line) {cursor : Cursor} (here : cursor.rest = line ++ more) :
    cursor.skipStatement = cursor.advance line.length := by
  rw [Cursor.skipStatement, here, h.statementLength_append]

/-- Lines whose tokens agree align whatever follows them. -/
theorem tokens {a : Alignment} {line' : List Token} (h : Line line)
    (agree : List.Forall₂ (Token.Agree a.place) line line') :
    a.Tokens (line ++ a.more) (line' ++ a.more') := by
  induction h generalizing line' with
  | last closed =>
    cases agree with
    | cons head tail =>
      cases tail
      exact .last head closed
  | cons inside _ ih =>
    cases agree with
    | cons head tail => exact .cons head inside (ih tail)

/-- Cursors in front of lines of the same kinds of tokens are aligned, wherever they stand. -/
theorem aligned_of_kinds {line' more' : List Token} (h : Line line)
    (same : line.map Token.kind = line'.map Token.kind) {cursor cursor' : Cursor}
    (here : cursor.rest = line ++ more) (there : cursor'.rest = line' ++ more') :
    (Alignment.mk .anywhere cursor.position cursor'.position more more').Cursors cursor
      cursor' := by
  refine ⟨Nat.add_comm _ _, ?_⟩
  rw [here, there]
  exact h.tokens (Token.agree_anywhere_iff.2 same)

theorem of_cons {token : Token} (h : Line (token :: line))
    (inside : token.kind ≠ .endOfStatement) : Line line := by
  cases h with
  | last closed => exact absurd closed inside
  | cons _ tail => exact tail

theorem eq_nil_of_cons {token : Token} (h : Line (token :: line))
    (closed : token.kind = .endOfStatement) : line = [] := by
  cases h with
  | last => rfl
  | cons inside => exact absurd closed inside

instance decidable : (line : List Token) → Decidable (Line line)
  | [] => .isFalse fun h => h.ne_nil rfl
  | token :: rest =>
    if closed : token.kind = .endOfStatement then
      decidable_of_iff (rest = [])
        ⟨fun alone => alone ▸ .last closed, fun h => h.eq_nil_of_cons closed⟩
    else
      have := decidable rest
      decidable_of_iff (Line rest) ⟨.cons closed, fun h => h.of_cons closed⟩

theorem of_kinds {kinds : List TokenKind} (inside : ∀ kind ∈ kinds, kind ≠ .endOfStatement)
    (h : line.map Token.kind = kinds ++ [.endOfStatement]) : Line line := by
  induction kinds generalizing line with
  | nil =>
    obtain ⟨token, rfl, closed⟩ := List.map_eq_singleton_iff.1 h
    exact .last closed
  | cons kind kinds ih =>
    obtain ⟨token, rest, rfl, same, tail⟩ := List.map_eq_cons_iff.1 h
    obtain ⟨apart, others⟩ := List.forall_mem_cons.1 inside
    exact .cons (same ▸ apart) (ih others tail)

/-- A cursor in front of a line is aligned with itself. -/
theorem aligned (h : Line line) {cursor : Cursor} (here : cursor.rest = line) :
    (Alignment.mk .same 0 0 [] []).Cursors cursor cursor := by
  refine ⟨rfl, ?_⟩
  have tokens := h.tokens (a := .mk .same 0 0 [] []) (List.forall₂_same.2 fun _ _ => ⟨rfl, rfl⟩)
  rw [List.append_nil] at tokens
  rw [here]
  exact tokens

end Line

/-- The lines of a token list, each up to its end of statement. -/
def splitLines : List Token → List (List Token)
  | [] => []
  | token :: rest =>
    if token.kind = .endOfStatement then [token] :: splitLines rest
    else
      match splitLines rest with
      | line :: lines => (token :: line) :: lines
      | [] => [[token]]

theorem flatten_splitLines (tokens : List Token) : (splitLines tokens).flatten = tokens := by
  induction tokens with
  | nil => rfl
  | cons token rest ih =>
    rw [splitLines]
    split
    · simp [ih]
    · cases h : splitLines rest with
      | nil =>
        rw [h] at ih
        simp [← ih]
      | cons line lines =>
        rw [h] at ih
        simp [← ih]

theorem endsStatement_cons {token : Token} {rest : List Token} (h : rest ≠ []) :
    Token.EndsStatement (token :: rest) ↔ Token.EndsStatement rest := by
  cases rest with
  | nil => exact absurd rfl h
  | cons => simp only [Token.EndsStatement, List.getLast?_cons_cons]

theorem line_of_mem_splitLines {tokens : List Token}
    (ended : tokens = [] ∨ Token.EndsStatement tokens) :
    ∀ line ∈ splitLines tokens, Line line := by
  induction tokens with
  | nil => simp [splitLines]
  | cons token rest ih =>
    have ended' : rest = [] ∨ Token.EndsStatement rest := by
      by_cases empty : rest = []
      · exact .inl empty
      · exact .inr ((endsStatement_cons empty).1 (ended.resolve_left (List.cons_ne_nil _ _)))
    have lines := ih ended'
    rw [splitLines]
    split
    · next closed =>
      intro line among
      rcases List.mem_cons.1 among with rfl | among
      · exact .last closed
      · exact lines line among
    · next inside =>
      cases h : splitLines rest with
      | nil =>
        have empty : rest = [] := by simpa [h] using (flatten_splitLines rest).symm
        subst empty
        have closed := ended.resolve_left (List.cons_ne_nil _ _)
        simp only [Token.EndsStatement, List.getLast?_singleton, Option.map_some,
          Option.some.injEq] at closed
        exact absurd closed inside
      | cons first others =>
        rw [h] at lines
        intro line among
        rcases List.mem_cons.1 among with rfl | among
        · exact .cons inside (lines first List.mem_cons_self)
        · exact lines line (List.mem_cons_of_mem _ among)

theorem Cursor.laterBy_advance_two {cursor : Cursor} {kind kind' : TokenKind}
    {kinds : List TokenKind} (h : cursor.Starts (kind :: kind' :: kinds)) :
    LaterBy 2 cursor (cursor.advance 2) := by
  obtain ⟨span, rest, here, second⟩ := prefix_kinds_iff.1 h
  obtain ⟨span', rest', rfl, -⟩ := prefix_kinds_iff.1 second
  exact laterBy_advance (by simp [here])

theorem Cursor.next_of_peek? {cursor : Cursor} {token : Token} (h : cursor.peek? = some token) :
    cursor.next = (some token, cursor.advance 1) := by
  simp only [next, h]

namespace Alignment.Cursors

variable {a : Alignment} {cursor cursor' now now' : Cursor}

theorem skipStatement_of_ended (h : a.Cursors cursor cursor') (ended : cursor.AtEndOfStatement) :
    cursor.skipStatement = cursor.advance 1 := by
  obtain ⟨token, -, here, -⟩ := h.peek
  have closed := ended token here
  unfold Cursor.peek? at here
  cases rest : cursor.rest with
  | nil => simp [rest] at here
  | cons first others =>
    simp only [rest, List.head?_cons, Option.some.injEq] at here
    simp only [Cursor.skipStatement, rest, Cursor.statementLength, here, closed, if_true]

/-- Wherever in a statement one stops, the next one starts at the same place. -/
theorem skipStatement_eq (h : a.Cursors now now') (start : a.Cursors cursor cursor')
    (later : Cursor.LaterBy 0 cursor now) : now.skipStatement = cursor.skipStatement := by
  obtain ⟨count, -, bound, rfl⟩ := later
  have before := start.tokens.statementLength_add
  have after := h.tokens.statementLength_add
  rw [Cursor.skipStatement, Cursor.skipStatement, Cursor.advance_advance]
  simp only [Cursor.advance, List.length_drop] at after ⊢
  congr 1 <;> congr 1 <;> omega

/-- Behind the statement stands what the alignment says. -/
theorem rest_skipStatement (h : a.Cursors cursor cursor') :
    cursor.skipStatement.rest = a.more :=
  h.tokens.drop_statement

end Alignment.Cursors

theorem endsStatement_agree {place : Placement} {tokens tokens' : List Token}
    (agree : List.Forall₂ (Token.Agree place) tokens tokens') :
    Token.EndsStatement tokens ↔ Token.EndsStatement tokens' := by
  have last := rel_getLast? agree
  unfold Token.EndsStatement
  revert last
  generalize tokens.getLast? = here, tokens'.getLast? = there
  rintro (h | _)
  · simp only [Option.map_some, h.kind]
  · rfl

theorem splitLines_agree {place : Placement} {tokens tokens' : List Token}
    (agree : List.Forall₂ (Token.Agree place) tokens tokens') :
    List.Forall₂ (List.Forall₂ (Token.Agree place)) (splitLines tokens) (splitLines tokens') := by
  induction agree with
  | nil => exact .nil
  | cons head _ ih =>
    simp only [splitLines, head.kind]
    split
    · exact .cons (.cons head .nil) ih
    · revert ih
      generalize splitLines _ = lines, splitLines _ = lines'
      rintro (_ | ⟨first, others⟩)
      · exact .cons (.cons head .nil) .nil
      · exact .cons (.cons head first) others

namespace Assembly

theorem step_of_label {table : Table} {config : Config} {cursor : Cursor} {name : String}
    (h : cursor.Starts [.name name, .punct .colon]) :
    step table config cursor = (ofStatement (.label name cursor.span), cursor.advance 2) := by
  have inside : ¬cursor.AtEndOfStatement := by
    obtain ⟨span, rest, here, _⟩ := prefix_kinds_iff.1 h
    simp [Cursor.AtEndOfStatement, Cursor.peek?, here]
  simp only [step, if_neg inside, Statement.readLabel?_of_starts h]

/-- What a step gives where no label stands. -/
theorem step_of_no_label {table : Table} {config : Config} {cursor : Cursor}
    (inside : ¬cursor.AtEndOfStatement)
    (h : ∀ name, ¬cursor.Starts [.name name, .punct .colon]) :
    step table config cursor =
      match Statement.read table config cursor with
      | .ok statement after => (ofStatement statement, after.next.2)
      | .error diagnostic after => (ofDiagnostic diagnostic, after.skipStatement) := by
  have unlabelled := Statement.readLabel?_eq_none h
  cases found : Statement.read table config cursor with
  | ok | error => simp only [step, if_neg inside, unlabelled, found]

/-- A step that reads no label leaves the cursor behind the end of the statement. -/
theorem step_skipStatement {a : Alignment} {table : Table} {config : Config}
    {cursor cursor' : Cursor}
    (aligned : a.Cursors cursor cursor') (h : ∀ name, ¬cursor.Starts [.name name, .punct .colon]) :
    (step table config cursor).2 = cursor.skipStatement := by
  by_cases ended : cursor.AtEndOfStatement
  · simp only [step, if_pos ended]
    exact (aligned.skipStatement_of_ended ended).symm
  · rw [step_of_no_label ended h]
    have results := Statement.read_agree table config aligned ended
    have passed := Statement.passes_read table config cursor
    revert results
    generalize found : Statement.read table config cursor = result,
      Statement.read table config cursor' = result'
    rw [found] at passed
    rintro (⟨-, now⟩ | ⟨-, now⟩)
    · have ended' := Statement.atEndOfStatement_of_read found
      obtain ⟨token, -, here, -⟩ := now.peek
      have next : (Cursor.next _).2 = _ := congrArg Prod.snd (Cursor.next_of_peek? here)
      dsimp only
      rw [next, ← now.skipStatement_of_ended ended']
      exact now.skipStatement_eq aligned (passed.mono (Nat.zero_le 1))
    · exact now.skipStatement_eq aligned passed

theorem step_agree {a : Alignment} (table : Table) (config : Config) {cursor cursor' : Cursor}
    (aligned : a.Cursors cursor cursor') :
    (step table config cursor).1.Agree a.place (step table config cursor').1 := by
  by_cases label : ∃ name, cursor.Starts [.name name, .punct .colon]
  · obtain ⟨name, h⟩ := label
    rw [step_of_label h, step_of_label ((aligned.starts_iff _ (by simp)).1 h)]
    exact .ofStatement (.label name aligned.span)
  · have h (name : String) : ¬cursor.Starts [.name name, .punct .colon] :=
      fun starts => label ⟨name, starts⟩
    by_cases ended : cursor.AtEndOfStatement
    · simp only [step, if_pos ended, if_pos (aligned.atEndOfStatement_iff.1 ended)]
      exact .empty
    · rw [step_of_no_label ended h, step_of_no_label (mt aligned.atEndOfStatement_iff.2 ended)
        fun name starts => h name ((aligned.starts_iff _ (by simp)).2 starts)]
      have results := Statement.read_agree table config aligned ended
      revert results
      generalize Statement.read table config cursor = result,
        Statement.read table config cursor' = result'
      rintro (⟨agree, -⟩ | ⟨agree, -⟩)
      · exact .ofStatement agree
      · exact .ofDiagnostic agree

/-- Two lines that agree give assemblies that agree, whatever follows them. -/
theorem ofCursor_agree {a : Alignment} (table : Table) (config : Config) {cursor cursor' : Cursor}
    (aligned : a.Cursors cursor cursor') : ∃ made made', made.Agree a.place made' ∧
      ofCursor table config cursor = made ++ ofCursor table config cursor.skipStatement ∧
      ofCursor table config cursor' = made' ++ ofCursor table config cursor'.skipStatement := by
  induction left : cursor.rest.length using Nat.strongRecOn generalizing cursor cursor' with
  | ind left' ih =>
    subst left
    have agree := step_agree table config aligned
    have here := ofCursor_of_rest table config aligned.rest_ne_nil
    have there := ofCursor_of_rest table config aligned.swap.rest_ne_nil
    by_cases label : ∃ name, cursor.Starts [.name name, .punct .colon]
    · obtain ⟨name, h⟩ := label
      have h' := (aligned.starts_iff _ (by simp)).1 h
      have later := Cursor.laterBy_advance_two h
      have next := aligned.advance_two h nofun nofun
      obtain ⟨made, made', agree', rest, rest'⟩ :=
        ih _ (Nat.lt_of_lt_of_le (Nat.lt_add_of_pos_right Nat.two_pos) later.length_le) next rfl
      rw [step_of_label h, rest, ← append_assoc,
        next.skipStatement_eq aligned (later.mono (Nat.zero_le 2))] at here
      rw [step_of_label h', rest', ← append_assoc, next.swap.skipStatement_eq aligned.swap
        ((Cursor.laterBy_advance_two h').mono (Nat.zero_le 2))] at there
      rw [step_of_label h, step_of_label h'] at agree
      exact ⟨_, _, agree.append agree', here, there⟩
    · have h (name : String) : ¬cursor.Starts [.name name, .punct .colon] :=
        fun starts => label ⟨name, starts⟩
      have h' (name : String) : ¬cursor'.Starts [.name name, .punct .colon] :=
        mt (aligned.starts_iff _ (by simp)).2 (h name)
      rw [step_skipStatement aligned h] at here
      rw [step_skipStatement aligned.swap h'] at there
      exact ⟨_, _, agree, here, there⟩

/-- The first line of some tokens is assembled as it would be alone, and so is what follows it. -/
theorem ofCursor_of_line (table : Table) (config : Config) {line more : List Token}
    (h : Line line) {cursor : Cursor} (here : cursor.rest = line ++ more) :
    ofCursor table config cursor =
      ofCursor table config (.ofTokens line) ++
        ofCursor table config (cursor.advance line.length) := by
  let a : Alignment := ⟨.same, cursor.position, 0, more, []⟩
  have agree : List.Forall₂ (Token.Agree a.place) line line :=
    List.forall₂_same.2 fun _ _ => ⟨rfl, rfl⟩
  have tokens := h.tokens agree
  rw [List.append_nil, ← here] at tokens
  have aligned : a.Cursors cursor (.ofTokens line) := ⟨Nat.add_comm _ _, tokens⟩
  obtain ⟨made, made', same, whole, alone⟩ := ofCursor_agree table config aligned
  rw [ofCursor_of_end table config aligned.swap.rest_skipStatement, append_empty,
    same.eq_of_same] at alone
  rw [whole, h.skipStatement here, alone]

/-- A line comes to the labels in front of it, whatever the table, and to what stands behind
them. -/
theorem exists_labels {line : List Token} (h : Line line) {cursor : Cursor}
    (here : cursor.rest = line) : ∃ labels : List Statement, (∀ label ∈ labels, label.IsLabel) ∧
      Line (cursor.advance (2 * labels.length)).rest ∧
      (∀ name, ¬(cursor.advance (2 * labels.length)).Starts [.name name, .punct .colon]) ∧
      ∀ table config, ofCursor table config cursor =
        ⟨labels, []⟩ ++ (step table config (cursor.advance (2 * labels.length))).1 := by
  induction left : line.length using Nat.strongRecOn generalizing line cursor with
  | ind left' ih =>
    subst left
    have aligned := h.aligned here
    by_cases label : ∃ name, cursor.Starts [.name name, .punct .colon]
    · obtain ⟨name, starts⟩ := label
      obtain ⟨span, _, first, second⟩ := prefix_kinds_iff.1 starts
      obtain ⟨colon, rest, rfl, -⟩ := prefix_kinds_iff.1 second
      have tail : (cursor.advance 2).rest = rest := by rw [Cursor.advance, first]; rfl
      rw [first] at here
      subst here
      have line : Line rest := (h.of_cons (by simp)).of_cons (by simp)
      obtain ⟨labels, named, behind, unlabelled, made⟩ :=
        ih _ (Nat.lt_succ_of_lt (Nat.lt_succ_self _)) line tail rfl
      refine ⟨.label name cursor.span :: labels, ?_⟩
      have place : 2 * (Statement.label name cursor.span :: labels).length =
          2 + 2 * labels.length := by
        rw [List.length_cons]
        omega
      rw [place, ← Cursor.advance_advance]
      refine ⟨List.forall_mem_cons.2 ⟨⟨name, _, rfl⟩, named⟩, behind, unlabelled, ?_⟩
      intro table config
      rw [ofCursor_of_rest table config aligned.rest_ne_nil, step_of_label starts, made,
        ← append_assoc]
      rfl
    · have unlabelled (name : String) : ¬cursor.Starts [.name name, .punct .colon] :=
        fun starts => label ⟨name, starts⟩
      refine ⟨[], by simp, here ▸ h, unlabelled, fun table config => ?_⟩
      have nothing : ofCursor table config (step table config cursor).2 = ∅ := by
        rw [step_skipStatement aligned unlabelled]
        exact ofCursor_of_end table config aligned.rest_skipStatement
      rw [ofCursor_of_rest table config aligned.rest_ne_nil, nothing, append_empty]
      rfl

/-- The lines of a source, each assembled alone. -/
def ofLines (table : Table) (config : Config) : List (List Token) → Assembly
  | [] => ∅
  | line :: lines => ofCursor table config (.ofTokens line) ++ ofLines table config lines

theorem ofLines_append (table : Table) (config : Config) (first second : List (List Token)) :
    ofLines table config (first ++ second) =
      ofLines table config first ++ ofLines table config second := by
  induction first with
  | nil => rfl
  | cons line lines ih => rw [List.cons_append, ofLines, ofLines, ih, append_assoc]

theorem ofCursor_flatten (table : Table) (config : Config) {lines : List (List Token)}
    (h : ∀ line ∈ lines, Line line) {cursor : Cursor} (here : cursor.rest = lines.flatten) :
    ofCursor table config cursor = ofLines table config lines := by
  induction lines generalizing cursor with
  | nil => exact ofCursor_of_end table config here
  | cons line lines ih =>
    rw [List.flatten_cons] at here
    have rest := Cursor.rest_advance here
    rw [ofCursor_of_line table config (h line List.mem_cons_self) here,
      ih (fun line' among => h line' (List.mem_cons_of_mem line among)) rest, ofLines]

/-- Assembling tokens is assembling each line of them alone. -/
theorem ofCursor_eq_ofLines (table : Table) (config : Config) {tokens : List Token}
    (ended : tokens = [] ∨ Token.EndsStatement tokens) :
    ofCursor table config (.ofTokens tokens) = ofLines table config (splitLines tokens) :=
  ofCursor_flatten table config (line_of_mem_splitLines ended) (flatten_splitLines tokens).symm

theorem ofSource_eq_ofLines (table : Table) (config : Config) {source : String}
    {tokens : List Token} (lexed : Token.lex source = .ok tokens) :
    ofSource table config source = ofLines table config (splitLines tokens) := by
  simp only [ofSource, lexed]
  exact ofCursor_eq_ofLines table config (.inr (Token.endsStatement_of_lex lexed))

/-- Whether an assembly is kept in another one: it is the same if nothing was wrong with it, and
otherwise its statements come first there. -/
structure KeptIn (before after : Assembly) : Prop where
  statements : before.statements <+: after.statements
  whole : before.diagnostics = [] → after = before

theorem KeptIn.refl (assembly : Assembly) : assembly.KeptIn assembly :=
  ⟨List.prefix_refl _, fun _ => rfl⟩

/-- A line keeps what it comes to under another table or configuration that reads the same
statements, and maybe more. -/
theorem keptIn_of_read {table table' : Table} {config config' : Config}
    (kept : ∀ start statement after, Statement.read table config start = .ok statement after →
      Statement.read table' config' start = .ok statement after)
    {line : List Token} (h : Line line) {cursor : Cursor} (here : cursor.rest = line) :
    (ofCursor table config cursor).KeptIn (ofCursor table' config' cursor) := by
  obtain ⟨labels, -, -, unlabelled, made⟩ := exists_labels h here
  rw [made, made]
  by_cases ended : (cursor.advance (2 * labels.length)).AtEndOfStatement
  · simp only [step, if_pos ended]
    exact .refl _
  · rw [step_of_no_label ended unlabelled, step_of_no_label ended unlabelled]
    cases found : Statement.read table config (cursor.advance (2 * labels.length)) with
    | ok statement after =>
      rw [kept _ _ _ found]
      exact .refl _
    | error diagnostic after =>
      refine ⟨?_, by rintro ⟨⟩⟩
      change labels ++ [] <+: labels ++ _
      rw [List.append_nil]
      exact List.prefix_append labels _

/-- Lines that agree make assemblies that agree. -/
theorem ofLine_agree {place : Placement} (table : Table) (config : Config)
    {line line' : List Token} (h : Line line)
    (agree : List.Forall₂ (Token.Agree place) line line') :
    (ofCursor table config (.ofTokens line)).Agree place
      (ofCursor table config (.ofTokens line')) := by
  let a : Alignment := ⟨place, 0, 0, [], []⟩
  have tokens := h.tokens (a := a) agree
  rw [List.append_nil, List.append_nil] at tokens
  have aligned : a.Cursors (.ofTokens line) (.ofTokens line') := ⟨rfl, tokens⟩
  obtain ⟨made, made', agree, here, there⟩ := ofCursor_agree table config aligned
  rw [ofCursor_of_end table config aligned.rest_skipStatement, append_empty] at here
  rw [ofCursor_of_end table config aligned.swap.rest_skipStatement, append_empty] at there
  rw [here, there]
  exact agree

theorem ofLines_agree {place : Placement} (table : Table) (config : Config)
    {lines lines' : List (List Token)} (h : ∀ line ∈ lines, Line line)
    (agree : List.Forall₂ (List.Forall₂ (Token.Agree place)) lines lines') :
    (ofLines table config lines).Agree place (ofLines table config lines') := by
  induction agree with
  | nil => exact .empty
  | @cons line line' lines lines' head _ ih =>
    have first := ofLine_agree table config (h line List.mem_cons_self) head
    have rest := ih fun line' among => h line' (List.mem_cons_of_mem line among)
    exact first.append rest

/-- Tokens that agree make assemblies that agree. -/
theorem ofTokens_agree {place : Placement} (table : Table) (config : Config)
    {tokens tokens' : List Token} (ended : tokens = [] ∨ Token.EndsStatement tokens)
    (agree : List.Forall₂ (Token.Agree place) tokens tokens') :
    (ofCursor table config (.ofTokens tokens)).Agree place
      (ofCursor table config (.ofTokens tokens')) := by
  have ended' : tokens' = [] ∨ Token.EndsStatement tokens' :=
    ended.imp (fun empty => by cases empty; cases agree; rfl) (endsStatement_agree agree).1
  rw [ofCursor_eq_ofLines table config ended, ofCursor_eq_ofLines table config ended']
  exact ofLines_agree table config (line_of_mem_splitLines ended) (splitLines_agree agree)

/-- Tokens behind an end of statement are assembled as they would be alone. -/
theorem ofCursor_append (table : Table) (config : Config) {first second : List Token}
    (ended : first = [] ∨ Token.EndsStatement first)
    (ended' : second = [] ∨ Token.EndsStatement second) :
    ofCursor table config (.ofTokens (first ++ second)) =
      ofCursor table config (.ofTokens first) ++ ofCursor table config (.ofTokens second) := by
  have lines : ∀ line ∈ splitLines first ++ splitLines second, Line line := by
    intro line among
    rcases List.mem_append.1 among with among | among
    · exact line_of_mem_splitLines ended line among
    · exact line_of_mem_splitLines ended' line among
  have here : (Cursor.ofTokens (first ++ second)).rest =
      (splitLines first ++ splitLines second).flatten := by
    rw [List.flatten_append, flatten_splitLines, flatten_splitLines]
    rfl
  rw [ofCursor_flatten table config lines here, ofLines_append,
    ofCursor_eq_ofLines table config ended, ofCursor_eq_ofLines table config ended']

end Assembly

end Asm65
