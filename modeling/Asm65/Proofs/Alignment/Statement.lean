import Asm65.Proofs.Alignment.Operand
import Asm65.Proofs.Placement.Match

/-!
# Statements at aligned cursors

Statements and labels read at aligned cursors agree. A statement that is read
leaves the cursor at its end.
-/

namespace Asm65

variable {a : Alignment}

namespace AddressText

theorem ofAddress?_agree {place : Placement} (address : Expr) (chars : Nat) {span span' : Span}
    (near : place.Rel span span') :
    Option.Rel (Agree place) (ofAddress? address chars span) (ofAddress? address chars span') := by
  unfold ofAddress?
  cases address.value? with
  | none => exact .some (.deferred _ _ near)
  | some value =>
    dsimp only
    split
    · exact .some (.bytes _ near)
    · exact .none

/-- Two counts read that are the same, with spans that are related. -/
def CountAgree (place : Placement) (count count' : Option Int64 × Span) : Prop :=
  count.1 = count'.1 ∧ place.Rel count.2 count'.2

theorem respects_readCount : a.Respects (CountAgree a.place) readCount readCount := by
  intro cursor cursor' aligned
  have results := Expr.respects_read aligned
  unfold readCount
  revert results
  generalize here : Expr.read cursor = result, there : Expr.read cursor' = result'
  rintro (⟨rfl, now⟩ | ⟨h, now⟩)
  · have later := (Expr.passes_read.of_ok here).mono (Nat.zero_le 1)
    have later' := (Expr.passes_read.of_ok there).mono (Nat.zero_le 1)
    exact .ok ⟨rfl, aligned.spanSince now later later'⟩ now
  · exact .error h now

theorem ofParts_agree {start start' afterAddress afterAddress' after after' : Cursor}
    {counted counted' : Option Int64 × Span} (address : Expr)
    (span : a.place.Rel (start.spanSince after) (start'.spanSince after'))
    (addressSpan : a.place.Rel (start.spanSince afterAddress) (start'.spanSince afterAddress'))
    (same : CountAgree a.place counted counted') (aligned : a.Cursors after after') :
    a.Results (Agree a.place) (ofParts start afterAddress address counted after)
      (ofParts start' afterAddress' address counted' after') := by
  obtain ⟨count, countSpan⟩ := counted
  obtain ⟨count', countSpan'⟩ := counted'
  obtain ⟨rfl : count = count', near⟩ := same
  cases count with
  | none => exact .error ⟨rfl, near⟩ aligned
  | some count =>
    simp only [ofParts, aligned.atEndOfStatement_iff]
    cases charCount? count with
    | none => exact .error ⟨rfl, near⟩ aligned
    | some chars =>
      dsimp only
      split
      · have text := ofAddress?_agree address chars span
        revert text
        generalize ofAddress? address chars _ = found, ofAddress? address chars _ = found'
        rintro (agree | _)
        · exact .ok agree aligned
        · exact .error ⟨rfl, addressSpan⟩ aligned
      · exact .error ⟨rfl, aligned.span⟩ aligned

theorem respects_read : a.Respects (Agree a.place) read read := by
  intro cursor cursor' aligned
  have addresses := Expr.respects_read aligned
  revert addresses
  generalize here : Expr.read cursor = result, there : Expr.read cursor' = result'
  rintro (@⟨address, _, now, now', rfl, afterAddress⟩ | ⟨h, now⟩)
  · have later := (Expr.passes_read.of_ok here).mono (Nat.zero_le 1)
    have later' := (Expr.passes_read.of_ok there).mono (Nat.zero_le 1)
    have commas := Alignment.respects_expect (.punct .comma) .charCount nofun afterAddress
    simp only [read, here, there]
    revert commas
    generalize comma : Reader.expect (.punct .comma) .charCount now = result,
      comma' : Reader.expect (.punct .comma) .charCount now' = result'
    rintro (@⟨_, _, middle, middle', rfl, afterComma⟩ | ⟨h, now⟩)
    · have passed := Reader.passes_expect (.punct .comma) .charCount
      have behind := later.trans ((passed.of_ok comma).mono (Nat.zero_le 1))
      have behind' := later'.trans ((passed.of_ok comma').mono (Nat.zero_le 1))
      have counts := respects_readCount afterComma
      dsimp only
      revert counts
      generalize count : readCount middle = result, count' : readCount middle' = result'
      rintro (⟨same, after⟩ | ⟨h, now⟩)
      · have whole := behind.trans ((passes_readCount.of_ok count).mono (Nat.zero_le 1))
        have whole' := behind'.trans ((passes_readCount.of_ok count').mono (Nat.zero_le 1))
        exact ofParts_agree address (aligned.spanSince after whole whole')
          (aligned.spanSince afterAddress later later') same after
      · exact .error h now
    · exact .error h now
  · simp only [read, here, there]
    exact .error h now

theorem atEndOfStatement_of_ofParts {start afterAddress after stop : Cursor} {address : Expr}
    {counted : Option Int64 × Span} {text : AddressText}
    (h : ofParts start afterAddress address counted after = .ok text stop) :
    stop.AtEndOfStatement := by
  obtain ⟨_ | count, countSpan⟩ := counted
  · cases h
  · unfold ofParts at h
    dsimp only at h
    split at h
    · cases h
    · split at h
      · next ended =>
        split at h
        · cases h
          exact ended
        · cases h
      · cases h

theorem atEndOfStatement_of_read {start stop : Cursor} {text : AddressText}
    (h : read start = .ok text stop) : stop.AtEndOfStatement := by
  unfold read at h
  split at h
  · cases h
  · split at h
    · cases h
    · split at h
      · cases h
      · exact atEndOfStatement_of_ofParts h

end AddressText

namespace Statement

theorem readInstruction_agree (table : Table) (config : Config) {mnemonic mnemonic' : Token}
    {cursor cursor' : Cursor} (aligned : a.Cursors cursor cursor')
    (agree : mnemonic.Agree a.place mnemonic') :
    a.Results (Agree a.place) (readInstruction table config mnemonic cursor)
      (readInstruction table config mnemonic' cursor') := by
  have lines := Operand.readLine_agree config aligned agree
  unfold readInstruction
  revert lines
  generalize here : Operand.readLine config mnemonic cursor = result,
    Operand.readLine config mnemonic' cursor' = result'
  rintro (⟨h, now⟩ | ⟨h, now⟩)
  · obtain ⟨name, rest, -, rfl, -⟩ := Operand.readLine_eq_ok_iff.1 here
    cases h with
    | cons head tail =>
      cases head with
      | @token _ _ span' near =>
        have outcome := Outcome.ofOperands_agree table config.features
          (Text.SameIgnoringCase.refl name) mnemonic.span span' tail
        have results := Outcome.result_agree (.cons (.token name near) tail)
          (List.cons_ne_nil _ _) outcome
        dsimp only
        revert results
        generalize Outcome.result _ _ = result, Outcome.result _ _ = result'
        rintro (⟨template, h⟩ | h)
        · exact .ok (.instruction template h) now
        · exact .error h now
  · exact .error h now

theorem readDirective_agree (name : String) {span span' : Span} (near : a.place.Rel span span') :
    a.Respects (Agree a.place) (readDirective name span) (readDirective name span') := by
  intro cursor cursor' aligned
  unfold readDirective
  split
  · have texts := AddressText.respects_read aligned
    revert texts
    generalize AddressText.read cursor = result, AddressText.read cursor' = result'
    rintro (⟨h, now⟩ | ⟨h, now⟩)
    · exact .ok (.addressText h) now
    · exact .error h now
  · exact .error ⟨rfl, near⟩ aligned

/-- A statement is read alike wherever it stands, unless the cursor is at its end already. -/
theorem read_agree (table : Table) (config : Config) {cursor cursor' : Cursor}
    (aligned : a.Cursors cursor cursor') (inside : ¬cursor.AtEndOfStatement) :
    a.Results (Agree a.place) (read table config cursor) (read table config cursor') := by
  obtain ⟨token, token', here, there, agree⟩ := aligned.peek
  have some_left : token.kind ≠ .endOfStatement := by
    simpa [Cursor.AtEndOfStatement, here] using inside
  have next := aligned.advance_one here some_left
  simp only [read, here, there, ← agree.kind]
  split
  · exact .error ⟨rfl, agree.span⟩ next
  · split
    · exact readDirective_agree _ agree.span next
    · exact readInstruction_agree table config next agree

theorem atEndOfStatement_of_read {table : Table} {config : Config} {cursor after : Cursor}
    {statement : Statement} (h : read table config cursor = .ok statement after) :
    after.AtEndOfStatement := by
  rcases read_eq_ok h with ⟨found, text, -⟩ | ⟨_, _, operands, _, -, -, -, items, -⟩
  · exact AddressText.atEndOfStatement_of_read text
  · exact Operand.atEndOfStatement_of_readItems items

theorem readLabel?_of_starts {cursor : Cursor} {name : String}
    (h : cursor.Starts [.name name, .punct .colon]) :
    readLabel? cursor = some (.label name cursor.span, cursor.advance 2) := by
  simp only [Cursor.Starts, prefix_kinds_iff] at h
  obtain ⟨_, _, here, _, _, rfl, _⟩ := h
  simp only [readLabel?, here, Cursor.span, Cursor.peek?, List.head?_cons]

theorem readLabel?_eq_none {cursor : Cursor}
    (h : ∀ name, ¬cursor.Starts [.name name, .punct .colon]) : readLabel? cursor = none := by
  unfold readLabel?
  split
  · next name _ _ _ here => exact absurd (by simp [Cursor.Starts, here]) (h name)
  · rfl

end Statement

end Asm65
