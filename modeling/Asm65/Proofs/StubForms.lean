import Asm65.Proofs.OperandGrammar

/-!
# Where stub forms come from

A modifier is read in its stub form exactly if the word for a stub stands first
between its parentheses, or its name is already that of a stub form
(`OperandExpr.read_isStub_iff`).

## Implementation notes

A name and the name with the word behind it are looked up in one table, so stub
forms have names of their own, and these are the names that end in the word
(`Modifier.isStub_iff_exists_base`).
-/

namespace Asm65

namespace Modifier

variable {name : String} {kind stub : Modifier}

/-- Whether a modifier is the stub form of another. -/
def isStub : Modifier → Bool
  | low8Stub | high8Stub | addr16LowStub | addr16HighStub => true
  | _ => false

/-- A name stands for a stub form if it is another text with the word for a stub behind it. -/
theorem isStub_iff_exists_base (known : ofName? name = some kind) :
    kind.isStub ↔ ∃ base, Text.SameIgnoringCase name (base ++ "_" ++ stubWord) := by
  have ended : ∀ pair ∈ names, pair.2.isStub ↔ ['_', 'g', 's'] <:+ pair.1.toList := by
    decide +kernel
  have word (base : String) :
      (base ++ "_" ++ stubWord).toLower.toList = base.toLower.toList ++ ['_', 'g', 's'] := by
    rw [String.append_assoc, Text.toList_toLower, String.toList_append, List.map_append,
      Text.toList_toLower]
    rfl
  rw [ended _ (Text.mem_of_lookup known)]
  constructor
  · rintro ⟨front, split⟩
    refine ⟨String.ofList front, String.toList_inj.1 ?_⟩
    have lower : name.toLower.toList.map Char.toLower = name.toLower.toList := by
      rw [← Text.toList_toLower, Text.toLower_toLower]
    rw [← split, List.map_append] at lower
    rw [word, ← split, Text.toList_toLower (String.ofList front), String.toList_ofList]
    exact lower.symm
  · rintro ⟨base, same⟩
    exact ⟨base.toLower.toList, by rw [same, word]⟩

theorem isStub_of_stub? (has : stub? name = some stub) : stub.isStub :=
  (isStub_iff_exists_base has).2 ⟨name, .refl _⟩

end Modifier

namespace OperandExpr

variable {cursor now : Cursor} {signs : List TokenKind} {negated : Bool} {name : String}
  {kind stub : Modifier} {expr : OperandExpr}

/-- The modifier that an operand expression is under. -/
def kind? : OperandExpr → Option Modifier
  | plain _ => none
  | modified kind _ _ => some kind

/-- A call of a modifier by its name, behind a sign that may be missing. -/
structure Calls (cursor : Cursor) (signs : List TokenKind) (negated : Bool) (name : String)
    (kind : Modifier) : Prop where
  sign : Sign signs negated
  starts : cursor.Starts (signs ++ [.name name, .punct .openParen])
  known : Modifier.ofName? name = some kind

/-- A call in which the word for a stub stands first is read as the stub form, and of its tokens the
inner expression has those behind the word. -/
theorem Calls.exists_of_asksForStub (call : Calls cursor signs negated name kind)
    (asks : AsksForStub name stub (cursor.advance (signs.length + 2)))
    (h : read cursor = .ok expr now) :
    ∃ tokens word kinds inner, expr = .modified stub inner negated ∧
      cursor.rest = tokens ++ now.rest ∧
      tokens.map Token.kind = signs ++ .name name :: grouped (.name word :: kinds) ∧
      Text.SameIgnoringCase word Modifier.stubWord ∧ Inside kinds inner := by
  rw [read_of_modifier call.known call.sign call.starts] at h
  obtain ⟨found, middle, own, kinds, inner, passed, here, closes, inside, rfl⟩ :=
    exists_inside_of_readArgument h
  rw [readStub_of_asksForStub asks] at passed
  cases passed
  obtain ⟨-, word, same, starts⟩ := asks
  obtain ⟨argument, behind, within⟩ := Cursor.exists_append_of_starts starts here
  have opening : (signs ++ [TokenKind.name name, .punct .openParen]).length = signs.length + 2 :=
    List.length_append
  obtain ⟨tokens, whole, spelled⟩ := Cursor.exists_append_of_starts call.starts (opening ▸ behind)
  refine ⟨tokens, word, kinds, inner, rfl, whole, ?_, same, inside⟩
  rw [spelled, within, closes, List.append_assoc]
  rfl

theorem Calls.exists_of_unasked (call : Calls cursor signs negated name kind)
    (unasked : ∀ stub, ¬AsksForStub name stub (cursor.advance (signs.length + 2)))
    (h : read cursor = .ok expr now) : ∃ inner, expr = .modified kind inner negated := by
  rw [read_of_modifier call.known call.sign call.starts] at h
  obtain ⟨found, middle, own, kinds, inner, passed, -, -, -, rfl⟩ := exists_inside_of_readArgument h
  rw [readStub_of_unasked unasked] at passed
  cases passed
  exact ⟨inner, rfl⟩

/-- Only a call is read as a stub form: what the two angle brackets stand for is none. -/
theorem exists_calls_of_isStub (h : read cursor = .ok expr now)
    (isStub : expr.kind?.any Modifier.isStub) :
    ∃ signs negated name kind, Calls cursor signs negated name kind := by
  rcases half_or_named_or_plain cursor with
    ⟨p, kind, half, starts⟩ | ⟨signs, negated, name, sign, starts⟩ | plain
  · rw [read_of_half half starts] at h
    obtain ⟨value, _, -, last⟩ := Reader.bind_eq_ok_iff.1 h
    cases last
    cases half <;> cases isStub
  · cases known : Modifier.ofName? name with
    | some kind => exact ⟨signs, negated, name, kind, sign, starts, known⟩
    | none =>
      obtain ⟨same, behind⟩ := read_of_sign sign starts
      rw [same, readUnsigned_of_unknown known behind] at h
      cases h
  · rw [read_of_plain plain] at h
    obtain ⟨value, _, -, last⟩ := Reader.bind_eq_ok_iff.1 h
    cases last
    cases isStub

/-- A modifier is read in its stub form exactly if the word for a stub stands first between its
parentheses, and then the word is no part of the inner expression, or if the word ends the name that
it is called by. -/
theorem read_isStub_iff (h : read cursor = .ok expr now) :
    (expr.kind?.any Modifier.isStub ↔
      ∃ signs negated name kind, Calls cursor signs negated name kind ∧
        ((∃ stub, AsksForStub name stub (cursor.advance (signs.length + 2))) ∨
          ∃ base, Text.SameIgnoringCase name (base ++ "_" ++ Modifier.stubWord))) ∧
      ∀ signs negated name kind stub, Calls cursor signs negated name kind →
        AsksForStub name stub (cursor.advance (signs.length + 2)) →
          ∃ tokens word kinds inner, expr = .modified stub inner negated ∧
            cursor.rest = tokens ++ now.rest ∧
            tokens.map Token.kind = signs ++ .name name :: grouped (.name word :: kinds) ∧
            Text.SameIgnoringCase word Modifier.stubWord ∧ Inside kinds inner := by
  refine ⟨⟨fun isStub => ?_, ?_⟩, fun _ _ _ _ _ call asks => call.exists_of_asksForStub asks h⟩
  · obtain ⟨signs, negated, name, kind, call⟩ := exists_calls_of_isStub h isStub
    refine ⟨signs, negated, name, kind, call, or_iff_not_imp_left.2 fun unasked => ?_⟩
    obtain ⟨inner, rfl⟩ := call.exists_of_unasked (not_exists.1 unasked) h
    exact (Modifier.isStub_iff_exists_base call.known).1 isStub
  · rintro ⟨signs, negated, name, kind, call, asked⟩
    by_cases asks : ∃ stub, AsksForStub name stub (cursor.advance (signs.length + 2))
    · obtain ⟨stub, asks⟩ := asks
      obtain ⟨_, _, _, inner, rfl, -⟩ := call.exists_of_asksForStub asks h
      exact Modifier.isStub_of_stub? asks.1
    · obtain ⟨inner, rfl⟩ := call.exists_of_unasked (not_exists.1 asks) h
      exact (Modifier.isStub_iff_exists_base call.known).2 (asked.resolve_left asks)

/-- In `-lo(GS f)` the word asks for the stub form, and the inner expression is `f`. -/
theorem read_isStub_iff_negated :
    let cursor : Cursor := .ofTokens [⟨.punct .dash, ⟨0, 1⟩⟩, ⟨.name "lo", ⟨1, 2⟩⟩,
      ⟨.punct .openParen, ⟨3, 1⟩⟩, ⟨.name "GS", ⟨4, 2⟩⟩, ⟨.name "f", ⟨7, 1⟩⟩,
      ⟨.punct .closeParen, ⟨8, 1⟩⟩]
    let expr : OperandExpr := .modified .low8Stub (.symbol "f") true
    read cursor = .ok expr (cursor.advance 6) ∧ expr.kind?.any Modifier.isStub ∧
      ∃ tokens word kinds, cursor.rest = tokens ++ (cursor.advance 6).rest ∧
        tokens.map Token.kind = .punct .dash :: .name "lo" :: grouped (.name word :: kinds) ∧
        Text.SameIgnoringCase word Modifier.stubWord ∧ Inside kinds (.symbol "f") := by
  intro cursor expr
  have call : Calls cursor [.punct .dash] true "lo" .low8 :=
    ⟨.minus, ⟨_, rfl⟩, by decide +kernel⟩
  have word : "GS".toLower = "gs".toLower := by cbv
  have asks : AsksForStub "lo" .low8Stub (cursor.advance 3) :=
    ⟨by decide +kernel, "GS", word, ⟨_, rfl⟩⟩
  have argument : readArgument "lo" .low8 true (cursor.advance 3) =
      .ok expr (cursor.advance 6) := by
    rw [readArgument, Reader.bind_of_ok (readStub_of_asksForStub asks)]
    cbv
  have found := (read_of_modifier call.known call.sign call.starts).trans argument
  obtain ⟨stub, behind⟩ := read_isStub_iff found
  obtain ⟨tokens, word, kinds, inner, same, read⟩ := behind _ _ _ _ _ call asks
  obtain ⟨-, rfl, -⟩ := modified.inj same
  exact ⟨found, stub.2 ⟨_, _, _, _, call, .inl ⟨_, asks⟩⟩, tokens, word, kinds, read⟩

/-- The name in `lo_gs(5)` is that of a stub form, for which no word asks. -/
theorem exists_read_isStub_unasked : ∃ cursor expr now, read cursor = .ok expr now ∧
    expr.kind?.any Modifier.isStub ∧
      ∀ signs negated name kind stub, Calls cursor signs negated name kind →
        ¬AsksForStub name stub (cursor.advance (signs.length + 2)) := by
  let cursor : Cursor := .ofTokens [⟨.name "lo_gs", ⟨0, 5⟩⟩, ⟨.punct .openParen, ⟨5, 1⟩⟩,
    ⟨.number .decimal "5", ⟨6, 1⟩⟩, ⟨.punct .closeParen, ⟨7, 1⟩⟩]
  have found : read cursor = .ok (.modified .low8Stub (.constant 5) false) (cursor.advance 4) := by
    cbv
  refine ⟨cursor, _, _, found, rfl, fun signs negated name kind stub call asks => ?_⟩
  obtain ⟨sign, ⟨_, starts⟩, -⟩ := call
  obtain ⟨-, word, -, ⟨_, follows⟩⟩ := asks
  cases sign with
  | missing => cases follows
  | plus | minus => cases starts

end OperandExpr

end Asm65
