import Asm65.Proofs.Alignment

/-!
# Expressions at aligned cursors

The readers of expressions and of modifiers give the same expression at
aligned cursors, since they look at the kinds of tokens only.

## Implementation notes

The readers of modifiers choose by the next two or three tokens. Each choice
has an equation under the kinds that lead to it.
-/

namespace Asm65

namespace Expr

variable {a : Alignment}

theorem step_endOfStatement (state : State) : state.step .endOfStatement = .stop := by
  cases state <;> rfl

theorem finish_agree (state : State) {cursor cursor' : Cursor}
    (aligned : a.Cursors cursor cursor') :
    a.Results Eq (run.finish state cursor) (run.finish state cursor') := by
  unfold run.finish
  split
  · exact .ok rfl aligned
  · exact .error ⟨rfl, aligned.span⟩ aligned

theorem run_agree {tokens tokens' : List Token} (h : a.Tokens tokens tokens') (stop stop' : Nat)
    (state : State) {position position' : Nat} (near : position + a.base' = position' + a.base) :
    a.Results Eq (run stop state position tokens) (run stop' state position' tokens') := by
  induction h generalizing state position position' with
  | last agree closed =>
    have closed' := agree.kind.symm.trans closed
    unfold run
    rw [closed, closed', step_endOfStatement]
    exact finish_agree state ⟨near, .last agree closed⟩
  | cons agree inside tail ih =>
    have near' : position + 1 + a.base' = position' + 1 + a.base := by omega
    unfold run
    rw [← agree.kind]
    cases state.step _ with
    | shift state' => exact ih state' near'
    | outOfRange => exact .error ⟨rfl, agree.span⟩ ⟨near', tail⟩
    | stop => exact finish_agree state ⟨near, .cons agree inside tail⟩

theorem respects_read : a.Respects Eq read read :=
  fun _ _ aligned => run_agree aligned.tokens _ _ (.operand []) aligned.position

end Expr

namespace OperandExpr

variable {a : Alignment}

theorem readSign_of_minus {cursor : Cursor} {name : String}
    (h : cursor.Starts [.punct .dash, .name name, .punct .openParen]) :
    readSign cursor = .ok true (cursor.advance 1) := by
  simp only [Cursor.Starts, prefix_kinds_iff] at h
  obtain ⟨_, _, here, _, _, rfl, _, _, rfl, _⟩ := h
  rw [readSign, here]

theorem readSign_of_plus {cursor : Cursor} {name : String}
    (h : cursor.Starts [.punct .plus, .name name, .punct .openParen]) :
    readSign cursor = .ok false (cursor.advance 1) := by
  simp only [Cursor.Starts, prefix_kinds_iff] at h
  obtain ⟨_, _, here, _, _, rfl, _, _, rfl, _⟩ := h
  rw [readSign, here]

theorem readSign_of_unsigned {cursor : Cursor}
    (minus : ∀ name, ¬cursor.Starts [.punct .dash, .name name, .punct .openParen])
    (plus : ∀ name, ¬cursor.Starts [.punct .plus, .name name, .punct .openParen]) :
    readSign cursor = .ok false cursor := by
  unfold readSign
  split
  · next _ _ name _ _ _ here => exact absurd (by simp [Cursor.Starts, here]) (minus name)
  · next _ _ name _ _ _ here => exact absurd (by simp [Cursor.Starts, here]) (plus name)
  · rfl

theorem respects_readSign : a.Respects Eq readSign readSign := by
  intro cursor cursor' aligned
  have alike (sign : Punct) (name : String) :=
    aligned.starts_iff [.punct sign, .name name, .punct .openParen] (by simp)
  by_cases minus : ∃ name, cursor.Starts [.punct .dash, .name name, .punct .openParen]
  · obtain ⟨name, here⟩ := minus
    rw [readSign_of_minus here, readSign_of_minus ((alike _ _).1 here)]
    exact .ok rfl (aligned.advance_of_starts here nofun)
  · by_cases plus : ∃ name, cursor.Starts [.punct .plus, .name name, .punct .openParen]
    · obtain ⟨name, here⟩ := plus
      rw [readSign_of_plus here, readSign_of_plus ((alike _ _).1 here)]
      exact .ok rfl (aligned.advance_of_starts here nofun)
    · rw [not_exists] at minus plus
      rw [readSign_of_unsigned minus plus,
        readSign_of_unsigned (by simpa only [alike] using minus) (by simpa only [alike] using plus)]
      exact .ok rfl aligned

theorem respects_readStub (name : String) (kind : Modifier) :
    a.Respects Eq (readStub name kind) (readStub name kind) := by
  intro cursor cursor' aligned
  obtain ⟨token, token', here, there, agree⟩ := aligned.peek
  simp only [readStub, here, there, ← agree.kind]
  cases Modifier.stub? name with
  | none => exact .ok rfl aligned
  | some stub =>
    by_cases word : token.kind.IsName Modifier.stubWord
    · have inside : token.kind ≠ .endOfStatement := by
        obtain ⟨spelling, same, _⟩ := word
        rw [same]
        nofun
      simp only [if_pos word]
      exact .ok rfl (aligned.advance_one here inside)
    · simp only [if_neg word]
      exact .ok rfl aligned

theorem respects_readClose : a.Respects Eq readClose readClose :=
  Alignment.respects_expect (.punct .closeParen) .closeParen nofun

theorem respects_group (sign : Expr → Expr) :
    a.Respects Eq (readInner.group sign) (readInner.group sign) :=
  Expr.respects_read.bind fun same => respects_readClose.bind fun _ =>
    Alignment.respects_pure (congrArg sign same)

theorem readInner_of_minus {cursor : Cursor}
    (h : cursor.Starts [.punct .dash, .punct .openParen]) :
    readInner cursor = readInner.group (.unary .neg) (cursor.advance 2) := by
  simp only [Cursor.Starts, prefix_kinds_iff] at h
  obtain ⟨_, _, here, _, _, rfl, _⟩ := h
  rw [readInner, here]

theorem readInner_of_plus {cursor : Cursor}
    (h : cursor.Starts [.punct .plus, .punct .openParen]) :
    readInner cursor = readInner.group id (cursor.advance 2) := by
  simp only [Cursor.Starts, prefix_kinds_iff] at h
  obtain ⟨_, _, here, _, _, rfl, _⟩ := h
  rw [readInner, here]

theorem readInner_of_unsigned {cursor : Cursor}
    (minus : ¬cursor.Starts [.punct .dash, .punct .openParen])
    (plus : ¬cursor.Starts [.punct .plus, .punct .openParen]) :
    readInner cursor = Expr.read cursor := by
  unfold readInner
  split
  · next here => exact absurd (by simp [Cursor.Starts, here]) minus
  · next here => exact absurd (by simp [Cursor.Starts, here]) plus
  · rfl

theorem respects_readInner : a.Respects Eq readInner readInner := by
  intro cursor cursor' aligned
  have alike (sign : Punct) :=
    aligned.starts_iff [.punct sign, .punct .openParen] (by simp)
  by_cases minus : cursor.Starts [.punct .dash, .punct .openParen]
  · rw [readInner_of_minus minus, readInner_of_minus ((alike _).1 minus)]
    exact respects_group _ (aligned.advance_two minus nofun nofun)
  · by_cases plus : cursor.Starts [.punct .plus, .punct .openParen]
    · rw [readInner_of_plus plus, readInner_of_plus ((alike _).1 plus)]
      exact respects_group _ (aligned.advance_two plus nofun nofun)
    · rw [readInner_of_unsigned minus plus,
        readInner_of_unsigned (mt (alike _).2 minus) (mt (alike _).2 plus)]
      exact Expr.respects_read aligned

theorem respects_readArgument (name : String) (kind : Modifier) (negated : Bool) :
    a.Respects Eq (readArgument name kind negated) (readArgument name kind negated) :=
  (respects_readStub name kind).bind fun kinds => respects_readInner.bind fun exprs =>
    respects_readClose.bind fun _ => Alignment.respects_pure (by rw [kinds, exprs])

theorem readUnsigned_of_less {negated : Bool} {cursor : Cursor}
    (h : cursor.Starts [.punct .less]) :
    readUnsigned negated cursor = readUnsigned.half negated .addr16Low (cursor.advance 1) := by
  obtain ⟨_, _, here, _⟩ := prefix_kinds_iff.1 h
  rw [readUnsigned, here]

theorem readUnsigned_of_greater {negated : Bool} {cursor : Cursor}
    (h : cursor.Starts [.punct .greater]) :
    readUnsigned negated cursor = readUnsigned.half negated .addr16High (cursor.advance 1) := by
  obtain ⟨_, _, here, _⟩ := prefix_kinds_iff.1 h
  rw [readUnsigned, here]

theorem readUnsigned_of_name {negated : Bool} {cursor : Cursor} {name : String}
    {kind : Modifier} (known : Modifier.ofName? name = some kind)
    (h : cursor.Starts [.name name, .punct .openParen]) :
    readUnsigned negated cursor = readArgument name kind negated (cursor.advance 2) := by
  simp only [Cursor.Starts, prefix_kinds_iff] at h
  obtain ⟨_, _, here, _, _, rfl, _⟩ := h
  simp only [readUnsigned, here, known]

theorem readUnsigned_of_unknown {negated : Bool} {cursor : Cursor} {name : String}
    (unknown : Modifier.ofName? name = none)
    (h : cursor.Starts [.name name, .punct .openParen]) :
    readUnsigned negated cursor = .error ⟨.unknownModifier name, cursor.span⟩ cursor := by
  simp only [Cursor.Starts, prefix_kinds_iff] at h
  obtain ⟨_, _, here, _, _, rfl, _⟩ := h
  simp only [readUnsigned, here, unknown, Cursor.span, Cursor.peek?, List.head?_cons]

theorem readUnsigned_of_plain {negated : Bool} {cursor : Cursor}
    (less : ¬cursor.Starts [.punct .less]) (greater : ¬cursor.Starts [.punct .greater])
    (named : ∀ name, ¬cursor.Starts [.name name, .punct .openParen]) :
    readUnsigned negated cursor = readUnsigned.plainExpr cursor := by
  unfold readUnsigned
  split
  · next here => exact absurd (by simp [Cursor.Starts, here]) less
  · next here => exact absurd (by simp [Cursor.Starts, here]) greater
  · next _ name _ _ _ here => exact absurd (by simp [Cursor.Starts, here]) (named name)
  · rfl

theorem respects_half (negated : Bool) (kind : Modifier) :
    a.Respects Eq (readUnsigned.half negated kind) (readUnsigned.half negated kind) :=
  Expr.respects_read.bind fun same => Alignment.respects_pure (by rw [same])

theorem respects_plainExpr : a.Respects Eq readUnsigned.plainExpr readUnsigned.plainExpr :=
  Expr.respects_read.bind fun same => Alignment.respects_pure (by rw [same])

theorem respects_readUnsigned (negated : Bool) :
    a.Respects Eq (readUnsigned negated) (readUnsigned negated) := by
  intro cursor cursor' aligned
  have alike (p : Punct) := aligned.starts_iff [.punct p] (by simp)
  have alike' (name : String) :=
    aligned.starts_iff [.name name, .punct .openParen] (by simp)
  by_cases less : cursor.Starts [.punct .less]
  · rw [readUnsigned_of_less less, readUnsigned_of_less ((alike _).1 less)]
    exact respects_half _ _ (aligned.advance_of_starts less nofun)
  by_cases greater : cursor.Starts [.punct .greater]
  · rw [readUnsigned_of_greater greater, readUnsigned_of_greater ((alike _).1 greater)]
    exact respects_half _ _ (aligned.advance_of_starts greater nofun)
  by_cases named : ∃ name, cursor.Starts [.name name, .punct .openParen]
  · obtain ⟨name, here⟩ := named
    have there := (alike' name).1 here
    cases known : Modifier.ofName? name with
    | some kind =>
      rw [readUnsigned_of_name known here, readUnsigned_of_name known there]
      exact respects_readArgument _ _ _ (aligned.advance_two here nofun nofun)
    | none =>
      rw [readUnsigned_of_unknown known here, readUnsigned_of_unknown known there]
      exact .error ⟨rfl, aligned.span⟩ aligned
  · rw [not_exists] at named
    rw [readUnsigned_of_plain less greater named,
      readUnsigned_of_plain (mt (alike _).2 less) (mt (alike _).2 greater)
        (by simpa only [alike'] using named)]
    exact respects_plainExpr aligned

theorem respects_read : a.Respects Eq read read :=
  respects_readSign.bind fun same => same ▸ respects_readUnsigned _

end OperandExpr

end Asm65
