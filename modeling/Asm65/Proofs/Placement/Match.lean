import Asm65.Proofs.Placement

/-!
# Matching and places

Matching looks at no span and at no letter case of the mnemonic: operand lists
that no shape tells apart behind their mnemonics compare alike with every
template (`ofOperands_sameShapes`). Spans come back in the diagnostic of a
failed match only.
-/

namespace Asm65

variable {place : Placement} {operands operands' : List Operand}

/-- Whether no shape tells two operands apart. -/
def Operand.SameShapes (operand operand' : Operand) : Prop :=
  ∀ shape : Shape, shape.admits operand = shape.admits operand'

theorem mismatchesFrom_sameShapes (h : List.Forall₂ Operand.SameShapes operands operands')
    (start : Nat) (shapes : List Shape) :
    mismatchesFrom start shapes operands = mismatchesFrom start shapes operands' := by
  induction h generalizing start shapes with
  | nil => rfl
  | cons head _ ih =>
    cases shapes with
    | nil => simp only [mismatchesFrom, ih]
    | cons shape shapes => simp only [mismatchesFrom, head shape, ih]

namespace Outcome

/-- Two outcomes that differ in the operands of a match only. -/
inductive Agree (operands operands' : List Operand) : Outcome → Outcome → Prop
  | matched (template : Template) :
      Agree operands operands' (.matched ⟨template, operands⟩) (.matched ⟨template, operands'⟩)
  | failed (outcome : Outcome) (h : ∀ found, outcome ≠ .matched found) :
      Agree operands operands' outcome outcome

theorem Agree.eq_matched {found : Instruction} {outcome : Outcome}
    (h : Agree operands operands' (.matched found) outcome) :
    outcome = .matched ⟨found.template, operands'⟩ := by
  cases h with
  | matched template => rfl
  | failed _ failed => exact absurd rfl (failed found)

/-- Outcomes where no template fits, and an operand is to blame or nothing is. -/
inductive IsMisfit : Outcome → Prop
  | invalidOperand (index : Nat) (expected : Option Shape) :
      IsMisfit (.invalidOperand index expected)
  | ambiguousNearMiss : IsMisfit .ambiguousNearMiss

/-- Without a template that fits, nothing but a misfit comes out. -/
theorem isMisfit_getD (misses : List (Template × Nat)) (operands : List Operand)
    (templates : List Template) :
    IsMisfit ((ofNearMisses? misses).getD (ofFurthest operands templates)) := by
  cases near : ofNearMisses? misses with
  | none =>
    rw [Option.getD_none, ofFurthest]
    split <;> exact .invalidOperand _ _
  | some outcome =>
    unfold ofNearMisses? at near
    split at near
    · cases near
    · split at near
      · cases near
        exact .invalidOperand _ _
      · cases near
        exact .ambiguousNearMiss

theorem among_agree (h : ∀ template : Template,
      template.mismatches operands = template.mismatches operands')
    (features : FeatureSet) (templates : List Template) :
    Agree operands operands' (among features operands templates)
      (among features operands' templates) := by
  have fits (template : Template) : template.Fits operands' ↔ template.Fits operands := by
    simp only [Template.Fits, h]
  have near (template : Template) :
      template.nearMiss? features operands' = template.nearMiss? features operands := by
    simp only [Template.nearMiss?, h]
  have furthest : ofFurthest operands' templates = ofFurthest operands templates := by
    simp only [ofFurthest, furthest?, h]
  simp only [among, fits, near, furthest]
  split
  · exact .matched _
  · split
    · exact .failed _ (by rintro _ ⟨⟩)
    · refine .failed _ fun found same => ?_
      have misfit := isMisfit_getD (templates.filterMap (·.nearMiss? features operands)) operands
        templates
      rw [same] at misfit
      cases misfit

/-- Matching looks at the shapes of the operands and at the mnemonic in lower case. -/
theorem ofOperands_sameShapes (table : Table) (features : FeatureSet)
    {mnemonic mnemonic' : String} (same : Text.SameIgnoringCase mnemonic mnemonic')
    (span span' : Span) (h : List.Forall₂ Operand.SameShapes operands operands') :
    Agree (.token mnemonic span :: operands) (.token mnemonic' span' :: operands')
      (ofOperands table features (.token mnemonic span :: operands))
      (ofOperands table features (.token mnemonic' span' :: operands')) := by
  have contains : table.contains mnemonic' = table.contains mnemonic := by
    rw [Table.contains, Table.contains, same]
  have lookup : table.lookup mnemonic' = table.lookup mnemonic := by
    rw [Table.lookup, Table.lookup, same]
  have compared (template : Template) :
      template.mismatches (.token mnemonic span :: operands) =
        template.mismatches (.token mnemonic' span' :: operands') :=
    mismatchesFrom_sameShapes h 1 template.shapes
  simp only [ofOperands, contains, lookup]
  split
  · exact among_agree compared features _
  · exact .failed _ (by rintro _ ⟨⟩)

theorem ofOperands_agree (table : Table) (features : FeatureSet) {mnemonic mnemonic' : String}
    (same : Text.SameIgnoringCase mnemonic mnemonic') (span span' : Span)
    (h : List.Forall₂ (Operand.Agree place) operands operands') :
    Agree (.token mnemonic span :: operands) (.token mnemonic' span' :: operands')
      (ofOperands table features (.token mnemonic span :: operands))
      (ofOperands table features (.token mnemonic' span' :: operands')) :=
  ofOperands_sameShapes table features same span span' (h.imp fun _ _ agree => agree.admits_eq)

theorem endOf_agree (h : List.Forall₂ (Operand.Agree place) operands operands')
    (nonempty : operands ≠ []) :
    place.Rel (.empty (endOf operands)) (.empty (endOf operands')) := by
  have last := rel_getLast? h
  have found : operands.getLast? ≠ none := mt List.getLast?_eq_none_iff.1 nonempty
  unfold endOf
  revert last found
  generalize operands.getLast? = here, operands'.getLast? = there
  rintro (agree | _) found
  · exact place.stop agree.span
  · exact absurd rfl found

/-- The results of one outcome for two operand lists: one instruction each, or two diagnostics
that agree. -/
inductive ResultsAgree (place : Placement) :
    Except Diagnostic Instruction → Except Diagnostic Instruction → Prop
  | ok (template : Template) {operands operands' : List Operand}
      (h : List.Forall₂ (Operand.Agree place) operands operands') :
      ResultsAgree place (.ok ⟨template, operands⟩) (.ok ⟨template, operands'⟩)
  | error {diagnostic diagnostic' : Diagnostic} (h : diagnostic.Agree place diagnostic') :
      ResultsAgree place (.error diagnostic) (.error diagnostic')

theorem result_agree (h : List.Forall₂ (Operand.Agree place) operands operands')
    (nonempty : operands ≠ []) {outcome outcome' : Outcome}
    (same : Agree operands operands' outcome outcome') :
    ResultsAgree place (outcome.result operands) (outcome'.result operands') := by
  have mnemonic : place.Rel (mnemonicSpan operands) (mnemonicSpan operands') := by
    cases h with
    | nil => exact absurd rfl nonempty
    | cons head _ => exact head.span
  have stop := endOf_agree h nonempty
  cases same with
  | matched template => exact .ok template h
  | failed outcome failed =>
    cases outcome with
    | matched found => exact absurd rfl (failed found)
    | unknownMnemonic | ambiguousNearMiss => exact .error ⟨rfl, mnemonic⟩
    | missingFeature index missing =>
      have blamed := rel_getElem? h index
      simp only [result]
      revert blamed
      generalize operands[index]? = here, operands'[index]? = there
      rintro (agree | _)
      · exact .error ⟨rfl, agree.span⟩
      · exact .error ⟨rfl, mnemonic⟩
    | invalidOperand index expected =>
      have blamed := rel_getElem? h index
      simp only [result]
      revert blamed
      generalize operands[index]? = here, operands'[index]? = there
      rintro (agree | _)
      · exact .error ⟨rfl, agree.span⟩
      · exact .error ⟨rfl, stop⟩

end Outcome

end Asm65
