import Asm65.Proofs.Features.Reading
import Asm65.Proofs.Instruction

/-!
# Matching with other features

With more features more templates are enabled, and one of them may stand before
the one that was chosen. Where no template shadows a later one (`Unshadowed`),
the choice stays the same (`ofOperands_of_subset`). A missing feature is one of
the first template that fits, so that template is chosen once its features are
enabled (`ofOperands_union_missing`).

## Implementation notes

Two shapes overlap when they are alike apart from the classes of values, since
an expression without a value may fit every class.
-/

namespace Asm65

namespace Shape

variable {shape shape' : Shape} {operand : Operand}

/-- Whether an operand may have both shapes. The classes of values are not told apart. -/
def Overlaps : Shape → Shape → Prop
  | literal text, literal text' => Text.SameIgnoringCase text text'
  | register wanted, register wanted' => wanted = wanted'
  | value _, value _ => True
  | literal _, register _ | literal _, value _ | register _, literal _ | register _, value _
  | value _, literal _ | value _, register _ => False

instance Overlaps.decidable : (shape shape' : Shape) → Decidable (shape.Overlaps shape')
  | literal text, literal text' => inferInstanceAs (Decidable (Text.SameIgnoringCase text text'))
  | register wanted, register wanted' => inferInstanceAs (Decidable (wanted = wanted'))
  | value _, value _ => .isTrue trivial
  | literal _, register _ | literal _, value _ | register _, literal _ | register _, value _
  | value _, literal _ | value _, register _ => .isFalse id

theorem eq_literal_of_admits {spelling : String} {span : Span}
    (h : shape.admits (.token spelling span)) :
    ∃ text, shape = .literal text ∧ Text.SameIgnoringCase spelling text := by
  cases shape with
  | literal text => exact ⟨text, rfl, of_decide_eq_true h⟩
  | register => cases h
  | value operandClass => cases operandClass <;> cases h

theorem eq_register_of_admits {found : Register} {span : Span}
    (h : shape.admits (.register found span)) : shape = .register found := by
  cases shape with
  | literal => cases h
  | register => rw [of_decide_eq_true h]
  | value operandClass => cases operandClass <;> cases h

theorem eq_value_of_admits {expr : OperandExpr} {span : Span}
    (h : shape.admits (.immediate expr span)) : ∃ operandClass, shape = .value operandClass := by
  cases shape with
  | literal | register => cases h
  | value operandClass => exact ⟨operandClass, rfl⟩

theorem overlaps_of_admits (h : shape.admits operand) (h' : shape'.admits operand) :
    shape.Overlaps shape' := by
  cases operand with
  | token =>
    obtain ⟨text, rfl, same⟩ := eq_literal_of_admits h
    obtain ⟨text', rfl, same'⟩ := eq_literal_of_admits h'
    exact same.symm.trans same'
  | register =>
    cases eq_register_of_admits h
    cases eq_register_of_admits h'
    rfl
  | immediate =>
    obtain ⟨_, rfl⟩ := eq_value_of_admits h
    obtain ⟨_, rfl⟩ := eq_value_of_admits h'
    trivial

/-- Whether a shape is one of values. -/
def isValue : Shape → Bool
  | value _ => true
  | literal _ | register _ => false

theorem isImmediate_of_admits (h : shape.admits operand) (valued : shape.isValue) :
    operand.isImmediate := by
  cases operand with
  | token =>
    obtain ⟨_, rfl, -⟩ := eq_literal_of_admits h
    cases valued
  | register =>
    cases eq_register_of_admits h
    cases valued
  | immediate => rfl

/-- Whether every opening bracket among some shapes has a value behind it. -/
def BracketsOpenValues : List Shape → Prop
  | [] => True
  | shape :: rest =>
    (shape.Overlaps (.literal "[") → rest.head?.any isValue) ∧ BracketsOpenValues rest

instance BracketsOpenValues.decidable :
    (shapes : List Shape) → Decidable (BracketsOpenValues shapes)
  | [] => .isTrue trivial
  | _ :: rest =>
    have := decidable rest
    inferInstanceAs (Decidable (_ ∧ _))

/-- Where no expression stands behind a bracket, no bracket fits shapes that want one there. -/
theorem not_bracket_of_admits {shapes : List Shape} {operands : List Operand}
    (fits : List.Forall₂ (fun shape operand => shape.admits operand) shapes operands)
    (opens : BracketsOpenValues shapes) (plain : Operand.Unbracketed operands) :
    ∀ operand ∈ operands, ¬operand.isToken "[" := by
  induction fits with
  | nil => simp
  | @cons shape operand shapes operands head tail ih =>
    obtain ⟨opens, behind⟩ := opens
    obtain ⟨apart, plain⟩ := List.isChain_cons.1 plain
    refine List.forall_mem_cons.2 ⟨fun bracket => ?_, ih behind plain⟩
    have literal : (Shape.literal "[").admits operand := bracket
    have next := opens (overlaps_of_admits head literal)
    cases tail with
    | nil => cases next
    | cons second _ =>
      exact apart _ rfl bracket (isImmediate_of_admits second next)

end Shape

theorem mismatchesFrom_eq_nil_iff {start : Nat} {shapes : List Shape} {operands : List Operand} :
    mismatchesFrom start shapes operands = [] ↔
      List.Forall₂ (fun shape operand => shape.admits operand) shapes operands := by
  fun_induction mismatchesFrom start shapes operands with
  | case1 => simp
  | case2 | case3 => simp
  | case4 start shape shapes operand operands admitted ih => simp [ih, admitted]
  | case5 start shape shapes operand operands refused => simp [refused]

namespace Template

variable {template template' : Template} {operands : List Operand}

theorem fits_iff : template.Fits operands ↔
    List.Forall₂ (fun shape operand => shape.admits operand) template.shapes operands.tail :=
  mismatchesFrom_eq_nil_iff

/-- Whether an operand list may fit both templates. -/
def Overlaps (template template' : Template) : Prop :=
  List.Forall₂ Shape.Overlaps template.shapes template'.shapes

instance (template template' : Template) : Decidable (template.Overlaps template') :=
  inferInstanceAs (Decidable (List.Forall₂ _ _ _))

theorem overlaps_of_fits (h : template.Fits operands) (h' : template'.Fits operands) :
    template.Overlaps template' := by
  rw [fits_iff] at h h'
  unfold Overlaps
  generalize template.shapes = shapes, template'.shapes = shapes', operands.tail = values at h h' ⊢
  induction h generalizing shapes' with
  | nil =>
    cases h'
    exact .nil
  | cons head _ ih =>
    cases h' with
    | cons head' tail' => exact .cons (Shape.overlaps_of_admits head head') (ih _ tail')

end Template

/-- Whether no template that needs features stands before an overlapping one of its mnemonic
that needs others. -/
def Unshadowed : List Template → Prop
  | [] => True
  | template :: rest =>
    (template.requires = ∅ ∨ ∀ later ∈ rest, later.requires ≠ template.requires →
      template.Overlaps later → template.mnemonic ≠ later.mnemonic) ∧ Unshadowed rest

namespace Unshadowed

variable {features features' : FeatureSet} {operands : List Operand} {templates : List Template}
  {chosen : Template}

instance decidable : (templates : List Template) → Decidable (Unshadowed templates)
  | [] => .isTrue trivial
  | _ :: rest =>
    have := decidable rest
    inferInstanceAs (Decidable (_ ∧ _))

theorem filter (h : Unshadowed templates) (p : Template → Bool) :
    Unshadowed (templates.filter p) := by
  induction templates with
  | nil => trivial
  | cons template rest ih =>
    obtain ⟨first, later⟩ := h
    rw [List.filter_cons]
    split
    · exact ⟨first.imp id fun apart later among => apart later (List.mem_of_mem_filter among),
        ih later⟩
    · exact ih later

/-- Among the templates of one mnemonic, more features do not change the first that fits. -/
theorem find?_of_subset (h : Unshadowed templates) {mnemonic : String}
    (same : ∀ template ∈ templates, template.mnemonic = mnemonic)
    (enabled : features ⊆ features')
    (found : templates.find? (fun template =>
      template.Fits operands ∧ template.IsEnabled features) = some chosen) :
    templates.find? (fun template => template.Fits operands ∧ template.IsEnabled features') =
      some chosen := by
  induction templates with
  | nil => cases found
  | cons template rest ih =>
    obtain ⟨first, later⟩ := h
    obtain ⟨named, others⟩ := List.forall_mem_cons.1 same
    rw [List.find?_cons] at found ⊢
    split at found
    · next accepted =>
      obtain ⟨fits, needs⟩ := of_decide_eq_true accepted
      have accepted' : template.Fits operands ∧ template.IsEnabled features' :=
        ⟨fits, FeatureSet.subset_trans needs enabled⟩
      rw [decide_eq_true accepted']
      exact found
    · next refused =>
      have refused : ¬(template.Fits operands ∧ template.IsEnabled features) :=
        of_decide_eq_false refused
      have behind := List.mem_of_find?_eq_some found
      have accepted' := List.find?_some found
      simp only [decide_eq_true_eq] at accepted'
      obtain ⟨fits', needs'⟩ := accepted'
      have refused' : ¬(template.Fits operands ∧ template.IsEnabled features') := by
        rintro ⟨fits, -⟩
        apply refused
        refine ⟨fits, ?_⟩
        rcases first with free | apart
        · rw [Template.IsEnabled, free]
          exact FeatureSet.empty_subset features
        · by_contra missing
          have differ : chosen.requires ≠ template.requires := by
            intro equal
            rw [Template.IsEnabled, equal] at needs'
            exact missing needs'
          exact apart chosen behind differ (Template.overlaps_of_fits fits fits')
            (named.trans (others chosen behind).symm)
      rw [decide_eq_false refused']
      exact ih later others found

end Unshadowed

namespace Outcome

variable {features features' missing : FeatureSet} {operands : List Operand}
  {templates : List Template} {found : Instruction} {table : Table} {index : Nat}

/-- A feature is missing when templates fit, but none that is enabled. -/
theorem among_eq_missingFeature
    (h : among features operands templates = .missingFeature index missing) :
    index = 0 ∧ ∃ template ∈ templates, template.Fits operands ∧
      templates.find? (·.Fits operands) = some template ∧
      ¬template.IsEnabled features ∧ missing = template.requires \ features := by
  unfold among at h
  split at h
  · cases h
  · next disabled =>
    split at h
    · next template first =>
      cases h
      have among := List.mem_of_find?_eq_some first
      have fits := List.find?_some first
      simp only [decide_eq_true_eq] at fits
      refine ⟨rfl, template, among, fits, first, fun enabled => ?_, rfl⟩
      exact List.find?_eq_none.1 disabled template among (decide_eq_true ⟨fits, enabled⟩)
    · have misfit := isMisfit_getD (templates.filterMap (·.nearMiss? features operands)) operands
        templates
      rw [h] at misfit
      cases misfit

/-- The first template that fits is chosen when it is enabled. -/
theorem among_of_first {template : Template}
    (first : templates.find? (·.Fits operands) = some template)
    (enabled : template.IsEnabled features) :
    among features operands templates = .matched ⟨template, operands⟩ := by
  apply among_eq_matched_iff.2
  refine ⟨?_, rfl⟩
  obtain ⟨fits, before, after, whole, refused⟩ := List.find?_eq_some_iff_append.1 first
  apply List.find?_eq_some_iff_append.2
  refine ⟨decide_eq_true ⟨of_decide_eq_true fits, enabled⟩, before, after, whole, ?_⟩
  intro other among
  have refused := refused other among
  simp only [Bool.not_eq_true', decide_eq_false_iff_not] at refused ⊢
  exact fun accepted => refused accepted.1

/-- More features do not change a match. -/
theorem ofOperands_of_subset (h : Unshadowed table.templates.toList)
    (enabled : features ⊆ features')
    (matched : ofOperands table features operands = .matched found) :
    ofOperands table features' operands = .matched found := by
  unfold ofOperands at matched ⊢
  split at matched
  · next mnemonic _ _ =>
    split at matched
    · next known =>
      obtain ⟨chosen, same⟩ := among_eq_matched_iff.1 matched
      rw [Table.lookup_eq_filter] at chosen
      have alike : ∀ template ∈ table.templates.toList.filter (·.mnemonic = mnemonic.toLower),
          template.mnemonic = mnemonic.toLower :=
        fun template among => of_decide_eq_true (List.mem_filter.1 among).2
      simp only [known, if_true]
      rw [Table.lookup_eq_filter]
      exact among_eq_matched_iff.2 ⟨(h.filter _).find?_of_subset alike enabled chosen, same⟩
    · cases matched
  · cases matched

/-- A missing feature is not enabled yet, and with it the operands match. -/
theorem ofOperands_union_missing
    (h : ofOperands table features operands = .missingFeature index missing) :
    index = 0 ∧ missing ≠ ∅ ∧ missing ∩ features = ∅ ∧
      ∃ template ∈ table.templates.toList, template.Fits operands ∧
        ofOperands table (features ∪ missing) operands = .matched ⟨template, operands⟩ := by
  unfold ofOperands at h ⊢
  split at h
  · split at h
    · next known =>
      obtain ⟨rfl, template, among, fits, first, disabled, rfl⟩ := among_eq_missingFeature h
      rw [Table.lookup_eq_filter] at among
      refine ⟨rfl, FeatureSet.sdiff_ne_empty disabled, FeatureSet.sdiff_inter _ _, template,
        List.mem_of_mem_filter among, fits, ?_⟩
      simp only [known, if_true]
      exact among_of_first first (FeatureSet.subset_union_sdiff template.requires features)
    · cases h
  · cases h

end Outcome

end Asm65
