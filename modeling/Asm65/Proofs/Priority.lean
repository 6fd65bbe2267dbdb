import Asm65.Proofs.Features.Matching

/-!
# The priority of outcomes

An operand list differs from a template at a position where it has no operand
of the shape there (`DiffersAt`). By these positions alone the templates of a
mnemonic justify one outcome: each reason counts only where no stronger one
applies, and among templates of equal standing the first of the table decides
(`Justified`). Matching gives exactly the justified outcome
(`ofOperands_eq_iff_justified`).

## Implementation notes

The mnemonic is the operand at position 0, so the shape at a position is the
one before it in the list. A missing operand and a surplus one are differences
like any other.
-/

namespace Asm65

/-- Whether a place behind the mnemonic has a shape or an operand, but no operand of the shape. -/
def UnlikeAt (shapes : List Shape) (operands : List Operand) (offset : Nat) : Prop :=
  (offset < shapes.length ∨ offset < operands.length) ∧
    ∀ shape ∈ shapes[offset]?, ∀ operand ∈ operands[offset]?, ¬shape.admits operand

theorem exists_offset_iff {p : Nat → Prop} {index : Nat} (start : Nat) :
    (∃ offset, index = start + offset ∧ p offset) ↔
      index = start ∧ p 0 ∨ ∃ offset, index = start + 1 + offset ∧ p (offset + 1) := by
  constructor
  · rintro ⟨_ | offset, rfl, here⟩
    · exact .inl ⟨rfl, here⟩
    · exact .inr ⟨offset, by omega, here⟩
  · rintro (⟨rfl, here⟩ | ⟨offset, rfl, here⟩)
    · exact ⟨0, rfl, here⟩
    · exact ⟨offset + 1, by omega, here⟩

theorem mem_mismatchesFrom_iff {start index : Nat} {shapes : List Shape}
    {operands : List Operand} : index ∈ mismatchesFrom start shapes operands ↔
      ∃ offset, index = start + offset ∧ UnlikeAt shapes operands offset := by
  fun_induction mismatchesFrom start shapes operands with
  | case1 => simp [UnlikeAt]
  | case2 start _ operands ih | case3 start _ shapes ih =>
    rw [List.mem_cons, ih, exists_offset_iff start]
    simp [UnlikeAt]
  | case4 start shape shapes operand operands admitted ih =>
    rw [ih, exists_offset_iff start]
    simp [UnlikeAt, admitted]
  | case5 start shape shapes operand operands refused ih =>
    rw [List.mem_cons, ih, exists_offset_iff start]
    simp [UnlikeAt, refused]

/-- The mismatches are found from left to right. -/
theorem mismatchesFrom_ordered (start : Nat) (shapes : List Shape) (operands : List Operand) :
    (mismatchesFrom start shapes operands).Pairwise (· < ·) := by
  fun_induction mismatchesFrom start shapes operands with
  | case1 => exact .nil
  | case2 start _ operands ih | case3 start _ shapes ih | case5 start _ _ _ _ _ ih =>
    exact .cons (fun _ later => le_of_mem_mismatchesFrom later) ih
  | case4 start _ _ _ _ _ ih => exact ih

namespace Template

variable {template : Template} {features : FeatureSet} {operands : List Operand} {index : Nat}

/-- Whether an operand list, mnemonic included, differs from a template at a position: it has a
shape or an operand there, but no operand of the shape. -/
structure DiffersAt (template : Template) (operands : List Operand) (index : Nat) : Prop where
  behind : 1 ≤ index
  inside : index ≤ template.shapes.length ∨ index < operands.length
  unlike : ∀ shape ∈ template.shapeAt? index, ∀ operand ∈ operands[index]?, ¬shape.admits operand

/-- Whether a position is the first one where an operand list differs from a template. -/
structure DiffersFirstAt (template : Template) (operands : List Operand) (index : Nat) : Prop where
  here : template.DiffersAt operands index
  least : ∀ other, template.DiffersAt operands other → index ≤ other

/-- Whether a position is the only one where an operand list differs from a template. -/
structure DiffersOnlyAt (template : Template) (operands : List Operand) (index : Nat) : Prop where
  here : template.DiffersAt operands index
  only : ∀ other, template.DiffersAt operands other → other = index

/-- Whether a template is enabled, and an operand list differs from it at one position only. -/
def IsNearMiss (template : Template) (features : FeatureSet) (operands : List Operand)
    (index : Nat) : Prop :=
  template.IsEnabled features ∧ template.DiffersOnlyAt operands index

/-- Whether a template has as many shapes as there are operands behind the mnemonic, and each
operand has its shape. -/
def Accepts (template : Template) (operands : List Operand) : Prop :=
  List.Forall₂ (fun shape operand => shape.admits operand) template.shapes operands.tail

theorem mem_mismatches_iff (nonempty : operands ≠ []) :
    index ∈ template.mismatches operands ↔ template.DiffersAt operands index := by
  obtain ⟨mnemonic, rest, rfl⟩ := List.exists_cons_of_ne_nil nonempty
  rw [mismatches, List.tail_cons, mem_mismatchesFrom_iff]
  constructor
  · rintro ⟨offset, rfl, inside, unlike⟩
    refine ⟨Nat.le_add_right 1 offset, ?_, ?_⟩
    · rw [List.length_cons]
      omega
    · rw [shapeAt?, Nat.add_sub_cancel_left, Nat.add_comm, List.getElem?_cons_succ]
      exact unlike
  · rintro ⟨behind, inside, unlike⟩
    obtain ⟨offset, rfl⟩ := Nat.exists_eq_add_of_le behind
    refine ⟨offset, rfl, ?_, ?_⟩
    · rw [List.length_cons] at inside
      omega
    · rw [shapeAt?, Nat.add_sub_cancel_left, Nat.add_comm, List.getElem?_cons_succ] at unlike
      exact unlike

theorem mismatches_ordered (template : Template) (operands : List Operand) :
    (template.mismatches operands).Pairwise (· < ·) :=
  mismatchesFrom_ordered 1 template.shapes operands.tail

theorem head?_mismatches_eq_some_iff (nonempty : operands ≠ []) :
    (template.mismatches operands).head? = some index ↔
      template.DiffersFirstAt operands index := by
  have ordered := template.mismatches_ordered operands
  have mem (other : Nat) : other ∈ template.mismatches operands ↔
      template.DiffersAt operands other := mem_mismatches_iff nonempty
  cases found : template.mismatches operands with
  | nil =>
    rw [found] at mem
    refine iff_of_false nofun fun first => ?_
    cases (mem index).2 first.here
  | cons first later =>
    rw [found] at mem ordered
    have first_lt := (List.pairwise_cons.1 ordered).1
    rw [List.head?_cons, Option.some.injEq]
    constructor
    · rintro rfl
      refine ⟨(mem first).1 List.mem_cons_self, fun other differs => ?_⟩
      rcases List.mem_cons.1 ((mem other).2 differs) with rfl | among
      · exact Nat.le_refl other
      · exact Nat.le_of_lt (first_lt other among)
    · rintro ⟨here, least⟩
      rcases List.mem_cons.1 ((mem index).2 here) with rfl | among
      · rfl
      · have before := least first ((mem first).1 List.mem_cons_self)
        exact absurd (first_lt index among) (Nat.not_lt.2 before)

theorem mismatches_eq_singleton_iff (nonempty : operands ≠ []) :
    template.mismatches operands = [index] ↔ template.DiffersOnlyAt operands index := by
  have ordered := template.mismatches_ordered operands
  have mem (other : Nat) : other ∈ template.mismatches operands ↔
      template.DiffersAt operands other := mem_mismatches_iff nonempty
  constructor
  · intro single
    rw [single] at mem
    simp only [List.mem_singleton] at mem
    exact ⟨(mem index).1 rfl, fun other => (mem other).2⟩
  · rintro ⟨here, only⟩
    cases found : template.mismatches operands with
    | nil =>
      rw [found] at mem
      cases (mem index).2 here
    | cons first later =>
      rw [found] at mem ordered
      have all_eq (other : Nat) (among : other ∈ first :: later) : other = index :=
        only other ((mem other).1 among)
      cases all_eq first List.mem_cons_self
      cases later with
      | nil => rfl
      | cons second later =>
        have apart := (List.pairwise_cons.1 ordered).1 second List.mem_cons_self
        have same := all_eq second (.tail _ List.mem_cons_self)
        omega

theorem nearMiss?_eq_some_iff (nonempty : operands ≠ []) {found : Template × Nat} :
    template.nearMiss? features operands = some found ↔
      found.1 = template ∧ template.IsNearMiss features operands found.2 := by
  obtain ⟨chosen, index⟩ := found
  rw [IsNearMiss, ← mismatches_eq_singleton_iff nonempty]
  unfold nearMiss?
  split
  · next only found =>
    simp only [found, Option.ite_none_right_eq_some, Option.some.injEq, Prod.mk.injEq,
      List.cons.injEq, and_true]
    tauto
  · next several =>
    exact iff_of_false nofun fun near => several index near.2.2

end Template

/-- Whether a template is the first of some with a property. -/
def IsFirst (p : Template → Prop) (templates : List Template) (template : Template) : Prop :=
  ∃ before after, templates = before ++ template :: after ∧ p template ∧ ∀ other ∈ before, ¬p other

section First

variable {p : Template → Prop} {templates : List Template} {template template' : Template}

theorem find?_eq_some_iff_isFirst [DecidablePred p] :
    templates.find? (fun template => p template) = some template ↔
      IsFirst p templates template := by
  rw [List.find?_eq_some_iff_append]
  simp only [decide_eq_true_eq, Bool.not_eq_true', decide_eq_false_iff_not]
  constructor
  · rintro ⟨here, before, after, whole, others⟩
    exact ⟨before, after, whole, here, others⟩
  · rintro ⟨before, after, whole, here, others⟩
    exact ⟨here, before, after, whole, others⟩

theorem IsFirst.mem (h : IsFirst p templates template) : template ∈ templates := by
  obtain ⟨before, after, rfl, -⟩ := h
  exact List.mem_append_right before List.mem_cons_self

theorem IsFirst.holds (h : IsFirst p templates template) : p template := by
  obtain ⟨before, after, -, here, -⟩ := h
  exact here

theorem IsFirst.append (h : IsFirst p templates template) (more : List Template) :
    IsFirst p (templates ++ more) template := by
  obtain ⟨before, after, rfl, here, others⟩ := h
  exact ⟨before, after ++ more, by simp, here, others⟩

theorem IsFirst.unique (h : IsFirst p templates template) (h' : IsFirst p templates template') :
    template = template' := by
  classical
  rw [← find?_eq_some_iff_isFirst] at h h'
  exact Option.some.inj (h.symm.trans h')

end First

/-- The templates of the mnemonic that an operand list starts with, in table order. -/
def Table.candidates (table : Table) : List Operand → List Template
  | .token mnemonic _ :: _ =>
    table.templates.toList.filter fun template =>
      Text.SameIgnoringCase template.mnemonic mnemonic
  | _ => []

theorem Table.lookup_eq_candidates (table : Table) (mnemonic : String) (span : Span)
    (rest : List Operand) :
    table.lookup mnemonic = table.candidates (.token mnemonic span :: rest) :=
  table.lookup_eq_filter_sameIgnoringCase mnemonic

theorem Table.mem_candidates_iff {table : Table} {operands : List Operand} {template : Template} :
    template ∈ table.candidates operands ↔
      ∃ mnemonic span rest, operands = .token mnemonic span :: rest ∧
        template ∈ table.templates ∧ Text.SameIgnoringCase template.mnemonic mnemonic := by
  unfold candidates
  split
  · simp
  · next other =>
    refine iff_of_false List.not_mem_nil ?_
    rintro ⟨mnemonic, span, rest, named, -⟩
    exact other mnemonic span rest named

namespace Outcome

variable {table : Table} {features : FeatureSet} {operands : List Operand}
  {templates : List Template} {template : Template} {index : Nat} {outcome outcome' : Outcome}

/-- The outcome that the templates of a mnemonic justify for an operand list. -/
inductive Justified (features : FeatureSet) (operands : List Operand)
    (templates : List Template) : Outcome → Prop
  | unknownMnemonic (unknown : templates = []) :
      Justified features operands templates .unknownMnemonic
  /-- The first enabled template that accepts the operands is matched. -/
  | matched {template : Template}
      (first : IsFirst (fun template => template.Accepts operands ∧ template.IsEnabled features)
        templates template) :
      Justified features operands templates (.matched ⟨template, operands⟩)
  /-- If none is enabled, the first that accepts them says what is missing. -/
  | missingFeature {template : Template}
      (disabled : ∀ other ∈ templates, other.Accepts operands → ¬other.IsEnabled features)
      (first : IsFirst (fun template => template.Accepts operands) templates template) :
      Justified features operands templates (.missingFeature 0 (template.requires \ features))
  /-- If none accepts them, near misses may disagree about the position. -/
  | ambiguousNearMiss {template template' : Template} {index index' : Nat}
      (refused : ∀ other ∈ templates, ¬other.Accepts operands)
      (among : template ∈ templates) (among' : template' ∈ templates)
      (near : template.IsNearMiss features operands index)
      (near' : template'.IsNearMiss features operands index') (apart : index ≠ index') :
      Justified features operands templates .ambiguousNearMiss
  /-- Near misses that agree blame their position, and the first of them has the shape. -/
  | nearMiss {template : Template} {index : Nat}
      (refused : ∀ other ∈ templates, ¬other.Accepts operands)
      (first : IsFirst (fun template => ∃ position, template.IsNearMiss features operands position)
        templates template)
      (near : template.IsNearMiss features operands index)
      (agree : ∀ other ∈ templates, ∀ position, other.IsNearMiss features operands position →
        position = index) :
      Justified features operands templates (.invalidOperand index (template.shapeAt? index))
  /-- Without near misses the furthest first difference is blamed, of enabled templates or not,
  and the first template to get there has the shape. -/
  | furthest {template : Template} {index : Nat}
      (refused : ∀ other ∈ templates, ¬other.Accepts operands)
      (distant : ∀ other ∈ templates, ∀ position, ¬other.IsNearMiss features operands position)
      (first : IsFirst (fun template => template.DiffersFirstAt operands index)
        templates template)
      (furthest : ∀ other ∈ templates, ∀ position, other.DiffersFirstAt operands position →
        position ≤ index) :
      Justified features operands templates (.invalidOperand index (template.shapeAt? index))

/-- No two outcomes are justified. -/
theorem Justified.unique (h : Justified features operands templates outcome)
    (h' : Justified features operands templates outcome') : outcome = outcome' := by
  cases h with
  | unknownMnemonic unknown =>
    subst unknown
    cases h' with
    | unknownMnemonic => rfl
    | matched first | missingFeature _ first | nearMiss _ first | furthest _ _ first =>
      cases first.mem
    | ambiguousNearMiss _ among => cases among
  | matched first =>
    obtain ⟨accepts, enabled⟩ := first.holds
    cases h' with
    | unknownMnemonic unknown => cases unknown ▸ first.mem
    | matched first' => rw [first.unique first']
    | missingFeature disabled => exact absurd enabled (disabled _ first.mem accepts)
    | ambiguousNearMiss refused | nearMiss refused | furthest refused =>
      exact absurd accepts (refused _ first.mem)
  | missingFeature disabled first =>
    cases h' with
    | unknownMnemonic unknown => cases unknown ▸ first.mem
    | matched first' =>
      obtain ⟨accepts, enabled⟩ := first'.holds
      exact absurd enabled (disabled _ first'.mem accepts)
    | missingFeature _ first' => rw [first.unique first']
    | ambiguousNearMiss refused | nearMiss refused | furthest refused =>
      exact absurd first.holds (refused _ first.mem)
  | ambiguousNearMiss refused among among' near near' apart =>
    cases h' with
    | unknownMnemonic unknown => cases unknown ▸ among
    | matched first => exact absurd first.holds.1 (refused _ first.mem)
    | missingFeature _ first => exact absurd first.holds (refused _ first.mem)
    | ambiguousNearMiss => rfl
    | nearMiss _ _ _ agree =>
      exact absurd ((agree _ among _ near).trans (agree _ among' _ near').symm) apart
    | furthest _ distant => exact absurd near (distant _ among _)
  | nearMiss refused first near agree =>
    cases h' with
    | unknownMnemonic unknown => cases unknown ▸ first.mem
    | matched first' => exact absurd first'.holds.1 (refused _ first'.mem)
    | missingFeature _ first' => exact absurd first'.holds (refused _ first'.mem)
    | ambiguousNearMiss _ among among' near near' apart =>
      exact absurd ((agree _ among _ near).trans (agree _ among' _ near').symm) apart
    | nearMiss _ first' near' =>
      cases first.unique first'
      rw [agree _ first.mem _ near']
    | furthest _ distant => exact absurd near (distant _ first.mem _)
  | furthest refused distant first furthest =>
    cases h' with
    | unknownMnemonic unknown => cases unknown ▸ first.mem
    | matched first' => exact absurd first'.holds.1 (refused _ first'.mem)
    | missingFeature _ first' => exact absurd first'.holds (refused _ first'.mem)
    | ambiguousNearMiss _ among _ near => exact absurd near (distant _ among _)
    | nearMiss _ first' near => exact absurd near (distant _ first'.mem _)
    | furthest _ _ first' furthest' =>
      have below := furthest' _ first.mem _ first.holds
      have above := furthest _ first'.mem _ first'.holds
      cases Nat.le_antisymm below above
      rw [first.unique first']

/-- What is known of a search for the furthest first mismatch. -/
def IsFurthest (operands : List Operand) (templates : List Template) :
    Option (Template × Nat) → Prop
  | none => ∀ template ∈ templates, template.Fits operands
  | some (template, index) =>
    IsFirst (fun template => (template.mismatches operands).head? = some index)
        templates template ∧
      ∀ other ∈ templates, ∀ position ∈ (other.mismatches operands).head?, position ≤ index

theorem furthest?_append_singleton (operands : List Operand) (templates : List Template)
    (template : Template) : furthest? operands (templates ++ [template]) =
      match (template.mismatches operands).head? with
      | none => furthest? operands templates
      | some index =>
        if ∀ found ∈ furthest? operands templates, found.2 < index then some (template, index)
        else furthest? operands templates := by
  rw [furthest?, List.foldl_append]
  rfl

/-- A template that does not get further leaves what was found. -/
theorem IsFurthest.keep {best : Template × Nat}
    (h : IsFurthest operands templates (some best))
    (nearer : ∀ position ∈ (template.mismatches operands).head?, position ≤ best.2) :
    IsFurthest operands (templates ++ [template]) (some best) := by
  refine ⟨h.1.append [template], List.forall_mem_append.2 ⟨h.2, fun other among => ?_⟩⟩
  rw [List.mem_singleton] at among
  exact among ▸ nearer

/-- A template that gets further than all before it is found instead. -/
theorem IsFurthest.replace {found : Option (Template × Nat)}
    (h : IsFurthest operands templates found)
    (mismatch : (template.mismatches operands).head? = some index)
    (further : ∀ best ∈ found, best.2 < index) :
    IsFurthest operands (templates ++ [template]) (some (template, index)) := by
  have lower : ∀ other ∈ templates, ∀ position ∈ (other.mismatches operands).head?,
      position < index := by
    intro other among position differs
    cases found with
    | none =>
      rw [h other among] at differs
      cases differs
    | some best => exact Nat.lt_of_le_of_lt (h.2 other among position differs) (further best rfl)
  refine ⟨⟨templates, [], rfl, mismatch, fun other among same => ?_⟩,
    List.forall_mem_append.2 ⟨fun other among position differs => ?_, by simp [mismatch]⟩⟩
  · exact Nat.lt_irrefl index (lower other among index same)
  · exact Nat.le_of_lt (lower other among position differs)

/-- Only a mismatch that lies further on replaces the one found before. -/
theorem isFurthest_furthest? (operands : List Operand) (templates : List Template) :
    IsFurthest operands templates (furthest? operands templates) := by
  induction templates using List.reverseRecOn with
  | nil => exact nofun
  | append_singleton templates template ih =>
    rw [furthest?_append_singleton]
    cases mismatch : (template.mismatches operands).head? with
    | none =>
      have fits : template.Fits operands := List.head?_eq_none_iff.1 mismatch
      cases found : furthest? operands templates with
      | none =>
        rw [found] at ih
        exact List.forall_mem_append.2 ⟨ih, by simpa using fits⟩
      | some best =>
        rw [found] at ih
        exact ih.keep (by simp [mismatch])
    | some index =>
      dsimp only
      split
      · next further => exact ih.replace mismatch further
      · next nearer =>
        simp only [not_forall, Nat.not_lt] at nearer
        obtain ⟨best, found, nearer⟩ := nearer
        rw [Option.mem_def] at found
        rw [found] at ih ⊢
        exact ih.keep (by simpa [mismatch] using nearer)

/-- Without a template that accepts the operands, a difference is found. -/
theorem furthest?_ne_none (some_template : templates ≠ [])
    (refused : ∀ other ∈ templates, ¬other.Accepts operands) :
    furthest? operands templates ≠ none := by
  intro found
  have fits := isFurthest_furthest? operands templates
  rw [found] at fits
  obtain ⟨template, rest, rfl⟩ := List.exists_cons_of_ne_nil some_template
  exact refused template List.mem_cons_self
    (Template.fits_iff.1 (fits template List.mem_cons_self))

theorem justified_ofFurthest (nonempty : operands ≠ []) (some_template : templates ≠ [])
    (refused : ∀ other ∈ templates, ¬other.Accepts operands)
    (distant : ∀ other ∈ templates, ∀ position, ¬other.IsNearMiss features operands position) :
    Justified features operands templates (ofFurthest operands templates) := by
  have furthest := isFurthest_furthest? operands templates
  cases found : furthest? operands templates with
  | none => exact absurd found (furthest?_ne_none some_template refused)
  | some best =>
    rw [found] at furthest
    simp only [IsFurthest, Option.mem_def, Template.head?_mismatches_eq_some_iff nonempty]
      at furthest
    simp only [ofFurthest, found]
    exact .furthest refused distant furthest.1 furthest.2

theorem justified_getD (nonempty : operands ≠ []) (some_template : templates ≠ [])
    (refused : ∀ other ∈ templates, ¬other.Accepts operands) :
    Justified features operands templates
      ((ofNearMisses? (templates.filterMap (·.nearMiss? features operands))).getD
        (ofFurthest operands templates)) := by
  have mem (found : Template × Nat) :
      found ∈ templates.filterMap (·.nearMiss? features operands) ↔
        found.1 ∈ templates ∧ found.1.IsNearMiss features operands found.2 := by
    simp only [List.mem_filterMap, Template.nearMiss?_eq_some_iff nonempty]
    constructor
    · rintro ⟨template, among, rfl, near⟩
      exact ⟨among, near⟩
    · rintro ⟨among, near⟩
      exact ⟨found.1, among, rfl, near⟩
  cases misses : templates.filterMap (·.nearMiss? features operands) with
  | nil =>
    rw [misses] at mem
    refine justified_ofFurthest nonempty some_template refused fun other among position near => ?_
    cases (mem (other, position)).2 ⟨among, near⟩
  | cons miss others =>
    obtain ⟨before, template, after, whole, none, here, -⟩ :=
      List.filterMap_eq_cons_iff.1 misses
    obtain ⟨rfl, near⟩ := (Template.nearMiss?_eq_some_iff nonempty).1 here
    have among : miss.1 ∈ templates := by simp [whole]
    rw [misses] at mem
    rw [ofNearMisses?]
    split
    · next agree =>
      refine .nearMiss refused ⟨before, after, whole, ⟨miss.2, near⟩, ?_⟩ near ?_
      · rintro other among ⟨position, near'⟩
        have found : other.nearMiss? features operands = some (other, position) :=
          (Template.nearMiss?_eq_some_iff nonempty).2 ⟨rfl, near'⟩
        cases (none other among).symm.trans found
      · intro other among position near'
        rcases List.mem_cons.1 ((mem (other, position)).2 ⟨among, near'⟩) with rfl | behind
        · rfl
        · simpa using List.all_eq_true.1 agree (other, position) behind
    · next disagree =>
      simp only [List.all_eq_true, decide_eq_true_eq, not_forall] at disagree
      obtain ⟨other, behind, apart⟩ := disagree
      obtain ⟨among', near'⟩ := (mem other).1 (.tail miss behind)
      exact .ambiguousNearMiss refused among' among near' near apart

/-- What is matched among the templates of a mnemonic is justified by them. -/
theorem justified_among (nonempty : operands ≠ []) (some_template : templates ≠ []) :
    Justified features operands templates (among features operands templates) := by
  unfold among
  split
  · next template found =>
    have first := find?_eq_some_iff_isFirst.1 found
    simp only [Template.fits_iff] at first
    exact .matched first
  · next disabled =>
    split
    · next template found =>
      have first := find?_eq_some_iff_isFirst.1 found
      simp only [Template.fits_iff] at first
      refine .missingFeature (fun other among accepts enabled => ?_) first
      exact List.find?_eq_none.1 disabled other among
        (decide_eq_true ⟨Template.fits_iff.2 accepts, enabled⟩)
    · next unfit =>
      refine justified_getD nonempty some_template fun other among accepts => ?_
      exact List.find?_eq_none.1 unfit other among (decide_eq_true (Template.fits_iff.2 accepts))

/-- The outcome of matching is justified by the templates of the mnemonic. -/
theorem justified_ofOperands (table : Table) (features : FeatureSet) (operands : List Operand) :
    Justified features operands (table.candidates operands)
      (ofOperands table features operands) := by
  unfold ofOperands
  split
  · next mnemonic span rest =>
    rw [← Table.lookup_eq_candidates]
    split
    · next known =>
      exact justified_among (List.cons_ne_nil _ _) ((table.contains_iff mnemonic).1 known)
    · next unknown =>
      rw [table.contains_iff, not_not] at unknown
      exact .unknownMnemonic unknown
  · next other =>
    refine .unknownMnemonic ?_
    unfold Table.candidates
    split
    · next mnemonic span rest => exact absurd rfl (other mnemonic span rest)
    · rfl

/-- Matching gives the one outcome that the templates of the mnemonic justify. It rests on
`Template.mnemonic_lower`, which is a convention for the field: a look-up would miss a template
whose mnemonic were not in lower case. `Template.ofMnemonic` keeps the convention. -/
theorem ofOperands_eq_iff_justified : ofOperands table features operands = outcome ↔
    Justified features operands (table.candidates operands) outcome := by
  have justified := justified_ofOperands table features operands
  constructor
  · rintro rfl
    exact justified
  · exact justified.unique

end Outcome

end Asm65
