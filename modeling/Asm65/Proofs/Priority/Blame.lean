import Asm65.Proofs.Priority

/-!
# The blamed operand

When no template accepts the operands, one of them is blamed: the only one that
a near miss does not take, or the furthest that some template gets to. Either
way some template takes every operand before it (`DiffersFirstAt.takes`), so the
position is an operand's, or the end of the list where a template goes on.

## Implementation notes

The diagnostic has no outcome of its own for a missing operand: it tells one
from a wrong operand by the position alone.
-/

namespace Asm65

namespace Template

variable {template : Template} {features : FeatureSet} {operands : List Operand}
  {index position : Nat}

/-- Whether a template has a shape at a position, and the operand there has it. -/
def TakesAt (template : Template) (operands : List Operand) (position : Nat) : Prop :=
  ∃ shape ∈ template.shapeAt? position, ∃ operand ∈ operands[position]?, shape.admits operand

/-- Whether an operand list has the shapes of a template up to a position. -/
def TakesBefore (template : Template) (operands : List Operand) (index : Nat) : Prop :=
  ∀ position, 1 ≤ position → position < index → template.TakesAt operands position

theorem TakesAt.lt_length (h : template.TakesAt operands position) :
    position < operands.length := by
  obtain ⟨_, -, _, here, -⟩ := h
  exact (List.getElem?_eq_some_iff.1 here).1

/-- The only difference is the first. -/
theorem DiffersOnlyAt.first (h : template.DiffersOnlyAt operands index) :
    template.DiffersFirstAt operands index :=
  ⟨h.here, fun other differs => Nat.le_of_eq (h.only other differs).symm⟩

namespace DiffersFirstAt

/-- A template takes the operands before the first difference. -/
theorem takes (h : template.DiffersFirstAt operands index) :
    template.TakesBefore operands index := by
  intro position behind before
  by_contra refused
  have inside : position ≤ template.shapes.length ∨ position < operands.length := by
    rcases h.here.inside with inside | inside
    · exact .inl (Nat.le_of_lt (Nat.lt_of_lt_of_le before inside))
    · exact .inr (Nat.lt_trans before inside)
  have differs : template.DiffersAt operands position := by
    refine ⟨behind, inside, fun shape wanted operand here admitted => ?_⟩
    exact refused ⟨shape, wanted, operand, here, admitted⟩
  exact Nat.not_lt.2 (h.least position differs) before

/-- The first difference is at an operand, or where the operands end. -/
theorem le_length (h : template.DiffersFirstAt operands index) (nonempty : operands ≠ []) :
    index ≤ operands.length := by
  by_contra beyond
  have last := h.takes operands.length (List.length_pos_iff.2 nonempty) (Nat.lt_of_not_le beyond)
  exact Nat.lt_irrefl _ last.lt_length

/-- Where the operands end too early, the template goes on. -/
theorem length_le_of_eq (h : template.DiffersFirstAt operands operands.length) :
    operands.length ≤ template.shapes.length :=
  h.here.inside.resolve_right (Nat.lt_irrefl _)

/-- Without a shape at the first difference the template has ended, and the operand is surplus. -/
theorem surplus_of_shapeAt?_eq_none (h : template.DiffersFirstAt operands index)
    (missing : template.shapeAt? index = none) :
    template.shapes.length < index ∧ index < operands.length := by
  have behind := h.here.behind
  rw [shapeAt?, List.getElem?_eq_none_iff] at missing
  have ended : template.shapes.length < index := by omega
  exact ⟨ended, h.here.inside.resolve_left (Nat.not_le.2 ended)⟩

end DiffersFirstAt

end Template

namespace Outcome

variable {table : Table} {features : FeatureSet} {operands : List Operand}
  {templates : List Template} {index : Nat} {expected : Option Shape}

/-- Both ways to blame an operand find the first difference from some template. -/
theorem Justified.exists_differsFirstAt
    (h : Justified features operands templates (.invalidOperand index expected)) :
    (∀ other ∈ templates, ¬other.Accepts operands) ∧
      ∃ template ∈ templates, template.DiffersFirstAt operands index ∧
        expected = template.shapeAt? index := by
  cases h with
  | @nearMiss template _ refused first near =>
    exact ⟨refused, template, first.mem, near.2.first, rfl⟩
  | @furthest template _ refused _ first =>
    exact ⟨refused, template, first.mem, first.holds, rfl⟩

theorem operandCause_ne_tooFewOperands (expected : Option Shape) :
    operandCause expected ≠ .tooFewOperands := by
  unfold operandCause
  split <;> nofun

/-- The diagnostic is about a missing operand where there is none. -/
theorem result_invalidOperand_eq_tooFewOperands_iff :
    (∃ span, (invalidOperand index expected).result operands = .error ⟨.tooFewOperands, span⟩) ↔
      operands.length ≤ index := by
  rw [← List.getElem?_eq_none_iff]
  simp only [result]
  cases here : operands[index]? with
  | none => exact iff_of_true ⟨_, rfl⟩ rfl
  | some operand =>
    refine iff_of_false ?_ (Option.some_ne_none operand)
    rintro ⟨span, same⟩
    injection same with same
    injection same with cause
    exact operandCause_ne_tooFewOperands expected cause

/-- A blamed operand is one that some template of the mnemonic does not take although it takes
those before it, and it is missing only where such a template goes on. As in
`ofOperands_eq_iff_justified`, the convention `Template.mnemonic_lower` is what makes the templates
looked up all those of the mnemonic. -/
theorem ofOperands_invalidOperand_sound
    (h : ofOperands table features operands = .invalidOperand index expected) :
    1 ≤ index ∧ index ≤ operands.length ∧
      (∃ template ∈ table.candidates operands,
        template.TakesBefore operands index ∧ template.DiffersAt operands index ∧
        expected = template.shapeAt? index ∧
        (expected = none → template.shapes.length < index ∧ index < operands.length)) ∧
      (∃ mnemonic span rest, operands = .token mnemonic span :: rest ∧
        furthest? operands (table.lookup mnemonic) ≠ none) ∧
      ((∃ span, (ofOperands table features operands).result operands =
          .error ⟨.tooFewOperands, span⟩) ↔ index = operands.length) ∧
      (index = operands.length → ∃ template ∈ table.candidates operands,
        operands.length ≤ template.shapes.length ∧
        template.TakesBefore operands operands.length) := by
  have justified := justified_ofOperands table features operands
  rw [h] at justified
  obtain ⟨refused, template, among, first, rfl⟩ := justified.exists_differsFirstAt
  obtain ⟨mnemonic, span, rest, named, -⟩ := Table.mem_candidates_iff.1 among
  have inside : index ≤ operands.length := first.le_length (named ▸ List.cons_ne_nil _ _)
  refine ⟨first.here.behind, inside, ⟨template, among, first.takes, first.here, rfl,
    first.surplus_of_shapeAt?_eq_none⟩, ⟨mnemonic, span, rest, named, ?_⟩, ?_, ?_⟩
  · have lookup : table.lookup mnemonic = table.candidates operands :=
      named ▸ table.lookup_eq_candidates mnemonic span rest
    rw [lookup]
    exact furthest?_ne_none (List.ne_nil_of_mem among) refused
  · rw [h, result_invalidOperand_eq_tooFewOperands_iff]
    exact ⟨Nat.le_antisymm inside, Nat.le_of_eq ∘ Eq.symm⟩
  · rintro rfl
    exact ⟨template, among, first.length_le_of_eq, first.takes⟩

/-- In `sta (<label),x` the register is blamed, behind a delimited operand that fits. -/
theorem ofOperands_invalidOperand_sound_indirect :
    let table := Table.ofTemplates [.ofMnemonic "sta" [.value .addr8] 0x85 ∅,
      .ofMnemonic "sta" [.literal "(", .value .addr8, .literal ")", .register .y] 0x91 ∅]
    let operands : List Operand := [.token "sta" ⟨0, 3⟩, .token "(" ⟨4, 1⟩,
      .immediate (.modified .addr16Low (.symbol "label") false) ⟨5, 6⟩, .token ")" ⟨11, 1⟩,
      .register .x ⟨13, 1⟩]
    ofOperands table {} operands = .invalidOperand 4 (some (.register .y)) ∧
      (∃ template ∈ table.candidates operands,
        template.TakesBefore operands 4 ∧ template.DiffersAt operands 4) ∧
      ¬∃ span, (ofOperands table {} operands).result operands = .error ⟨.tooFewOperands, span⟩ := by
  intro table operands
  have blamed : ofOperands table {} operands = .invalidOperand 4 (some (.register .y)) := by
    rw [ofOperands_of_token]
    cbv
  obtain ⟨-, -, ⟨template, among, takes, differs, -⟩, -, missing, -⟩ :=
    ofOperands_invalidOperand_sound blamed
  exact ⟨blamed, ⟨template, among, takes, differs⟩, mt missing.1 (by decide)⟩

end Outcome

end Asm65
