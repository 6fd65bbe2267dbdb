import Asm65.Table

/-!
# Matching

An operand list is compared with the templates of its mnemonic. The first
enabled template that fits is chosen. When none fits, the outcome says why: a
feature is missing, an operand is wrong, or several templates nearly fit.

## Implementation notes

Operand positions count from the mnemonic, which is position 0. A missing
operand and a surplus one are mismatches too, so a template fits exactly when
it has no mismatch.
-/

namespace Asm65

/-- A template and the operands that fit it. -/
structure Instruction where
  template : Template
  operands : List Operand
deriving DecidableEq

/-- The result of matching. -/
inductive Outcome
  | matched (instruction : Instruction)
  /-- A template fits, but needs features that are not enabled. -/
  | missingFeature (index : Nat) (missing : FeatureSet)
  /-- No template fits, and the operand at a position is to blame. -/
  | invalidOperand (index : Nat) (expected : Option Shape)
  | unknownMnemonic
  /-- Templates are one operand away from fitting, at different positions. -/
  | ambiguousNearMiss
deriving DecidableEq

/-- The positions where operands do not have the shapes, counted from a start. -/
def mismatchesFrom (start : Nat) : List Shape → List Operand → List Nat
  | [], [] => []
  | [], _ :: operands => start :: mismatchesFrom (start + 1) [] operands
  | _ :: shapes, [] => start :: mismatchesFrom (start + 1) shapes []
  | shape :: shapes, operand :: operands =>
    if shape.admits operand then mismatchesFrom (start + 1) shapes operands
    else start :: mismatchesFrom (start + 1) shapes operands

theorem le_of_mem_mismatchesFrom {start index : Nat} {shapes : List Shape}
    {operands : List Operand} (h : index ∈ mismatchesFrom start shapes operands) :
    start ≤ index := by
  fun_induction mismatchesFrom start shapes operands with
  | case1 => simp at h
  | case2 start _ operands ih | case3 start _ shapes ih =>
    rcases List.mem_cons.1 h with rfl | h
    · exact Nat.le_refl _
    · exact Nat.le_of_succ_le (ih h)
  | case4 start shape shapes operand operands _ ih => exact Nat.le_of_succ_le (ih h)
  | case5 start shape shapes operand operands _ ih =>
    rcases List.mem_cons.1 h with rfl | h
    · exact Nat.le_refl _
    · exact Nat.le_of_succ_le (ih h)

namespace Template

/-- The positions where an operand list, mnemonic included, does not fit a template. -/
def mismatches (template : Template) (operands : List Operand) : List Nat :=
  mismatchesFrom 1 template.shapes operands.tail

/-- Whether an operand list, mnemonic included, fits a template. -/
def Fits (template : Template) (operands : List Operand) : Prop :=
  template.mismatches operands = []

instance (template : Template) (operands : List Operand) : Decidable (template.Fits operands) :=
  inferInstanceAs (Decidable (_ = _))

/-- The shape at an operand position, if the template reaches it. -/
def shapeAt? (template : Template) (index : Nat) : Option Shape :=
  template.shapes[index - 1]?

/-- The one position where an operand list does not fit an enabled template. -/
def nearMiss? (features : FeatureSet) (operands : List Operand) (template : Template) :
    Option (Template × Nat) :=
  match template.mismatches operands with
  | [index] => if template.IsEnabled features then some (template, index) else none
  | _ => none

end Template

namespace Outcome

/-- The near misses, if there are any: one position is blamed, or several are and none is. -/
def ofNearMisses? : List (Template × Nat) → Option Outcome
  | [] => none
  | (template, index) :: others =>
    if others.all (·.2 = index) then some (.invalidOperand index (template.shapeAt? index))
    else some .ambiguousNearMiss

/-- The first template whose first mismatch lies furthest, and that mismatch. -/
def furthest? (operands : List Operand) (templates : List Template) : Option (Template × Nat) :=
  templates.foldl (fun best template =>
    match (template.mismatches operands).head? with
    | none => best
    | some index => if ∀ found ∈ best, found.2 < index then some (template, index) else best) none

/-- The operand to blame when no template nearly fits. -/
def ofFurthest (operands : List Operand) (templates : List Template) : Outcome :=
  match furthest? operands templates with
  | some (template, index) => .invalidOperand index (template.shapeAt? index)
  | none => .invalidOperand 1 none

/-- The outcome among the templates of the mnemonic. -/
def among (features : FeatureSet) (operands : List Operand) (templates : List Template) :
    Outcome :=
  match templates.find? fun template =>
      template.Fits operands ∧ template.IsEnabled features with
  | some template => .matched ⟨template, operands⟩
  | none =>
    match templates.find? (·.Fits operands) with
    | some template => .missingFeature 0 (template.requires \ features)
    | none =>
      (ofNearMisses? (templates.filterMap (·.nearMiss? features operands))).getD
        (ofFurthest operands templates)

/-- The outcome of matching an operand list, of which the mnemonic is the first element. -/
def ofOperands (table : Table) (features : FeatureSet) (operands : List Operand) : Outcome :=
  match operands with
  | .token mnemonic _ :: _ =>
    if table.contains mnemonic then among features operands (table.lookup mnemonic)
    else .unknownMnemonic
  | _ => .unknownMnemonic

/-- The span of the mnemonic. -/
def mnemonicSpan (operands : List Operand) : Span :=
  match operands with
  | mnemonic :: _ => mnemonic.span
  | [] => .empty 0

/-- Where the last operand ends. -/
def endOf (operands : List Operand) : Nat :=
  (operands.getLast?.map fun operand => operand.span.stop).getD 0

/-- What is wrong with an operand that does not have the shape expected of it. -/
def operandCause : Option Shape → Cause
  | some (.value .addr8) => .invalidAddr8
  | some (.value .addr16) => .invalidAddr16
  | some (.value .pcRel8) => .invalidPcRel8
  | some (.value .imm8To16) => .invalidImm8To16
  | _ => .invalidOperand

/-- The instruction of a match, or the diagnostic for a failed one. -/
def result (operands : List Operand) : Outcome → Except Diagnostic Instruction
  | matched instruction => .ok instruction
  | unknownMnemonic => .error ⟨.unknownMnemonic, mnemonicSpan operands⟩
  | ambiguousNearMiss => .error ⟨.nearMisses, mnemonicSpan operands⟩
  | missingFeature index missing =>
    match operands[index]? with
    | some operand => .error ⟨.missingFeature missing, operand.span⟩
    | none => .error ⟨.missingFeature missing, mnemonicSpan operands⟩
  | invalidOperand index expected =>
    match operands[index]? with
    | some operand => .error ⟨operandCause expected, operand.span⟩
    | none => .error ⟨.tooFewOperands, .empty (endOf operands)⟩

theorem result_eq_ok_iff {operands : List Operand} {outcome : Outcome} {found : Instruction} :
    outcome.result operands = .ok found ↔ outcome = .matched found := by
  cases outcome with
  | matched | unknownMnemonic | ambiguousNearMiss => simp [result]
  | missingFeature index missing | invalidOperand index expected =>
    simp only [result]
    split <;> simp

end Outcome

end Asm65
