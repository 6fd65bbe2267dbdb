import Asm65.Proofs.Priority

/-!
# Matching with checked positions

Matching again, position by position: the shape at a position is the one before
it in the list, the mismatch of a near miss the first of its list, and a
template of a mnemonic the one at a stored index. Positions start behind the
mnemonic and the index holds positions of the table only (`lt_size_of_index`),
so all of them are there, and the outcome is the same (`ofOperands_eq`).
-/

namespace Asm65.Checked

/-- The shape at a position behind the mnemonic, if the template reaches it. -/
def shapeAt (template : Template) (index : Nat) : Option (Option Shape) := do
  let place ← index.psub 1
  return template.shapes[place]?

/-- Whether the operand at a position does not have the shape there. -/
def differs (template : Template) (operands : List Operand) (index : Nat) : Option Bool := do
  let shape ← shapeAt template index
  match shape, operands[index]? with
  | some shape, some operand => return !shape.admits operand
  | _, _ => return true

/-- Those of some positions where operands do not fit a template. -/
def mismatchesAmong (template : Template) (operands : List Operand) :
    List Nat → Option (List Nat)
  | [] => some []
  | index :: rest => do
    let here ← differs template operands index
    let later ← mismatchesAmong template operands rest
    return if here then index :: later else later

/-- The positions where operands do not fit a template. -/
def mismatches (template : Template) (operands : List Operand) : Option (List Nat) :=
  let positions := max operands.length (template.shapes.length + 1)
  mismatchesAmong template operands (List.range' 1 (positions - 1))

/-- Whether a template is enabled and has one mismatch. -/
def isNear (features : FeatureSet) (compared : Template × List Nat) : Bool :=
  compared.1.IsEnabled features ∧ compared.2.length = 1

/-- A template with its first mismatch. -/
def withFirst (compared : Template × List Nat) : Option (Template × Nat) := do
  let index ← compared.2[0]?
  return (compared.1, index)

/-- The near misses among templates that are compared with operands. -/
def nearMisses (features : FeatureSet) (compared : List (Template × List Nat)) :
    Option (List (Template × Nat)) :=
  (compared.filter (isNear features)).mapM withFirst

/-- The first template whose first mismatch lies furthest, and that mismatch. -/
def furthest (compared : List (Template × List Nat)) : Option (Template × Nat) :=
  compared.foldl (fun best (template, found) =>
    match found.head? with
    | none => best
    | some index => if ∀ found ∈ best, found.2 < index then some (template, index) else best) none

/-- The operand to blame when no template fits. -/
def blame (compared : List (Template × List Nat)) (misses : List (Template × Nat)) :
    Option Outcome :=
  match misses with
  | (template, index) :: _ =>
    if misses.any (·.2 ≠ index) then some .ambiguousNearMiss
    else do
      let expected ← shapeAt template index
      return .invalidOperand index expected
  | [] =>
    match furthest compared with
    | none => some (.invalidOperand 1 none)
    | some (template, index) => do
      let expected ← shapeAt template index
      return .invalidOperand index expected

/-- The outcome among the templates of the mnemonic. -/
def among (features : FeatureSet) (operands : List Operand) (templates : List Template) :
    Option Outcome := do
  let compared ← templates.mapM fun template => do
    let found ← mismatches template operands
    return (template, found)
  match compared.find? fun (template, found) =>
      found = [] ∧ template.IsEnabled features with
  | some (template, _) => return .matched ⟨template, operands⟩
  | none =>
    match compared.find? fun (_, found) => found = [] with
    | some (template, _) => return .missingFeature 0 (template.requires \ features)
    | none => do
      let misses ← nearMisses features compared
      blame compared misses

/-- The templates at the positions that the index of a table has for a mnemonic. -/
def lookup (table : Table) (mnemonic : String) : Option (List Template) :=
  (table.index.getD mnemonic.toLower []).mapM fun position => table.templates[position]?

/-- The outcome of matching an operand list, of which the mnemonic is the first element. -/
def ofOperands (table : Table) (features : FeatureSet) (operands : List Operand) :
    Option Outcome :=
  match operands with
  | .token mnemonic _ :: _ =>
    if table.contains mnemonic then do
      let templates ← lookup table mnemonic
      among features operands templates
    else some .unknownMnemonic
  | _ => some .unknownMnemonic

/-- What is defined for every element of a list is defined for the list. -/
theorem mapM_eq_some_filterMap {α β : Type} {f : α → Option β} {list : List α}
    (h : ∀ a ∈ list, (f a).isSome) : list.mapM f = some (list.filterMap f) := by
  induction list with
  | nil => rfl
  | cons a list ih =>
    obtain ⟨here, later⟩ := List.forall_mem_cons.1 h
    obtain ⟨b, found⟩ := Option.isSome_iff_exists.1 here
    rw [List.mapM_cons, found, ih later, List.filterMap_cons_some found]
    rfl

section Positions

variable {template : Template} {operands : List Operand} {index : Nat}

theorem shapeAt_eq (behind : 1 ≤ index) :
    shapeAt template index = some (template.shapeAt? index) := by
  rw [shapeAt, Nat.psub_eq_sub behind]
  rfl

/-- What stands from a place on, if it is known what stands there. -/
theorem getElem?_tail {α : Type} {list rest : List α} {start : Nat} {a : α}
    (h : ∀ offset, list[start + offset]? = (a :: rest)[offset]?) (offset : Nat) :
    list[start + 1 + offset]? = rest[offset]? := by
  rw [Nat.add_assoc, Nat.add_comm 1, h, List.getElem?_cons_succ]

theorem getElem?_tail_nil {α : Type} {list : List α} {start : Nat}
    (h : ∀ offset, list[start + offset]? = none) (offset : Nat) :
    list[start + 1 + offset]? = none := by
  rw [Nat.add_assoc, h]

section Scan

variable {first start : Nat} {shapes : List Shape} {values : List Operand}

theorem differs_eq (behind : first = start + 1)
    (shaped : ∀ offset, template.shapes[start + offset]? = shapes[offset]?)
    (given : ∀ offset, operands[first + offset]? = values[offset]?) :
    differs template operands first =
      some (match shapes.head?, values.head? with
        | some shape, some operand => !shape.admits operand
        | _, _ => true) := by
  have shape := shaped 0
  have operand := given 0
  rw [Nat.add_zero] at shape operand
  rw [differs, shapeAt_eq (by omega), Template.shapeAt?, operand, behind, Nat.add_sub_cancel,
    shape, List.head?_eq_getElem?, List.head?_eq_getElem?]
  simp only [Option.bind_eq_bind, Option.bind_some]
  split <;> rfl

theorem mismatchesAmong_cons {wrong : Bool} {rest found : List Nat}
    (here : differs template operands index = some wrong)
    (later : mismatchesAmong template operands rest = some found) :
    mismatchesAmong template operands (index :: rest) =
      some (if wrong then index :: found else found) := by
  rw [mismatchesAmong, here]
  simp only [later, Option.bind_eq_bind, Option.bind_some]
  rfl

/-- Comparing position by position finds what comparing the lists does. -/
theorem mismatchesAmong_eq (behind : first = start + 1)
    (shaped : ∀ offset, template.shapes[start + offset]? = shapes[offset]?)
    (given : ∀ offset, operands[first + offset]? = values[offset]?) :
    mismatchesAmong template operands (List.range' first (max values.length shapes.length)) =
      some (mismatchesFrom first shapes values) := by
  fun_induction mismatchesFrom first shapes values generalizing start with
  | case1 first => rfl
  | case2 first operand values ih =>
    have here := differs_eq behind shaped given
    have later := ih (congrArg (· + 1) behind) (getElem?_tail_nil shaped) (getElem?_tail given)
    rw [List.length_nil, Nat.max_zero] at later ⊢
    exact mismatchesAmong_cons here later
  | case3 first shape shapes ih =>
    have here := differs_eq behind shaped given
    have later := ih (congrArg (· + 1) behind) (getElem?_tail shaped) (getElem?_tail_nil given)
    rw [List.length_nil, Nat.zero_max] at later ⊢
    exact mismatchesAmong_cons here later
  | case4 first shape shapes operand values decided ih
  | case5 first shape shapes operand values decided ih =>
    have here := differs_eq behind shaped given
    have later := ih (congrArg (· + 1) behind) (getElem?_tail shaped) (getElem?_tail given)
    simp only [List.head?_cons, decided] at here
    rw [List.length_cons, List.length_cons, Nat.add_max_add_right]
    exact mismatchesAmong_cons here later

end Scan

theorem mismatches_eq (template : Template) {operands : List Operand} (nonempty : operands ≠ []) :
    mismatches template operands = some (template.mismatches operands) := by
  obtain ⟨mnemonic, values, rfl⟩ := List.exists_cons_of_ne_nil nonempty
  have given (offset : Nat) : (mnemonic :: values)[1 + offset]? = values[offset]? := by
    rw [Nat.add_comm, List.getElem?_cons_succ]
  have shaped (offset : Nat) : template.shapes[0 + offset]? = template.shapes[offset]? := by
    rw [Nat.zero_add]
  rw [mismatches, List.length_cons, Nat.add_max_add_right, Nat.add_sub_cancel]
  exact mismatchesAmong_eq rfl shaped given

end Positions

section Outcomes

variable {features : FeatureSet} {operands : List Operand} {templates : List Template}

/-- Templates with their mismatches. -/
def withMismatches (operands : List Operand) (template : Template) : Template × List Nat :=
  (template, template.mismatches operands)

/-- A list of one mismatch has a first. -/
theorem nearMisses_eq (features : FeatureSet) (operands : List Operand)
    (templates : List Template) :
    nearMisses features (templates.map (withMismatches operands)) =
      some (templates.filterMap (·.nearMiss? features operands)) := by
  unfold nearMisses
  induction templates with
  | nil => rfl
  | cons template rest ih =>
    rw [List.map_cons, List.filter_cons, List.filterMap_cons]
    rcases found : template.mismatches operands with _ | ⟨index, _ | ⟨second, later⟩⟩
    · simpa [isNear, withMismatches, Template.nearMiss?, found] using ih
    · by_cases enabled : template.IsEnabled features
      · have near : isNear features (withMismatches operands template) := by
          simp [isNear, withMismatches, found, enabled]
        have first : withFirst (withMismatches operands template) = some (template, index) := by
          simp [withFirst, withMismatches, found]
        have miss : template.nearMiss? features operands = some (template, index) := by
          simp [Template.nearMiss?, found, enabled]
        rw [if_pos near, List.mapM_cons, first, ih, miss]
        rfl
      · simpa [isNear, withMismatches, Template.nearMiss?, found, enabled] using ih
    · simpa [isNear, withMismatches, Template.nearMiss?, found] using ih

theorem furthest_eq (operands : List Operand) (templates : List Template) :
    furthest (templates.map (withMismatches operands)) =
      Outcome.furthest? operands templates := by
  rw [furthest, List.foldl_map]
  rfl

theorem one_le_of_mem_mismatches {template : Template} {index : Nat}
    (h : index ∈ template.mismatches operands) : 1 ≤ index :=
  le_of_mem_mismatchesFrom h

theorem one_le_of_nearMiss? {template : Template} {found : Template × Nat}
    (h : template.nearMiss? features operands = some found) : 1 ≤ found.2 := by
  unfold Template.nearMiss? at h
  split at h
  · next index single =>
    split at h
    · cases h
      exact one_le_of_mem_mismatches (single ▸ List.mem_singleton_self index)
    · cases h
  · cases h

/-- Every position that is blamed stands behind the mnemonic. -/
theorem blame_eq (features : FeatureSet) (operands : List Operand) (templates : List Template) :
    blame (templates.map (withMismatches operands))
        (templates.filterMap (·.nearMiss? features operands)) =
      some ((Outcome.ofNearMisses? (templates.filterMap (·.nearMiss? features operands))).getD
        (Outcome.ofFurthest operands templates)) := by
  cases misses : templates.filterMap (·.nearMiss? features operands) with
  | nil =>
    have last := Outcome.isFurthest_furthest? operands templates
    simp only [blame, furthest_eq, Outcome.ofNearMisses?, Option.getD_none, Outcome.ofFurthest]
    cases found : Outcome.furthest? operands templates with
    | none => rfl
    | some best =>
      rw [found] at last
      have behind := one_le_of_mem_mismatches (List.mem_of_head? last.1.holds)
      simp only [shapeAt_eq behind, Option.bind_eq_bind, Option.bind_some]
      rfl
  | cons miss others =>
    obtain ⟨chosen, index⟩ := miss
    have among : (chosen, index) ∈ templates.filterMap (·.nearMiss? features operands) := by
      simp [misses]
    obtain ⟨template, -, near⟩ := List.mem_filterMap.1 among
    have behind := one_le_of_nearMiss? near
    have disagree : ((chosen, index) :: others).any (·.2 ≠ index) = !others.all (·.2 = index) := by
      simp [List.not_all_eq_any_not]
    simp only [blame, disagree, shapeAt_eq behind, Outcome.ofNearMisses?, Option.bind_eq_bind,
      Option.bind_some]
    cases others.all (·.2 = index) <;> rfl

theorem among_eq (features : FeatureSet) (nonempty : operands ≠ [])
    (templates : List Template) :
    among features operands templates = some (Outcome.among features operands templates) := by
  have compare (template : Template) : (do
      let found ← mismatches template operands
      return (template, found)) = some (withMismatches operands template) := by
    rw [mismatches_eq template nonempty]
    rfl
  have compared : (templates.mapM fun template => do
      let found ← mismatches template operands
      return (template, found)) = some (templates.map (withMismatches operands)) := by
    rw [mapM_eq_some_filterMap fun template _ => by rw [compare]; rfl]
    simp only [compare, List.filterMap_eq_map']
  have enabled : (fun compared => decide (compared.2 = [] ∧ compared.1.IsEnabled features)) ∘
      withMismatches operands =
        fun template => decide (template.Fits operands ∧ template.IsEnabled features) := rfl
  have fits : (fun compared => decide (compared.2 = [])) ∘ withMismatches operands =
      fun template => decide (template.Fits operands) := rfl
  unfold among Outcome.among
  rw [compared]
  simp only [Option.bind_eq_bind, Option.bind_some, List.find?_map, enabled, fits,
    nearMisses_eq, blame_eq]
  cases templates.find? (fun template => template.Fits operands ∧ template.IsEnabled features) with
  | some template => rfl
  | none => cases templates.find? (·.Fits operands) <;> rfl

end Outcomes

section Index

variable {table : Table} {mnemonic : String}

theorem lt_of_mem_positionsFrom {start position : Nat} {templates : List Template}
    (h : position ∈ Table.positionsFrom mnemonic start templates) :
    start ≤ position ∧ position < start + templates.length := by
  induction templates generalizing start with
  | nil => cases h
  | cons template rest ih =>
    rw [Table.positionsFrom] at h
    rw [List.length_cons]
    split at h
    · rcases List.mem_cons.1 h with rfl | h
      · omega
      · have := ih h
        omega
    · have := ih h
      omega

/-- The index of a table has positions of its templates only. -/
theorem lt_size_of_index {positions : List Nat} (h : table.index[mnemonic]? = some positions)
    {position : Nat} (among : position ∈ positions) : position < table.size := by
  rw [table.index_agrees] at h
  have found := Table.positions?_getD mnemonic 0 table.templates.toList
  rw [h, Option.getD_some] at found
  rw [found] at among
  have := (lt_of_mem_positionsFrom among).2
  rwa [Nat.zero_add] at this

/-- Every stored position has a template. -/
theorem lookup_eq (table : Table) (mnemonic : String) :
    lookup table mnemonic = some (table.lookup mnemonic) := by
  refine mapM_eq_some_filterMap fun position among => ?_
  rw [Std.HashMap.getD_eq_getD_getElem?] at among
  cases found : table.index[mnemonic.toLower]? with
  | none =>
    rw [found] at among
    cases among
  | some positions =>
    rw [found] at among
    have inside : position < table.templates.size := lt_size_of_index found among
    rw [Array.getElem?_eq_getElem inside]
    rfl

end Index

theorem ofOperands_eq (table : Table) (features : FeatureSet) (operands : List Operand) :
    ofOperands table features operands = some (Outcome.ofOperands table features operands) := by
  rcases operands with _ | ⟨⟨mnemonic, span⟩ | _ | _, rest⟩
  case cons.token =>
    rw [ofOperands, Outcome.ofOperands, lookup_eq]
    split
    · exact among_eq features (List.cons_ne_nil _ rest) (table.lookup mnemonic)
    · rfl
  all_goals rfl

end Asm65.Checked
