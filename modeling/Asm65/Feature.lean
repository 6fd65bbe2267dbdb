import Asm65.Text.Numeral
import Asm65.Text.Whitespace

/-!
# CPU features

Features gate instruction templates and register names. A set of features is
a 32-bit word, of which seven bits have a name; bits without a name are kept.

## Implementation notes

A feature list is read twice: a whole text that names a CPU stands for the
features of that CPU, and only another text is a list of feature names.
-/

namespace Asm65

/-- The features with a name. -/
inductive Feature
  | mos6502
  /-- Undocumented opcodes of the first chips. -/
  | mos6502x
  | mos65c02
  /-- Bit instructions. -/
  | mosr65c02
  /-- Wait and stop instructions. -/
  | mosw65c02
  /-- Long addresses and bracketed indirection. -/
  | mosw65816
  /-- Only the full names of registers are accepted. -/
  | canonicalRegisterNamesOnly
deriving DecidableEq

namespace Feature

/-- All features, in the order they are written in. -/
def all : List Feature :=
  [mos6502, mos6502x, mos65c02, mosr65c02, mosw65c02, mosw65816, canonicalRegisterNamesOnly]

theorem mem_all (feature : Feature) : feature ∈ all := by
  cases feature <;> decide

/-- The bit that stands for a feature. -/
def bit : Feature → Nat
  | mos6502 => 0
  | mos6502x => 1
  | mos65c02 => 2
  | mosr65c02 => 3
  | mosw65c02 => 4
  | mosw65816 => 5
  | canonicalRegisterNamesOnly => 16

theorem bit_lt (feature : Feature) : feature.bit < 32 := by
  cases feature <;> decide

/-- The name a feature is written with. -/
def name : Feature → String
  | mos6502 => "mos6502"
  | mos6502x => "mos6502x"
  | mos65c02 => "mos65c02"
  | mosr65c02 => "mosr65c02"
  | mosw65c02 => "mosw65c02"
  | mosw65816 => "mosw65816"
  | canonicalRegisterNamesOnly => "canonical-register-names-only"

/-- The names a feature is read from, in any letter case. -/
def names : List (String × Feature) :=
  all.map (fun feature => (feature.name, feature)) ++
    [("alt-register-names-only", canonicalRegisterNamesOnly)]

/-- The feature of a name. -/
def ofName? (name : String) : Option Feature :=
  names.lookup name.toLower

theorem ofName?_name (feature : Feature) : ofName? feature.name = some feature := by
  cases feature <;> decide +kernel

end Feature

/-- A set of features. -/
structure FeatureSet where
  bits : BitVec 32
deriving DecidableEq

namespace FeatureSet

instance : EmptyCollection FeatureSet := ⟨⟨0#32⟩⟩

instance : Singleton Feature FeatureSet := ⟨fun feature => ⟨BitVec.twoPow 32 feature.bit⟩⟩

instance : Union FeatureSet := ⟨fun first second => ⟨first.bits ||| second.bits⟩⟩

instance : SDiff FeatureSet := ⟨fun first second => ⟨first.bits &&& ~~~second.bits⟩⟩

instance : Inter FeatureSet := ⟨fun first second => ⟨first.bits &&& second.bits⟩⟩

instance : HasSubset FeatureSet := ⟨fun first second => second.bits &&& first.bits = first.bits⟩

instance (first second : FeatureSet) : Decidable (first ⊆ second) :=
  inferInstanceAs (Decidable (second.bits &&& first.bits = first.bits))

instance : Membership Feature FeatureSet := ⟨fun set feature => set.bits.getLsbD feature.bit = true⟩

instance (feature : Feature) (set : FeatureSet) : Decidable (feature ∈ set) :=
  inferInstanceAs (Decidable (set.bits.getLsbD feature.bit = true))

theorem not_mem_empty (feature : Feature) : feature ∉ (∅ : FeatureSet) := by
  change ¬(0#32).getLsbD _ = true
  simp

theorem mem_singleton {feature other : Feature} :
    feature ∈ ({other} : FeatureSet) ↔ feature = other := by
  cases feature <;> cases other <;> decide

theorem mem_union {feature : Feature} {first second : FeatureSet} :
    feature ∈ first ∪ second ↔ feature ∈ first ∨ feature ∈ second := by
  change (first.bits ||| second.bits).getLsbD _ = true ↔ _
  simp [Membership.mem]

theorem mem_sdiff {feature : Feature} {first second : FeatureSet} :
    feature ∈ first \ second ↔ feature ∈ first ∧ feature ∉ second := by
  change (first.bits &&& ~~~second.bits).getLsbD _ = true ↔ _
  simp [Membership.mem, feature.bit_lt]

/-- Inclusion, bit by bit. Bits without a name count too. -/
theorem subset_iff {first second : FeatureSet} :
    first ⊆ second ↔
      ∀ bit, first.bits.getLsbD bit = true → second.bits.getLsbD bit = true := by
  change second.bits &&& first.bits = first.bits ↔ _
  constructor
  · intro same bit set
    rw [← same, BitVec.getLsbD_and, Bool.and_eq_true] at set
    exact set.1
  · intro h
    apply BitVec.eq_of_getLsbD_eq
    intro bit _
    rw [BitVec.getLsbD_and]
    cases set : first.bits.getLsbD bit with
    | false => exact Bool.and_false _
    | true => rw [h bit set, Bool.and_true]

theorem mem_of_subset {feature : Feature} {first second : FeatureSet} (h : first ⊆ second)
    (among : feature ∈ first) : feature ∈ second :=
  subset_iff.1 h feature.bit among

theorem subset_trans {first second third : FeatureSet} (h : first ⊆ second)
    (h' : second ⊆ third) : first ⊆ third :=
  subset_iff.2 fun bit set => subset_iff.1 h' bit (subset_iff.1 h bit set)

theorem empty_subset (set : FeatureSet) : ∅ ⊆ set := by
  apply subset_iff.2
  intro bit h
  change (0#32).getLsbD bit = true at h
  simp at h

theorem subset_union_left (first second : FeatureSet) : first ⊆ first ∪ second := by
  apply subset_iff.2
  intro bit set
  change (first.bits ||| second.bits).getLsbD bit = true
  rw [BitVec.getLsbD_or, set, Bool.true_or]

theorem union_subset {first second set : FeatureSet} (h : first ⊆ set) (h' : second ⊆ set) :
    first ∪ second ⊆ set := by
  apply subset_iff.2
  intro bit among
  change (first.bits ||| second.bits).getLsbD bit = true at among
  rw [BitVec.getLsbD_or, Bool.or_eq_true] at among
  exact among.elim (subset_iff.1 h bit) (subset_iff.1 h' bit)

/-- What is missing from a set makes up for it. -/
theorem subset_union_sdiff (first second : FeatureSet) : first ⊆ second ∪ first \ second := by
  apply subset_iff.2
  intro bit set
  have inside := BitVec.lt_of_getLsbD set
  change (second.bits ||| first.bits &&& ~~~second.bits).getLsbD bit = true
  cases here : second.bits.getLsbD bit <;> simp [set, here, inside]

theorem sdiff_inter (first second : FeatureSet) : (first \ second) ∩ second = ∅ := by
  change mk (first.bits &&& ~~~second.bits &&& second.bits) = mk 0#32
  congr 1
  apply BitVec.eq_of_getLsbD_eq
  intro bit inside
  simp [inside]

theorem sdiff_eq_empty {first second : FeatureSet} (h : first ⊆ second) :
    first \ second = ∅ := by
  change mk (first.bits &&& ~~~second.bits) = mk 0#32
  congr 1
  apply BitVec.eq_of_getLsbD_eq
  intro bit inside
  have set := subset_iff.1 h bit
  cases here : first.bits.getLsbD bit <;> simp_all

theorem sdiff_ne_empty {first second : FeatureSet} (h : ¬first ⊆ second) :
    first \ second ≠ ∅ := by
  intro empty
  apply h
  apply subset_iff.2
  intro bit set
  have none : (first.bits &&& ~~~second.bits).getLsbD bit = (0#32).getLsbD bit :=
    congrArg (fun set : FeatureSet => set.bits.getLsbD bit) empty
  simpa [set, BitVec.lt_of_getLsbD set] using none

/-- The union of several features. -/
def ofList (features : List Feature) : FeatureSet :=
  features.foldl (fun set other => set ∪ {other}) ∅

theorem mem_foldl_union {feature : Feature} (features : List Feature) (set : FeatureSet) :
    feature ∈ features.foldl (fun set other => set ∪ {other}) set ↔
      feature ∈ set ∨ feature ∈ features := by
  induction features generalizing set with
  | nil => simp
  | cons other rest ih =>
    rw [List.foldl_cons, ih, mem_union, mem_singleton, List.mem_cons, or_assoc]

theorem mem_ofList {feature : Feature} {features : List Feature} :
    feature ∈ ofList features ↔ feature ∈ features := by
  simp [ofList, mem_foldl_union, not_mem_empty]

theorem singleton_subset_all (feature : Feature) :
    ({feature} : FeatureSet) ⊆ ofList Feature.all := by
  cases feature <;> decide

/-- A union of features has no bit but theirs. -/
theorem ofList_subset_all (features : List Feature) : ofList features ⊆ ofList Feature.all := by
  have all (set : FeatureSet) (h : set ⊆ ofList Feature.all) :
      features.foldl (fun set other => set ∪ {other}) set ⊆ ofList Feature.all := by
    induction features generalizing set with
    | nil => exact h
    | cons feature rest ih => exact ih _ (union_subset h (singleton_subset_all feature))
  exact all ∅ (empty_subset _)

theorem exists_bit_of_getLsbD_all {bit : Nat}
    (h : (ofList Feature.all).bits.getLsbD bit = true) :
    ∃ feature : Feature, feature.bit = bit := by
  have inside := BitVec.lt_of_getLsbD h
  have known : ∀ bit < 32, (ofList Feature.all).bits.getLsbD bit = true →
      ∃ feature ∈ Feature.all, feature.bit = bit := by decide
  obtain ⟨feature, -, same⟩ := known bit inside h
  exact ⟨feature, same⟩

/-- A set of features alone is known by the features in it. -/
theorem eq_of_mem_iff {first second : FeatureSet} (h : first ⊆ ofList Feature.all)
    (h' : second ⊆ ofList Feature.all) (same : ∀ feature, feature ∈ first ↔ feature ∈ second) :
    first = second := by
  have bits : first.bits = second.bits := by
    apply BitVec.eq_of_getLsbD_eq
    intro bit _
    by_cases named : (ofList Feature.all).bits.getLsbD bit = true
    · obtain ⟨feature, rfl⟩ := exists_bit_of_getLsbD_all named
      exact Bool.eq_iff_iff.2 (same feature)
    · rw [Bool.eq_false_iff.2 (mt (subset_iff.1 h bit) named),
        Bool.eq_false_iff.2 (mt (subset_iff.1 h' bit) named)]
  cases first
  exact congrArg mk bits

/-- The bits that stand for no feature. -/
def unnamed (set : FeatureSet) : FeatureSet :=
  set \ ofList Feature.all

/-- The named features of a set in order, then its other bits as one number. -/
def items (set : FeatureSet) : List String :=
  (Feature.all.filter (· ∈ set)).map Feature.name ++
    if set.unnamed = ∅ then [] else ["0x" ++ Text.hexadecimal set.unnamed.bits.toNat]

/-- A union of features is shown by their names alone. -/
theorem items_ofList (features : List Feature) :
    (ofList features).items = (Feature.all.filter (· ∈ ofList features)).map Feature.name := by
  have none : (ofList features).unnamed = ∅ := sdiff_eq_empty (ofList_subset_all features)
  rw [items, if_pos none, List.append_nil]

theorem ofList_filter_mem (features : List Feature) :
    ofList (Feature.all.filter (· ∈ ofList features)) = ofList features := by
  refine eq_of_mem_iff (ofList_subset_all _) (ofList_subset_all _) fun feature => ?_
  rw [mem_ofList, List.mem_filter, decide_eq_true_eq]
  exact and_iff_right (Feature.mem_all feature)

/-- The text of a feature set, its items joined by `+`. -/
def text (set : FeatureSet) : String :=
  String.intercalate "+" set.items

/-- The CPUs and their features. -/
def cpus : List (String × FeatureSet) :=
  [("mos6502", ofList [.mos6502]),
    ("mos6502x", ofList [.mos6502, .mos6502x]),
    ("mos65c02", ofList [.mos6502, .mos65c02]),
    ("mosr65c02", ofList [.mos6502, .mos65c02, .mosr65c02]),
    ("mosw65c02", ofList [.mos6502, .mos65c02, .mosr65c02, .mosw65c02]),
    ("mosw65816", ofList [.mos6502, .mos65c02, .mosw65c02, .mosw65816])]

/-- The features of a CPU, named in any letter case. -/
def ofCpu? (cpu : String) : Option FeatureSet :=
  cpus.lookup cpu.toLower

/-- A text in a feature list that names no feature. -/
structure Unknown where
  text : String
deriving DecidableEq

/-- The wording of the error for an unknown feature. -/
def Unknown.message (unknown : Unknown) : String :=
  "unknown CPU feature '" ++ unknown.text ++ "'"

/-- One part of a feature list: a feature name with white space around it. -/
def ofPart (part : String) : Except Unknown FeatureSet :=
  match Feature.ofName? (Text.trim part) with
  | some feature => .ok {feature}
  | none => .error ⟨part⟩

/-- The union of the sets that the parts of a feature list name. -/
def ofParts : FeatureSet → List String → Except Unknown FeatureSet
  | set, [] => .ok set
  | set, part :: parts =>
    match ofPart part with
    | .ok features => ofParts (set ∪ features) parts
    | .error unknown => .error unknown

/-- The parts of a feature list that are not empty. -/
def parts (text : String) : List String :=
  ((text.toList.splitOn '+').filter (· ≠ [])).map String.ofList

/-- A CPU name, or feature names joined by `+`. -/
def parse (text : String) : Except Unknown FeatureSet :=
  match ofCpu? text with
  | some set => .ok set
  | none => ofParts ∅ (parts text)

end FeatureSet

end Asm65
