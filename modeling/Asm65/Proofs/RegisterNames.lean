import Asm65.Proofs.LetterCase
import Asm65.Proofs.ReadBack.Expr

/-!
# The names of registers

A text names a register exactly if it is the full name, in any letter case. The
imaginary registers have a short name too, the full one without its two underscores,
unless only full names are accepted (`Register.ofName?_iff_spelled`).

## Implementation notes

A register number is a list of digits without leading zeros, and those are the decimal
texts of the natural numbers (`Text.toDigits_positionalValue`).
-/

namespace Asm65

namespace Text

theorem toDigits_digitValue {c : Char} (h : c.isDigit) :
    digitValue c < 10 ∧ Nat.toDigits 10 (digitValue c) = [c] := by
  have bounds : 48 ≤ c.toNat ∧ c.toNat ≤ 57 := by
    simp only [Char.isDigit, Bool.and_eq_true, decide_eq_true_eq, ge_iff_le,
      UInt32.le_iff_toNat_le] at h
    exact h
  have zero : '0'.toNat = 48 := rfl
  have small : c.toNat - 48 < 10 := by omega
  rw [digitValue_of_isDigit h, zero, Nat.toDigits_of_lt_base small]
  refine ⟨small, congrArg ([·]) (Char.toNat_inj.1 ?_)⟩
  rw [Nat.toNat_digitChar_of_lt_ten small]
  omega

/-- Whether a numeral has no digit in front that could be left out. -/
def IsShortest (digits : List Char) : Prop :=
  digits ≠ [] ∧ digits.all Char.isDigit ∧ (digits.head? = some '0' → digits.length = 1)

/-- A numeral without leading zeros is the decimal text of its value. -/
theorem toDigits_positionalValue {digits : List Char} (h : IsShortest digits) :
    Nat.toDigits 10 (positionalValue 10 digits) = digits := by
  induction digits using List.reverseRecOn with
  | nil => exact absurd rfl h.1
  | append_singleton before c ih =>
    obtain ⟨-, inside, short⟩ := h
    rw [List.all_append, Bool.and_eq_true] at inside
    obtain ⟨small, digit⟩ := toDigits_digitValue (List.all_eq_true.1 inside.2 c (by simp))
    cases before with
    | nil =>
      have alone : positionalValue 10 [c] = digitValue c := by
        simp [positionalValue]
      rw [List.nil_append, alone, digit]
    | cons first rest =>
      have nonzero : first ≠ '0' := by
        rintro rfl
        have one := short rfl
        simp at one
      have front : Nat.toDigits 10 (positionalValue 10 (first :: rest)) = first :: rest :=
        ih ⟨List.cons_ne_nil _ _, inside.1, fun zero => absurd (Option.some.inj zero) nonzero⟩
      have positive : 0 < positionalValue 10 (first :: rest) := by
        apply Nat.pos_of_ne_zero
        intro zero
        rw [zero] at front
        exact nonzero (List.cons.inj front).1.symm
      have value : positionalValue 10 (first :: rest ++ [c]) =
          10 * positionalValue 10 (first :: rest) + digitValue c := by
        simp only [positionalValue, List.foldl_append, List.foldl_cons, List.foldl_nil,
          Nat.mul_comm]
      calc
        Nat.toDigits 10 (positionalValue 10 (first :: rest ++ [c])) =
            Nat.toDigits 10 (positionalValue 10 (first :: rest)) ++
              Nat.toDigits 10 (digitValue c) := by
          rw [value, Nat.toDigits_append_toDigits (by decide) positive small]
        _ = first :: rest ++ [c] := by rw [front, digit]

theorem eq_zero_of_head?_toDigits {n : Nat} (h : (Nat.toDigits 10 n).head? = some '0') : n = 0 := by
  induction n using Nat.strongRecOn with
  | ind n ih =>
    rcases Nat.lt_or_ge n 10 with small | large
    · rw [Nat.toDigits_of_lt_base small] at h
      have zero := congrArg Char.toNat (Option.some.inj h)
      rw [Nat.toNat_digitChar_of_lt_ten small] at zero
      exact Nat.add_left_cancel zero
    · have fewer : n / 10 < n := Nat.div_lt_self (by omega) (by decide)
      rw [Nat.toDigits_of_base_le (by decide) large,
        List.head?_append_of_ne_nil _ Nat.toDigits_ne_nil] at h
      have zero := ih _ fewer h
      omega

theorem isShortest_toDigits (n : Nat) : IsShortest (Nat.toDigits 10 n) := by
  refine ⟨Nat.toDigits_ne_nil, List.all_eq_true.2 fun c among => ?_, fun zero => ?_⟩
  · exact isDigit_of_mem_toDigits c among
  · rw [eq_zero_of_head?_toDigits zero]
    rfl

theorem toLower_of_isDigit {c : Char} (h : c.isDigit) : c.toLower = c := by
  have letters : upperLetters.all fun d => d.isDigit = false := by decide
  refine (toLower_eq_or_mem c).resolve_right fun upper => ?_
  rw [of_decide_eq_true (List.all_eq_true.1 letters c upper)] at h
  cases h

theorem map_toLower_toDigits (n : Nat) :
    (Nat.toDigits 10 n).map Char.toLower = Nat.toDigits 10 n := by
  calc
    (Nat.toDigits 10 n).map Char.toLower = (Nat.toDigits 10 n).map id :=
      List.map_congr_left fun c among => toLower_of_isDigit (isDigit_of_mem_toDigits c among)
    _ = Nat.toDigits 10 n := List.map_id _

end Text

namespace Register

/-- Whether a register is an imaginary one. -/
def IsImaginary : Register → Prop
  | rc _ | rs _ => True
  | a | x | y | s | p => False

variable {spelling : List Char} {register : Register}

theorem number?_eq_some_iff {limit : Nat} {digits : List Char} {number : Fin limit} :
    number? limit digits = some number ↔ digits = Nat.toDigits 10 number := by
  constructor
  · intro found
    unfold number? at found
    split at found
    · next short =>
      split at found
      · cases found
        exact (Text.toDigits_positionalValue short).symm
      · cases found
    · cases found
  · rintro rfl
    have value := Text.positionalValue_toDigits number
    calc
      number? limit (Nat.toDigits 10 number) =
          if h : Text.positionalValue 10 (Nat.toDigits 10 number) < limit then some ⟨_, h⟩
          else none := if_pos (Text.isShortest_toDigits number)
      _ = some number := by
        rw [dif_pos (value.symm ▸ number.isLt)]
        exact congrArg some (Fin.ext value)

theorem toList_text_rc (number : Fin 256) :
    (rc number).text.toList = '_' :: '_' :: 'r' :: 'c' :: Nat.toDigits 10 number := by
  simp only [text, Text.decimal, String.toList_append, String.toList_ofList]
  rfl

theorem toList_text_rs (number : Fin 128) :
    (rs number).text.toList = '_' :: '_' :: 'r' :: 's' :: Nat.toDigits 10 number := by
  simp only [text, Text.decimal, String.toList_append, String.toList_ofList]
  rfl

theorem toLower_text (register : Register) : register.text.toLower = register.text := by
  apply String.toList_inj.1
  rw [Text.toList_toLower]
  cases register with
  | a | x | y | s | p => rfl
  | rc number =>
    rw [toList_text_rc]
    exact congrArg ('_' :: '_' :: 'r' :: 'c' :: ·) (Text.map_toLower_toDigits number)
  | rs number =>
    rw [toList_text_rs]
    exact congrArg ('_' :: '_' :: 'r' :: 's' :: ·) (Text.map_toLower_toDigits number)

/-- The names that are read as an imaginary register, in lower case. -/
theorem imaginary?_eq_some_iff : imaginary? spelling = some register ↔
    register.IsImaginary ∧ register.text.toList = '_' :: '_' :: spelling := by
  constructor
  · intro found
    unfold imaginary? at found
    split at found
    · obtain ⟨number, counted, rfl⟩ := Option.map_eq_some_iff.1 found
      rw [toList_text_rc, number?_eq_some_iff.1 counted]
      exact ⟨trivial, rfl⟩
    · obtain ⟨number, counted, rfl⟩ := Option.map_eq_some_iff.1 found
      rw [toList_text_rs, number?_eq_some_iff.1 counted]
      exact ⟨trivial, rfl⟩
    · cases found
  · rintro ⟨imaginary, spelled⟩
    cases register with
    | rc number =>
      rw [toList_text_rc] at spelled
      cases spelled
      rw [imaginary?, number?_eq_some_iff.2 rfl, Option.map_some]
    | rs number =>
      rw [toList_text_rs] at spelled
      cases spelled
      rw [imaginary?, number?_eq_some_iff.2 rfl, Option.map_some]
    | a | x | y | s | p => exact imaginary.elim

/-- The full names of registers, in lower case. -/
theorem canonical?_eq_some_iff :
    canonical? spelling = some register ↔ spelling = register.text.toList := by
  constructor
  · intro found
    unfold canonical? at found
    split at found
    case h_6 => exact (imaginary?_eq_some_iff.1 found).2.symm
    case h_7 => cases found
    all_goals
      cases found
      rfl
  · rintro rfl
    cases register with
    | a | x | y | s | p => rfl
    | rc number =>
      rw [toList_text_rc]
      have imaginary : (rc number).IsImaginary := trivial
      exact imaginary?_eq_some_iff.2 ⟨imaginary, toList_text_rc number⟩
    | rs number =>
      rw [toList_text_rs]
      have imaginary : (rs number).IsImaginary := trivial
      exact imaginary?_eq_some_iff.2 ⟨imaginary, toList_text_rs number⟩

/-- A short name is not a full name. -/
theorem canonical?_eq_none (h : imaginary? spelling = some register) :
    canonical? spelling = none := by
  unfold imaginary? at h
  split at h
  · rfl
  · rfl
  · cases h

theorem ofName?_eq_some_iff {features : FeatureSet} {name : String} :
    ofName? features name = some register ↔ canonical? name.toLower.toList = some register ∨
      .canonicalRegisterNamesOnly ∉ features ∧ imaginary? name.toLower.toList = some register := by
  simp only [ofName?]
  split
  · next full known =>
    rw [known]
    refine ⟨.inl, fun either => either.elim id ?_⟩
    rintro ⟨-, short⟩
    cases (canonical?_eq_none short).symm.trans known
  · next unknown =>
    rw [unknown]
    split
    · next only => simp [only]
    · next any => simp [any]

/-- The registers that a text names: the one with this full name, up to letter case, or else the
imaginary one whose full name it is behind two underscores, unless only full names are accepted. No
text names two registers, under whatever features, each register is named by its own text, and fewer
texts are names when only full names are accepted. -/
theorem ofName?_iff_spelled (features : FeatureSet) (name : String) :
    (∀ register, ofName? features name = some register ↔
      name.toLower = register.text ∨
        .canonicalRegisterNamesOnly ∉ features ∧ register.IsImaginary ∧
          "__" ++ name.toLower = register.text) ∧
    (∀ features' register register', ofName? features name = some register →
      ofName? features' name = some register' → register = register') ∧
    (∀ register, ofName? features register.text = some register) ∧
    ∀ register, ofName? (features ∪ {.canonicalRegisterNamesOnly}) name = some register →
      ofName? features name = some register := by
  have full {text : String} {register : Register} :
      canonical? text.toList = some register ↔ text = register.text :=
    canonical?_eq_some_iff.trans String.toList_inj
  have short {register : Register} : imaginary? name.toLower.toList = some register ↔
      register.IsImaginary ∧ "__" ++ name.toLower = register.text := by
    rw [imaginary?_eq_some_iff, ← String.toList_inj, String.toList_append, eq_comm (b := _ :: _)]
    exact Iff.rfl
  refine ⟨fun register => ?_, fun features' register register' found found' => ?_,
    fun register => ?_, fun register found => ?_⟩
  · rw [ofName?_eq_some_iff, full, short]
  · rcases ofName?_eq_some_iff.1 found with known | ⟨-, known⟩ <;>
      rcases ofName?_eq_some_iff.1 found' with known' | ⟨-, known'⟩
    · exact Option.some.inj (known.symm.trans known')
    · cases (canonical?_eq_none known').symm.trans known
    · cases (canonical?_eq_none known).symm.trans known'
    · exact Option.some.inj (known.symm.trans known')
  · exact ofName?_eq_some_iff.2 (.inl (full.2 register.toLower_text))
  · refine ofName?_eq_some_iff.2 (.inl ?_)
    rcases ofName?_eq_some_iff.1 found with known | ⟨any, -⟩
    · exact known
    · exact absurd (FeatureSet.mem_union.2 (.inr (FeatureSet.mem_singleton.2 rfl))) any

/-- The last pair by its short name in upper case, and by its full name where nothing else is
accepted. -/
theorem ofName?_iff_spelled_pair :
    ofName? {.mos6502} "RS127" = some (.rs 127) ∧
      (∀ features other, ofName? features "RS127" = some other → .rs 127 = other) ∧
      ofName? ({.mos6502} ∪ {.canonicalRegisterNamesOnly}) "__Rs127" = some (.rs 127) ∧
      ofName? {.mos6502} "__Rs127" = some (.rs 127) := by
  have full : ofName? ({.mos6502} ∪ {.canonicalRegisterNamesOnly}) "__Rs127" = some (.rs 127) := by
    decide +kernel
  obtain ⟨named, alone, -, -⟩ := ofName?_iff_spelled {.mos6502} "RS127"
  obtain ⟨-, -, -, fewer⟩ := ofName?_iff_spelled {.mos6502} "__Rs127"
  have short : ofName? {.mos6502} "RS127" = some (.rs 127) :=
    (named _).2 (.inr ⟨by decide, trivial, by decide +kernel⟩)
  exact ⟨short, fun features other => alone features _ other short, full, fewer _ full⟩

end Register

end Asm65
