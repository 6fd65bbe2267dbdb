/-!
# Letter case

Comparison of texts up to the case of ASCII letters. Lower case is a normal
form (`toLower_toLower`), so the comparison is an equivalence.
-/

namespace Asm65.Text

theorem char_toLower_toLower (c : Char) : c.toLower.toLower = c.toLower := by
  unfold Char.toLower
  split
  · next upper =>
    rw [dif_neg]
    have low := UInt32.le_iff_toNat_le.1 upper.1
    intro ⟨_, high⟩
    have high := UInt32.le_iff_toNat_le.1 high
    have bound := UInt32.le_iff_toNat_le.1 upper.2
    simp only [UInt32.toNat_add] at high
    have atA : ('A'.val).toNat = 65 := rfl
    have atZ : ('Z'.val).toNat = 90 := rfl
    have gap : ('a'.val - 'A'.val).toNat = 32 := rfl
    omega
  · rfl

theorem toList_toLower (text : String) :
    text.toLower.toList = text.toList.map Char.toLower :=
  String.toList_map

@[simp] theorem toLower_toLower (text : String) : text.toLower.toLower = text.toLower := by
  apply String.toList_inj.1
  rw [toList_toLower, toList_toLower, List.map_map]
  exact List.map_congr_left fun c _ => char_toLower_toLower c

/-- Two texts that differ at most in the case of ASCII letters. -/
def SameIgnoringCase (first second : String) : Prop :=
  first.toLower = second.toLower

instance (first second : String) : Decidable (SameIgnoringCase first second) :=
  inferInstanceAs (Decidable (first.toLower = second.toLower))

theorem SameIgnoringCase.refl (text : String) : SameIgnoringCase text text := rfl

theorem SameIgnoringCase.symm {first second : String} (h : SameIgnoringCase first second) :
    SameIgnoringCase second first :=
  Eq.symm h

theorem SameIgnoringCase.trans {first second third : String}
    (h : SameIgnoringCase first second) (h' : SameIgnoringCase second third) :
    SameIgnoringCase first third :=
  Eq.trans h h'

end Asm65.Text
