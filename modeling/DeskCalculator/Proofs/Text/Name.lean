import DeskCalculator.Text.Name
import Mathlib
set_option autoImplicit false

namespace DeskCalculator.Text

theorem isNameStart_iff {c : Char} : isNameStart c = true ↔
    65 ≤ c.toNat ∧ c.toNat ≤ 90 ∨ 97 ≤ c.toNat ∧ c.toNat ≤ 122 ∨ c.toNat = 95 := by
  have underscore : c = '_' ↔ c.toNat = 95 := Char.toNat_inj.symm
  simp [isNameStart, Char.isAlpha, Char.isUpper, Char.isLower, UInt32.le_iff_toNat_le, underscore]
  omega

theorem isNameChar_iff {c : Char} :
    isNameChar c = true ↔ isNameStart c = true ∨ 48 ≤ c.toNat ∧ c.toNat ≤ 57 := by
  have digit : c.isDigit = true ↔ 48 ≤ c.toNat ∧ c.toNat ≤ 57 := Char.isDigit_iff_toNat
  rw [← digit, isNameChar, isNameStart, Char.isAlphanum]
  cases c.isAlpha <;> cases c.isDigit <;> simp

theorem toNat_toLower (c : Char) :
    c.toLower.toNat = if 65 ≤ c.toNat ∧ c.toNat ≤ 90 then c.toNat + 32 else c.toNat := by
  have capital : c.val ≥ 'A'.val ∧ c.val ≤ 'Z'.val ↔ 65 ≤ c.toNat ∧ c.toNat ≤ 90 := by
    simp only [ge_iff_le, UInt32.le_iff_toNat_le]
    rfl
  unfold Char.toLower
  by_cases large : 65 ≤ c.toNat ∧ c.toNat ≤ 90
  · rw [dif_pos (capital.mpr large), if_pos large]
    change (c.val + ('a'.val - 'A'.val)).toNat = c.toNat + 32
    rw [UInt32.toNat_add]
    change (c.toNat + 32) % 2 ^ 32 = _
    omega
  · rw [dif_neg (mt capital.mp large), if_neg large]

theorem toLower_toLower (c : Char) : c.toLower.toLower = c.toLower := by
  apply Char.toNat_inj.mp
  have once := toNat_toLower c
  rw [toNat_toLower c.toLower]
  split at once <;> split <;> omega

theorem isNameStart_toLower (c : Char) : isNameStart c.toLower = isNameStart c := by
  rw [Bool.eq_iff_iff, isNameStart_iff, isNameStart_iff, toNat_toLower]
  split <;> omega

theorem isNameChar_toLower (c : Char) : isNameChar c.toLower = isNameChar c := by
  rw [Bool.eq_iff_iff, isNameChar_iff, isNameChar_iff, isNameStart_toLower, isNameStart_iff,
    toNat_toLower]
  split <;> omega

theorem foldCase_foldCase (s : String) : foldCase (foldCase s) = foldCase s := by
  have twice : Char.toLower ∘ Char.toLower = Char.toLower := funext toLower_toLower
  rw [foldCase, foldCase, String.toList_ofList, List.map_map, twice]

end DeskCalculator.Text
