import DeskCalculator.Text.Blank
import Mathlib
set_option autoImplicit false

namespace DeskCalculator.Text

theorem isBlank_eq_false {c : Char} (low : 33 ≤ c.toNat) (high : c.toNat ≤ 126) :
    isBlank c = false := by
  simp [isBlank, blankRanges]
  omega

theorem isBlank_of_isDigit {c : Char} (digit : c.isDigit = true) : isBlank c = false := by
  obtain ⟨low, high⟩ := Char.isDigit_iff_toNat.mp digit
  exact isBlank_eq_false (Nat.le_trans (by decide) low) (Nat.le_trans high (by decide))

theorem dropWhile_isBlank {cs : List Char} (visible : ∀ c ∈ cs, isBlank c = false) :
    cs.dropWhile isBlank = cs := by
  cases cs with
  | nil => rfl
  | cons c cs => exact List.dropWhile_cons_of_neg (by simp [visible c List.mem_cons_self])

theorem trim_eq_self {s : String} (visible : ∀ c ∈ s.toList, isBlank c = false) : trim s = s := by
  have reversed : ∀ c ∈ s.toList.reverse, isBlank c = false :=
    fun c mem => visible c (List.mem_reverse.mp mem)
  rw [trim, dropWhile_isBlank visible, trimEnd, dropWhile_isBlank reversed, List.reverse_reverse,
    String.ofList_toList]

theorem exists_blanks (cs : List Char) : ∃ before after,
    cs = before ++ trimEnd (cs.dropWhile isBlank) ++ after ∧
      (∀ c ∈ before, isBlank c = true) ∧ ∀ c ∈ after, isBlank c = true := by
  have blank : ∀ (list : List Char), ∀ c ∈ list.takeWhile isBlank, isBlank c = true :=
    fun _ => List.all_eq_true.mp List.all_takeWhile
  let text := cs.dropWhile isBlank
  refine ⟨cs.takeWhile isBlank, (text.reverse.takeWhile isBlank).reverse, ?_, blank cs, ?_⟩
  · have ends : trimEnd text ++ (text.reverse.takeWhile isBlank).reverse = text := by
      rw [trimEnd, ← List.reverse_append, List.takeWhile_append_dropWhile, List.reverse_reverse]
    rw [List.append_assoc, ends, List.takeWhile_append_dropWhile]
  · intro c mem
    exact blank _ c (List.mem_reverse.mp mem)

theorem trim_ne_empty {s : String} {c : Char} (mem : c ∈ s.toList) (visible : isBlank c = false) :
    trim s ≠ "" := by
  intro empty
  obtain ⟨before, after, split, blankBefore, blankAfter⟩ := exists_blanks s.toList
  have none : trimEnd (s.toList.dropWhile isBlank) = [] := by
    have same := congrArg String.toList empty
    rwa [trim, String.toList_ofList] at same
  rw [none, List.append_nil] at split
  rw [split] at mem
  have blank := (List.mem_append.mp mem).elim (blankBefore c) (blankAfter c)
  cases visible.symm.trans blank

end DeskCalculator.Text
