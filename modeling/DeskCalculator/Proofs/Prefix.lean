import Mathlib
set_option autoImplicit false

namespace DeskCalculator

variable {α : Type} {p : α → Bool} {added : List α}

theorem takeWhile_append_stop (stop : added.takeWhile p = []) (list : List α) :
    (list ++ added).takeWhile p = list.takeWhile p := by
  rw [List.takeWhile_append, stop, List.append_nil]
  split
  · rename_i all
    exact ((List.takeWhile_sublist p).eq_of_length all).symm
  · rfl

theorem dropWhile_append_stop (stop : added.dropWhile p = added) (list : List α) :
    (list ++ added).dropWhile p = list.dropWhile p ++ added := by
  rw [List.dropWhile_append, stop]
  split
  · rename_i none
    rw [List.isEmpty_iff.mp none, List.nil_append]
  · rfl

section

variable {list : List α}

theorem takeWhile_append_all (all : ∀ a ∈ list, p a = true) (ends : added.head?.any p = false) :
    (list ++ added).takeWhile p = list := by
  rw [List.takeWhile_append_of_pos all]
  cases added with
  | nil => rw [List.takeWhile_nil, List.append_nil]
  | cons a added =>
    have stop : ¬ p a = true := Bool.eq_false_iff.mp ends
    rw [List.takeWhile_cons_of_neg stop, List.append_nil]

theorem dropWhile_append_all (all : ∀ a ∈ list, p a = true) (ends : added.head?.any p = false) :
    (list ++ added).dropWhile p = added := by
  rw [List.dropWhile_append_of_pos all]
  cases added with
  | nil => rfl
  | cons a added =>
    have stop : ¬ p a = true := Bool.eq_false_iff.mp ends
    exact List.dropWhile_cons_of_neg stop

end

end DeskCalculator
