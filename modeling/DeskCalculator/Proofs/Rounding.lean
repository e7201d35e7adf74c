import DeskCalculator.Rounding
import Mathlib
set_option autoImplicit false

namespace DeskCalculator.Rounding

/-- Whether `n` is no more than a half away from `num / den`, and even if it is as much. -/
def IsNearest (n num den : Nat) : Prop :=
  2 * Nat.dist (n * den) num ≤ den ∧ (2 * Nat.dist (n * den) num = den → n % 2 = 0)

variable {num den n : Nat}

theorem div_le_halfEven (num den : Nat) : num / den ≤ halfEven num den := by
  unfold halfEven
  split <;> omega

theorem halfEven_le (num den : Nat) : halfEven num den ≤ num / den + 1 := by
  unfold halfEven
  split <;> omega

theorem halfEven_isNearest (num : Nat) (some : 0 < den) :
    IsNearest (halfEven num den) num den := by
  have split := Nat.div_add_mod' num den
  have rest := Nat.mod_lt num some
  unfold IsNearest halfEven Nat.dist
  split_ifs with up
  · rw [Nat.add_mul, Nat.one_mul]
    omega
  · omega

theorem IsNearest.le {m : Nat} (some : 0 < den) (hm : IsNearest m num den)
    (hn : IsNearest n num den) : n ≤ m := by
  obtain ⟨closeM, evenM⟩ := hm
  obtain ⟨closeN, evenN⟩ := hn
  unfold Nat.dist at *
  by_contra more
  obtain rfl | beyond : n = m + 1 ∨ m + 2 ≤ n := by omega
  · -- both are just a half away, and only one of two neighbours is even
    rw [Nat.succ_mul m den] at closeN evenN
    have first := evenM (by omega)
    have second := evenN (by omega)
    omega
  · have apart := Nat.mul_le_mul_right den beyond
    rw [Nat.add_mul] at apart
    omega

theorem halfEven_eq (some : 0 < den) (nearest : IsNearest n num den) : halfEven num den = n :=
  have halved := halfEven_isNearest num some
  Nat.le_antisymm (nearest.le some halved) (halved.le some nearest)

theorem IsNearest.le_dist (nearest : IsNearest n num den) (other : Nat) :
    Nat.dist (n * den) num ≤ Nat.dist (other * den) num := by
  have close := nearest.1
  unfold Nat.dist at *
  rcases Nat.lt_trichotomy other n with less | rfl | more
  · have apart := Nat.mul_le_mul_right den less
    rw [Nat.succ_mul] at apart
    omega
  · exact Nat.le_refl _
  · have apart := Nat.mul_le_mul_right den more
    rw [Nat.succ_mul] at apart
    omega

/-- A whole number is rounded to itself. -/
theorem IsNearest.eq_of_dvd (some : 0 < den) (whole : den ∣ num)
    (nearest : IsNearest n num den) : n * den = num := by
  obtain ⟨k, rfl⟩ := whole
  have close := nearest.1
  rw [Nat.mul_comm den, Nat.dist_mul_right] at close
  have none : Nat.dist n k = 0 := by
    by_contra apart
    have step := Nat.le_mul_of_pos_left den (Nat.pos_of_ne_zero apart)
    omega
  rw [Nat.eq_of_dist_eq_zero none, Nat.mul_comm]

theorem halfEven_mul_right {factor : Nat} (some : 0 < den) (more : 0 < factor) :
    halfEven (num * factor) (den * factor) = halfEven num den := by
  obtain ⟨close, even⟩ := halfEven_isNearest num some
  apply halfEven_eq (Nat.mul_pos some more)
  have scaled : Nat.dist (halfEven num den * (den * factor)) (num * factor) =
      Nat.dist (halfEven num den * den) num * factor := by
    rw [← Nat.mul_assoc, Nat.dist_mul_right]
  rw [IsNearest, scaled, ← Nat.mul_assoc]
  exact ⟨Nat.mul_le_mul_right factor close, fun tie => even (Nat.eq_of_mul_eq_mul_right more tie)⟩

end DeskCalculator.Rounding
