import DeskCalculator.Binary64.Nearest
import DeskCalculator.Proofs.Binary64.Steps
import DeskCalculator.Proofs.Rounding
set_option autoImplicit false

/-!
# The nearest rank is nearest

No rank has a magnitude nearer to the quotient than the one that is found, if infinity is taken as
one more power of two. So a quotient that is a magnitude has the rank of that magnitude, one that is
greater or smaller has no rank on the other side of it, and what is found does not depend on how the
quotient is written.
-/

namespace DeskCalculator.Binary64
open Rounding

/-- The nearest rank, as if no magnitude were too great. -/
def unboundedRank (num den : Nat) : Nat :=
  spacingExponent num den * 2 ^ 52 + halfEven num (den * 2 ^ spacingExponent num den)

theorem nearestRank_eq_min (num den : Nat) :
    nearestRank num den = min (unboundedRank num den) infinityRank :=
  rfl

variable {num den : Nat}

theorem lt_of_spacingExponent (num den : Nat) : num / den < 2 ^ (53 + spacingExponent num den) := by
  by_cases zero : num / den = 0
  · rw [zero]
    exact Nat.two_pow_pos _
  · rw [← Nat.log2_lt zero, spacingExponent]
    omega

theorem le_of_spacingExponent (coarse : 0 < spacingExponent num den) :
    2 ^ (52 + spacingExponent num den) ≤ num / den := by
  by_cases zero : num / den = 0
  · rw [spacingExponent, zero] at coarse
    cases coarse
  · rw [← Nat.le_log2 zero]
    unfold spacingExponent at *
    omega

theorem inBlock_halfEven (num den : Nat) :
    InBlock (spacingExponent num den) (halfEven num (den * 2 ^ spacingExponent num den)) := by
  have low := div_le_halfEven num (den * 2 ^ spacingExponent num den)
  have high := halfEven_le num (den * 2 ^ spacingExponent num den)
  have below := lt_of_spacingExponent num den
  rw [← Nat.div_div_eq_div_mul] at low high
  rw [Nat.pow_add, Nat.mul_comm] at below
  have room := Nat.div_lt_of_lt_mul below
  refine ⟨?_, by omega⟩
  by_cases coarse : 0 < spacingExponent num den
  · have above := le_of_spacingExponent coarse
    rw [Nat.pow_add] at above
    have full := (Nat.le_div_iff_mul_le (Nat.two_pow_pos _)).mpr above
    exact .inr (Nat.le_trans full low)
  · exact .inl (Nat.eq_zero_of_not_pos coarse)

theorem steps_unboundedRank (num den : Nat) :
    steps (unboundedRank num den) =
      halfEven num (den * 2 ^ spacingExponent num den) * 2 ^ spacingExponent num den :=
  steps_block (inBlock_halfEven num den)

theorem le_dist_steps (some : 0 < den) (rank : Nat) :
    Nat.dist (steps (unboundedRank num den) * den) num ≤ Nat.dist (steps rank * den) num := by
  have nearest := halfEven_isNearest num
    (Nat.mul_pos some (Nat.two_pow_pos (spacingExponent num den)))
  have regroup : ∀ n, n * (den * 2 ^ spacingExponent num den) =
      n * 2 ^ spacingExponent num den * den := fun n => by
    rw [Nat.mul_assoc, Nat.mul_comm den]
  rw [steps_unboundedRank, ← regroup]
  by_cases grid : 2 ^ spacingExponent num den ∣ steps rank
  · obtain ⟨multiple, same⟩ := grid
    rw [same, Nat.mul_comm (2 ^ _) multiple, ← regroup]
    exact nearest.le_dist multiple
  · -- off the grid at the quotient, the magnitude lies below a power of two that is on the grid
    -- and not above the quotient
    have less := (dvd_steps_or_lt rank (spacingExponent num den)).resolve_left grid
    have coarse : 0 < spacingExponent num den := by
      apply Nat.pos_of_ne_zero
      intro fine
      rw [fine] at grid
      exact grid (Nat.one_dvd _)
    have power := (Nat.le_div_iff_mul_le some).mp (le_of_spacingExponent coarse)
    have below := Nat.mul_le_mul_right den (Nat.le_of_lt less)
    have nearer := nearest.le_dist (2 ^ 52)
    rw [regroup (2 ^ 52), ← Nat.pow_add] at nearer
    unfold Nat.dist at *
    omega

theorem unboundedRank_steps (rank : Nat) (some : 0 < den) :
    unboundedRank (steps rank * den) den = rank := by
  have nearest := @le_dist_steps (steps rank * den) den some rank
  rw [Nat.dist_self] at nearest
  have same := Nat.eq_of_dist_eq_zero (Nat.le_zero.mp nearest)
  exact steps_strictMono.injective (Nat.eq_of_mul_eq_mul_right some same)

theorem nearestRank_steps {rank : Nat} (number : rank ≤ infinityRank) (some : 0 < den) :
    nearestRank (steps rank * den) den = rank := by
  rw [nearestRank_eq_min, unboundedRank_steps rank some, Nat.min_eq_left number]

theorem nearestRank_le (num den : Nat) : nearestRank num den ≤ infinityRank :=
  Nat.min_le_right _ _

theorem nearestRank_mul_right {factor : Nat} (some : 0 < den) (more : 0 < factor) :
    nearestRank (num * factor) (den * factor) = nearestRank num den := by
  have exponent : spacingExponent (num * factor) (den * factor) = spacingExponent num den := by
    rw [spacingExponent, spacingExponent, Nat.mul_div_mul_right _ _ more]
  have regroup : den * factor * 2 ^ spacingExponent num den =
      den * 2 ^ spacingExponent num den * factor := Nat.mul_right_comm _ _ _
  rw [nearestRank_eq_min, nearestRank_eq_min, unboundedRank, unboundedRank, exponent, regroup,
    halfEven_mul_right (Nat.mul_pos some (Nat.two_pow_pos _)) more]

theorem le_nearestRank {rank : Nat} (number : rank ≤ infinityRank) (some : 0 < den)
    (above : steps rank * den ≤ num) : rank ≤ nearestRank num den := by
  have nearest := @le_dist_steps num den some rank
  rw [nearestRank_eq_min]
  refine Nat.le_min.mpr ⟨?_, number⟩
  by_contra less
  have lower := Nat.mul_lt_mul_of_pos_right (steps_strictMono (Nat.lt_of_not_le less)) some
  unfold Nat.dist at nearest
  omega

theorem nearestRank_le_of_le {rank : Nat} (some : 0 < den) (below : num ≤ steps rank * den) :
    nearestRank num den ≤ rank := by
  have nearest := @le_dist_steps num den some rank
  rw [nearestRank_eq_min]
  apply (Nat.min_le_left _ _).trans
  by_contra more
  have higher := Nat.mul_lt_mul_of_pos_right (steps_strictMono (Nat.lt_of_not_le more)) some
  unfold Nat.dist at nearest
  omega

def oneRank : Nat :=
  1023 * 2 ^ 52

theorem steps_oneRank : steps oneRank = unit := by
  have block : InBlock 1022 (2 ^ 52) := ⟨.inr (Nat.le_refl _), by decide⟩
  have split : oneRank = 1022 * 2 ^ 52 + 2 ^ 52 := by decide
  have exponent : 1074 = 52 + 1022 := by decide
  rw [split, steps_block block, unit_eq, exponent, Nat.pow_add]

theorem steps_before_one : steps (oneRank - 1) + 2 ^ 1021 = unit := by
  have last : oneRank - 1 = 1021 * 2 ^ 52 + (2 ^ 53 - 1) := by decide
  rw [last, steps_last_add]
  exact steps_oneRank

/-- A quotient below one by a whole part of a coarse enough scale is not rounded up to one. -/
theorem nearestRank_lt_of_one {a b scale : Nat} (some : 0 < scale) (coarse : scale ≤ 2 ^ 53)
    (below : a < scale) (above : scale ≤ b) :
    nearestRank (a * unit) scale < nearestRank (b * unit) scale := by
  have fits : oneRank ≤ infinityRank := by decide
  have high : oneRank ≤ nearestRank (b * unit) scale := by
    apply le_nearestRank fits some
    rw [steps_oneRank, Nat.mul_comm]
    exact Nat.mul_le_mul_right unit above
  have low : nearestRank (a * unit) scale ≤ oneRank - 1 := by
    apply nearestRank_le_of_le some
    have whole : unit * scale = steps (oneRank - 1) * scale + 2 ^ 1021 * scale := by
      rw [← Nat.add_mul, steps_before_one]
    have gap : 2 ^ 1021 * scale ≤ unit := by
      have exponent : 1074 = 1021 + 53 := by decide
      rw [unit_eq, exponent, Nat.pow_add]
      generalize 1021 = halvings
      exact Nat.mul_le_mul_left _ coarse
    have less := Nat.mul_le_mul_right unit (Nat.succ_le_of_lt below)
    rw [Nat.succ_mul, Nat.mul_comm scale] at less
    omega
  have positive : 0 < oneRank := by decide
  omega

end DeskCalculator.Binary64
