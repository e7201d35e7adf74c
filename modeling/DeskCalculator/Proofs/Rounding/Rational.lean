import DeskCalculator.Proofs.Rounding
set_option autoImplicit false

namespace DeskCalculator.Rounding

/-- The integer nearest to `q`, the even one of two that are equally near. -/
def nearestInteger (q : ℚ) : ℤ :=
  if Int.fract q < 1 / 2 ∨ (Int.fract q = 1 / 2 ∧ Even ⌊q⌋) then ⌊q⌋ else ⌊q⌋ + 1

/-- The number with this many decimal places that is nearest to `q`, the one with an even last digit
of two that are equally near. -/
def toPlaces (places : ℕ) (q : ℚ) : ℚ :=
  nearestInteger (q * 10 ^ places) / 10 ^ places

variable {q : ℚ} {n : ℤ}

theorem abs_nearestInteger_sub_le (q : ℚ) : |nearestInteger q - q| ≤ 1 / 2 := by
  have split := Int.floor_add_fract q
  have low := Int.fract_nonneg q
  have high := Int.fract_lt_one q
  rw [nearestInteger, abs_le]
  split_ifs with down
  · have half : Int.fract q ≤ 1 / 2 := down.elim le_of_lt fun tie => le_of_eq tie.1
    constructor <;> linarith
  · have half : 1 / 2 ≤ Int.fract q := le_of_not_gt (not_or.mp down).1
    push_cast
    constructor <;> linarith

theorem even_nearestInteger (tie : |nearestInteger q - q| = 1 / 2) : Even (nearestInteger q) := by
  have split := Int.floor_add_fract q
  have low := Int.fract_nonneg q
  have high := Int.fract_lt_one q
  rw [nearestInteger] at tie ⊢
  split_ifs at tie ⊢ with down
  · have distance : |(⌊q⌋ : ℚ) - q| = Int.fract q := by
      rw [abs_sub_comm, abs_of_nonneg (sub_nonneg.mpr (Int.floor_le q)), Int.self_sub_floor]
    rw [distance] at tie
    exact (down.resolve_left (not_lt_of_ge (ge_of_eq tie))).2
  · push_cast at tie
    rw [abs_of_nonneg (by linarith)] at tie
    have half : Int.fract q = 1 / 2 := by linarith
    have odd : ¬ Even ⌊q⌋ := fun even => down (.inr ⟨half, even⟩)
    exact Int.even_add_one.mpr odd

theorem nearestInteger_eq (close : |n - q| ≤ 1 / 2) (even : |n - q| = 1 / 2 → Even n) :
    nearestInteger q = n := by
  have near := abs_nearestInteger_sub_le q
  have evenNearest := @even_nearestInteger q
  by_contra other
  generalize nearestInteger q = m at near evenNearest other
  have apart : (1 : ℚ) ≤ |(m : ℚ) - n| := by
    exact_mod_cast Int.one_le_abs (sub_ne_zero.mpr other)
  have triangle := abs_sub_le (m : ℚ) q n
  rw [abs_sub_comm q n] at triangle
  -- two different ones are each just a half away, so they are neighbours and not both even
  have first := evenNearest (by linarith)
  have second := even (by linarith)
  have neighbours : |m - n| = 1 := by
    have distance : |(m : ℚ) - n| = 1 := by linarith
    exact_mod_cast distance
  obtain ⟨k, rfl⟩ := first
  obtain ⟨l, rfl⟩ := second
  rcases (abs_eq zero_le_one).mp neighbours with one | one <;> omega

theorem nearestInteger_neg (q : ℚ) : nearestInteger (-q) = -nearestInteger q := by
  have distance : |((-nearestInteger q : ℤ) : ℚ) - -q| = |nearestInteger q - q| := by
    rw [Int.cast_neg, ← neg_sub', abs_neg]
  apply nearestInteger_eq
  · rw [distance]
    exact abs_nearestInteger_sub_le q
  · intro tie
    rw [distance] at tie
    exact (even_nearestInteger tie).neg

theorem cast_dist (a b : ℕ) : (Nat.dist a b : ℚ) = |(a : ℚ) - b| := by
  rcases Nat.le_total a b with le | le
  · rw [Nat.dist_eq_sub_of_le le, Nat.cast_sub le, abs_sub_comm,
      abs_of_nonneg (sub_nonneg.mpr (Nat.cast_le.mpr le))]
  · rw [Nat.dist_eq_sub_of_le_right le, Nat.cast_sub le,
      abs_of_nonneg (sub_nonneg.mpr (Nat.cast_le.mpr le))]

theorem nearestInteger_div (num : ℕ) {den : ℕ} (some : 0 < den) :
    nearestInteger (num / den) = halfEven num den := by
  obtain ⟨close, even⟩ := halfEven_isNearest num some
  have positive : (0 : ℚ) < den := Nat.cast_pos.mpr some
  have distance : |((halfEven num den : ℤ) : ℚ) - num / den| =
      Nat.dist (halfEven num den * den) num / den := by
    rw [cast_dist, Nat.cast_mul, Int.cast_natCast, ← abs_of_pos positive, ← abs_div,
      abs_of_pos positive, sub_div, mul_div_cancel_right₀ _ (ne_of_gt positive)]
  apply nearestInteger_eq
  · rw [distance, div_le_div_iff₀ positive two_pos, mul_comm, one_mul]
    exact_mod_cast close
  · intro tie
    rw [distance, div_eq_div_iff (ne_of_gt positive) two_ne_zero, mul_comm, one_mul] at tie
    have same := even (by exact_mod_cast tie)
    rw [Int.even_coe_nat, Nat.even_iff]
    exact same

theorem toPlaces_eq_iff {places : ℕ} {r : ℚ} : toPlaces places q = toPlaces places r ↔
    nearestInteger (q * 10 ^ places) = nearestInteger (r * 10 ^ places) := by
  have some : (10 : ℚ) ^ places ≠ 0 := pow_ne_zero places (by norm_num)
  rw [toPlaces, toPlaces, div_left_inj' some, Int.cast_inj]

example : toPlaces 1 (1 / 4) = 1 / 5 := by norm_num [toPlaces, nearestInteger]

end DeskCalculator.Rounding
