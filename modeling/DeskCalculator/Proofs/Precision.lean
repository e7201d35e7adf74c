import DeskCalculator.Proofs.Binary64.Exact
import DeskCalculator.Proofs.Calculator
import DeskCalculator.Proofs.Expression
set_option autoImplicit false

/-!
# The precision of a result that is read back

Rounding to the shown places moves a double by no more than half of the last place, and reading the
shown number moves it by no more than that again. Where doubles lie farther apart than the shown
numbers, that is too little to come to another double: the one that was shown is read back.
-/

namespace DeskCalculator

namespace Binary64
open Rounding

section

variable {e r other n scale : ℕ}

theorem le_dist_steps_of_ne (large : 2 ^ (52 + e) < steps r) (ne : other ≠ r) :
    2 ^ e ≤ Nat.dist (steps other) (steps r) := by
  obtain ⟨k, grid⟩ := (dvd_steps_or_lt r e).resolve_right (Nat.lt_asymm large)
  have apart : ∀ l, l ≠ k → 2 ^ e ≤ Nat.dist (2 ^ e * l) (2 ^ e * k) := by
    intro l different
    rw [Nat.dist_mul_left]
    exact Nat.le_mul_of_pos_right _ (Nat.dist_pos_of_ne different)
  rcases dvd_steps_or_lt other e with ⟨l, otherGrid⟩ | below
  · rw [grid, otherGrid]
    apply apart
    rintro rfl
    exact ne (steps_strictMono.injective (otherGrid.trans grid.symm))
  · -- the power of two is on the grid, and between the two magnitudes
    have power : 2 ^ (52 + e) = 2 ^ e * 2 ^ 52 := by rw [Nat.add_comm, Nat.pow_add]
    have gap := apart (2 ^ 52) (by rintro rfl; omega)
    rw [← grid, ← power] at gap
    unfold Nat.dist at *
    omega

theorem dist_unboundedRank_le (some : 0 < scale) (nearest : IsNearest n (steps r * scale) unit) :
    Nat.dist (steps (unboundedRank (n * unit) scale)) (steps r) * scale ≤ unit := by
  have rounded := nearest.1
  have read := @le_dist_steps (n * unit) scale some r
  rw [Nat.dist_comm (steps r * scale)] at read
  have triangle := Nat.dist.triangle_inequality
    (steps (unboundedRank (n * unit) scale) * scale) (n * unit) (steps r * scale)
  rw [Nat.dist_mul_right] at triangle
  omega

/-- Where magnitudes are farther apart than the numbers they are rounded to, the one that was rounded
is read back. -/
theorem unboundedRank_of_large (some : 0 < scale) (coarse : unit < 2 ^ e * scale)
    (whole : unit ∣ 2 ^ (52 + e)) (large : 2 ^ (52 + e) ≤ steps r)
    (nearest : IsNearest n (steps r * scale) unit) : unboundedRank (n * unit) scale = r := by
  rcases Nat.eq_or_lt_of_le large with power | more
  · -- the spacing below the power of two is half of that above, but the power itself is shown whole
    rw [power] at whole
    rw [nearest.eq_of_dvd unit_pos (Nat.dvd_mul_right_of_dvd whole scale)]
    exact unboundedRank_steps r some
  · by_contra ne
    have apart := Nat.mul_le_mul_right scale (le_dist_steps_of_ne more ne)
    have close := dist_unboundedRank_le some nearest
    omega

end

end Binary64

namespace Decimal
open Binary64 Rounding

variable {x : Float}

theorem readRank_eq_unboundedRank (finite : isFinite x = true) : readRank x =
    unboundedRank (halfEven (steps (rank x) * 10 ^ shownPlaces) unit * unit) (10 ^ shownPlaces) := by
  have nearest := halfEven_isNearest (steps (rank x) * 10 ^ shownPlaces) unit_pos
  have bounded := unboundedRank_lt shownScale_pos (of_decide_eq_true finite) nearest
  rw [readRank_eq, nearestRank_eq_min, Nat.min_eq_left (Nat.le_of_lt bounded)]

theorem dist_readRank_le (finite : isFinite x = true) :
    Nat.dist (steps (readRank x)) (steps (rank x)) * 10 ^ shownPlaces ≤ unit := by
  rw [readRank_eq_unboundedRank finite]
  exact dist_unboundedRank_le shownScale_pos (halfEven_isNearest _ unit_pos)

theorem unit_lt_spacing : unit < 2 ^ 1041 * 10 ^ shownPlaces := by
  have exponent : 1074 = 1041 + 33 := by decide
  rw [unit_eq, exponent, Nat.pow_add]
  generalize 1041 = halvings
  exact Nat.mul_lt_mul_of_pos_left (by decide) (Nat.two_pow_pos _)

/-- From `2 ^ 19` on, half the spacing of the doubles is more than half of the last shown place. -/
theorem readRank_eq_rank (finite : isFinite x = true) (large : 2 ^ 19 * unit ≤ steps (rank x)) :
    readRank x = rank x := by
  have power : 2 ^ 19 * unit = 2 ^ (52 + 1041) := by
    have exponent : 52 + 1041 = 19 + 1074 := by decide
    rw [exponent, Nat.pow_add, unit_eq]
  have whole : unit ∣ 2 ^ (52 + 1041) := by
    rw [← power]
    exact Nat.dvd_mul_left _ _
  rw [power] at large
  rw [readRank_eq_unboundedRank finite]
  exact unboundedRank_of_large shownScale_pos unit_lt_spacing whole large
    (halfEven_isNearest _ unit_pos)

theorem readRank_of_coefficient (zero : (rounded x).coefficient = 0) : readRank x = 0 := by
  have some : 0 < 10 ^ (rounded x).places := Nat.pow_pos (by omega)
  have same := nearestRank_steps (Nat.zero_le infinityRank) some
  rw [steps_zero, Nat.zero_mul] at same
  rw [readRank, zero, Nat.zero_mul, same]

theorem exact_readBack (finite : isFinite x = true) :
    Binary64.exact (readBack x) = signed (isNegative x) (magnitude (readRank x)) := by
  rw [readBack, exact_ofRank _ (readRank_lt finite), showsSign]
  by_cases zero : (rounded x).coefficient = 0
  · rw [readRank_of_coefficient zero, magnitude_zero, signed_zero, signed_zero]
  · rw [bne_iff_ne.mpr zero, Bool.and_true]

theorem abs_exact_readBack_sub_le (finite : isFinite x = true) :
    |Binary64.exact (readBack x) - Binary64.exact x| ≤ 1 / 10 ^ shownPlaces := by
  have near := dist_readRank_le finite
  rw [exact_readBack finite, exact_eq finite, abs_signed_sub, abs_magnitude_sub,
    div_le_div_iff₀ cast_unit_pos (pow_pos (by norm_num) _), one_mul]
  exact_mod_cast near

theorem readBack_of_large (finite : isFinite x = true) (large : 2 ^ 19 ≤ |Binary64.exact x|) :
    readBack x = x := by
  have many : 2 ^ 19 * unit ≤ steps (rank x) := by
    rw [abs_exact finite] at large
    apply le_magnitude_iff.mp
    exact_mod_cast large
  have same := readRank_eq_rank finite many
  have some : (rounded x).coefficient ≠ 0 := by
    intro zero
    rw [readRank_of_coefficient zero] at same
    rw [← same, steps_zero] at many
    have positive := Nat.mul_pos (Nat.two_pow_pos 19) unit_pos
    omega
  rw [readBack, showsSign, bne_iff_ne.mpr some, Bool.and_true, same]
  exact ofRank_rank (Nat.le_of_lt (of_decide_eq_true finite))

end Decimal

namespace Calculator
open Binary64 Decimal

variable {x : Float}

/-- A finite result has a text that is shown and recalled. In either angle unit it is read as a
finite double no farther away than one in the last shown place, and as the result itself, bit for
bit, if this is no less than `2 ^ 19`. So it is when the display is evaluated that shows the result,
and when the result is recalled into an empty display and evaluated there. -/
theorem result_read_back (finite : isFinite x = true) : ∃ text w,
    Display.readable? x = some text ∧ Display.ofResult x = text ∧
    isFinite w = true ∧ (∀ angle, Expression.value angle text = .ok w) ∧
    |Binary64.exact w - Binary64.exact x| ≤ 1 / 10 ^ 10 ∧
    (2 ^ 19 ≤ |Binary64.exact x| → w.toBits = x.toBits) ∧
    ∀ c : Calculator, (c.display = text → c.evaluate.answer = some w) ∧
      (c.answer = some x → c.clear.recallAnswer.evaluate.answer = some w) := by
  have worked := Display.workOut_ofResult finite
  have evaluated : ∀ c : Calculator, c.display = Display.ofResult x →
      c.evaluate.answer = some (readBack x) := by
    intro c same
    have gives := worked c.angle
    rw [← Display.trim_ofResult finite, ← same] at gives
    rw [evaluate_of_gives gives]
  refine ⟨Display.ofResult x, readBack x, ?_, rfl, isFinite_readBack finite,
    fun angle => Expression.value_of_workOut (worked angle), abs_exact_readBack_sub_le finite,
    fun large => congrArg Float.toBits (readBack_of_large finite large),
    fun c => ⟨evaluated c, fun answer => evaluated _ (display_recallAnswer answer finite)⟩⟩
  rw [Display.ofResult_of_isFinite finite]
  exact Display.readable?_of_isFinite finite

theorem result_read_back_next : ∃ x w : Float, isFinite x = true ∧
    Display.readable? x = some "neg(524288.0000000001)" ∧ 2 ^ 19 ≤ |Binary64.exact x| ∧
    (∀ angle, Expression.value angle "neg(524288.0000000001)" = .ok w) ∧ w.toBits = x.toBits := by
  let x : Float := Float.ofBits 0xC120000000000001
  have finite : isFinite x = true := by decide +kernel
  have shown : Display.readable? x = some "neg(524288.0000000001)" := by decide +kernel
  have large : 2 ^ 19 ≤ |Binary64.exact x| := by
    have many : 2 ^ 19 * unit ≤ steps (rank x) := by decide +kernel
    rw [abs_exact finite]
    exact_mod_cast le_magnitude_iff.mpr many
  obtain ⟨text, w, readable, -, -, read, -, same, -⟩ := result_read_back finite
  obtain rfl := Option.some.inj (shown.symm.trans readable)
  exact ⟨x, w, finite, shown, large, read, same large⟩

end Calculator

end DeskCalculator
