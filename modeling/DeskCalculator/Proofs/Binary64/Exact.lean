import DeskCalculator.Proofs.Binary64.Bits
import DeskCalculator.Proofs.Binary64.Steps
import DeskCalculator.Proofs.Rounding.Rational
set_option autoImplicit false

namespace DeskCalculator.Binary64
open Float.Model Float.Model.UnpackedFloat

/-- The rational number that a double stands for. Infinity and what is not a number have none; zero
is put in their place. -/
def unpackedValue : UnpackedFloat → ℚ
  | .finite sign significand exponent _ => sign.apply significand * 2 ^ exponent
  | .zero _ | .infinity _ | .notANumber => 0

def exact (x : Float) : ℚ :=
  unpackedValue x.toModel.unpack

/-- The rational number of rank `rank`. -/
def magnitude (rank : ℕ) : ℚ :=
  steps rank / unit

def signed (negative : Bool) (q : ℚ) : ℚ :=
  if negative then -q else q

section

variable {x : Float} {r : ℕ}

theorem cast_unit : (unit : ℚ) = 2 ^ 1074 := by
  rw [unit_eq]
  generalize 1074 = halvings
  rw [Nat.cast_pow, Nat.cast_ofNat]

theorem cast_unit_pos : (0 : ℚ) < unit :=
  Nat.cast_pos.mpr unit_pos

theorem magnitude_nonneg (r : ℕ) : 0 ≤ magnitude r :=
  div_nonneg (Nat.cast_nonneg _) (le_of_lt cast_unit_pos)

theorem magnitude_zero : magnitude 0 = 0 := by
  rw [magnitude, steps_zero, Nat.cast_zero, zero_div]

theorem magnitude_eq_zero_iff : magnitude r = 0 ↔ r = 0 := by
  constructor
  · intro zero
    rw [magnitude, div_eq_zero_iff, Nat.cast_eq_zero] at zero
    have none := zero.resolve_right (ne_of_gt cast_unit_pos)
    exact steps_strictMono.injective (none.trans steps_zero.symm)
  · rintro rfl
    exact magnitude_zero

theorem le_magnitude_iff {k : ℕ} : k ≤ magnitude r ↔ k * unit ≤ steps r := by
  rw [magnitude, le_div_iff₀ cast_unit_pos, ← Nat.cast_mul, Nat.cast_le]

theorem abs_magnitude_sub (r other : ℕ) :
    |magnitude r - magnitude other| = Nat.dist (steps r) (steps other) / unit := by
  rw [magnitude, magnitude, ← sub_div, abs_div, abs_of_pos cast_unit_pos, Rounding.cast_dist]

theorem magnitude_of_subnormal (small : r < 2 ^ 52) : magnitude r = r * 2 ^ (-1074 : ℤ) := by
  rw [magnitude, steps_eq, if_pos small, cast_unit, zpow_neg, div_eq_mul_inv]
  norm_cast

theorem magnitude_of_normal (large : 2 ^ 52 ≤ r) : magnitude r =
    ((2 ^ 52 + r % 2 ^ 52 : ℕ) : ℚ) * 2 ^ (((r / 2 ^ 52 : ℕ) : ℤ) - 1075) := by
  have exponent : ((r / 2 ^ 52 : ℕ) : ℤ) - 1075 = ((r / 2 ^ 52 - 1 : ℕ) : ℤ) - (1074 : ℕ) := by omega
  rw [magnitude, steps_eq, if_neg (Nat.not_lt.mpr large), cast_unit, exponent, zpow_sub₀ two_ne_zero,
    zpow_natCast, zpow_natCast, Nat.cast_mul, Nat.cast_pow, Nat.cast_ofNat, mul_div_assoc]

theorem signed_apply (negative : Bool) (significand : ℕ) (q : ℚ) :
    ((sign negative).apply significand : ℚ) * q = signed negative (significand * q) := by
  cases negative with
  | false => rfl
  | true =>
    change (-(significand : ℤ) : ℤ) * q = -(significand * q)
    push_cast
    ring

theorem signed_zero (negative : Bool) : signed negative 0 = 0 := by
  cases negative with
  | false => rfl
  | true => exact neg_zero

theorem signed_mul (negative : Bool) (q factor : ℚ) :
    signed negative q * factor = signed negative (q * factor) := by
  cases negative with
  | false => rfl
  | true => exact neg_mul q factor

theorem nearestInteger_signed (negative : Bool) (q : ℚ) :
    Rounding.nearestInteger (signed negative q) =
      if negative then -Rounding.nearestInteger q else Rounding.nearestInteger q := by
  cases negative with
  | false => rfl
  | true => exact Rounding.nearestInteger_neg q

theorem abs_signed (negative : Bool) {q : ℚ} (positive : 0 ≤ q) : |signed negative q| = q := by
  cases negative with
  | false => exact abs_of_nonneg positive
  | true => exact (abs_neg q).trans (abs_of_nonneg positive)

theorem abs_signed_sub (negative : Bool) (p q : ℚ) :
    |signed negative p - signed negative q| = |p - q| := by
  cases negative with
  | false => rfl
  | true =>
    change |-p - -q| = |p - q|
    rw [neg_sub_neg, abs_sub_comm]

theorem toModel_unpack (x : Float) : x.toModel.unpack =
    decoded (sign (isNegative x)) (BitVec.ofNat 11 (rank x / 2 ^ 52)) (BitVec.ofNat 52 (rank x)) := by
  change UnpackedFloat.unpack .binary64 x.toBits.toBitVec = _
  rw [← word_rank, word, unpack_packComponents]

theorem exponent_ne_greatest (bound : r < infinityRank) :
    BitVec.ofNat 11 (r / 2 ^ 52) ≠ -1#_ := by
  intro greatest
  have field : (BitVec.ofNat 11 (r / 2 ^ 52)).toNat = 2047 := congrArg BitVec.toNat greatest
  rw [BitVec.toNat_ofNat] at field
  rw [infinityRank_eq] at bound
  omega

theorem unpackedValue_decoded (negative : Bool) (bound : r < infinityRank) :
    unpackedValue (decoded (sign negative) (BitVec.ofNat 11 (r / 2 ^ 52)) (BitVec.ofNat 52 r)) =
      signed negative (magnitude r) := by
  have exponent : (BitVec.ofNat 11 (r / 2 ^ 52)).toNat = r / 2 ^ 52 := by
    rw [infinityRank_eq] at bound
    rw [BitVec.toNat_ofNat]
    omega
  have mantissa : (BitVec.ofNat 52 r).toNat = r % 2 ^ 52 := BitVec.toNat_ofNat _ _
  rw [decoded, if_neg (exponent_ne_greatest bound)]
  split
  · rename_i least
    have field : (BitVec.ofNat 11 (r / 2 ^ 52)).toNat = 0 := congrArg BitVec.toNat least
    have small : r < 2 ^ 52 := by omega
    split
    · rename_i zero
      have none : (BitVec.ofNat 52 r).toNat = 0 := congrArg BitVec.toNat zero
      obtain rfl : r = 0 := by omega
      rw [magnitude_zero, signed_zero]
      rfl
    · rw [unpackedValue, mantissa, Nat.mod_eq_of_lt small, signed_apply,
        magnitude_of_subnormal small]
  · rename_i more
    have large : 2 ^ 52 ≤ r := by
      by_contra small
      have none : r / 2 ^ 52 = 0 := by omega
      rw [none] at more
      exact more rfl
    rw [unpackedValue, toNat_one_append, mantissa, exponent, signed_apply,
      magnitude_of_normal large]

theorem exact_eq (finite : isFinite x = true) :
    exact x = signed (isNegative x) (magnitude (rank x)) := by
  rw [exact, toModel_unpack, unpackedValue_decoded _ (of_decide_eq_true finite)]

theorem exact_ofRank (negative : Bool) (bound : r < infinityRank) :
    exact (ofRank negative r) = signed negative (magnitude r) := by
  have fits := Nat.le_of_lt bound
  have finite : isFinite (ofRank negative r) = true := by
    rw [isFinite_ofRank negative fits]
    exact decide_eq_true bound
  rw [exact_eq finite, isNegative_ofRank negative fits, rank_ofRank negative fits]

theorem abs_exact (finite : isFinite x = true) : |exact x| = magnitude (rank x) := by
  rw [exact_eq finite, abs_signed _ (magnitude_nonneg _)]

theorem zero_le_finite_iff (sign : Sign) {m : ℕ} (exponent : ℤ) (some : 0 < m) :
    (UnpackedFloat.zero .positive).le (.finite sign m exponent some) = true ↔
      0 ≤ unpackedValue (.finite sign m exponent some) := by
  have positive : (0 : ℚ) < m * 2 ^ exponent :=
    mul_pos (Nat.cast_pos.mpr some) (zpow_pos two_pos exponent)
  cases sign with
  | positive => exact iff_of_true rfl (le_of_lt positive)
  | negative =>
    have below : unpackedValue (.finite .negative m exponent some) = -(m * 2 ^ exponent) :=
      signed_apply true m _
    rw [below]
    exact iff_of_false nofun (not_le.mpr (neg_neg_of_pos positive))

theorem zero_le_decoded_iff (sign : Sign) {exponent : BitVec 11} (mantissa : BitVec 52)
    (finite : exponent ≠ -1#_) :
    (UnpackedFloat.zero .positive).le (decoded sign exponent mantissa) = true ↔
      0 ≤ unpackedValue (decoded sign exponent mantissa) := by
  rw [decoded, if_neg finite]
  split
  · split
    · exact iff_of_true rfl (le_refl 0)
    · exact zero_le_finite_iff sign _ _
  · exact zero_le_finite_iff sign _ _

/-- A finite double is compared with zero as its exact value is. -/
theorem zero_le_iff (finite : isFinite x = true) : 0.0 ≤ x ↔ 0 ≤ exact x := by
  have zero : (0.0 : Float).toModel.unpack = .zero .positive := by rfl
  change decide ((0.0 : Float).toModel.unpack.le x.toModel.unpack = true) = true ↔ _
  rw [zero, decide_eq_true_iff, exact, toModel_unpack]
  exact zero_le_decoded_iff _ _ (exponent_ne_greatest (of_decide_eq_true finite))

end

end DeskCalculator.Binary64
