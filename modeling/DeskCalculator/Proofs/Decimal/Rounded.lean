import DeskCalculator.Decimal.Rounded
import DeskCalculator.Proofs.Binary64.Bits
import DeskCalculator.Proofs.Binary64.Nearest
import DeskCalculator.Proofs.Decimal.Literal
set_option autoImplicit false

/-!
# Shown numbers are read back as they are shown

The double that a shown number is read as is no farther from it than the double it was rounded from,
for that double is one of those among which the nearest is taken. So it is rounded to the same shown
number. This is as true where the doubles lie closer together than the shown numbers as where they
lie farther apart. The text of a shown number tells zero from the others, and the magnitude of a
double has the text of the double without its sign.
-/

namespace DeskCalculator.Decimal
open Binary64 Rounding

theorem rounded_eq (x : Float) :
    rounded x = reduce shownPlaces (halfEven (steps (rank x) * 10 ^ shownPlaces) unit) :=
  rfl

theorem nearestRank_reduce (places n : Nat) :
    nearestRank ((reduce places n).coefficient * unit) (10 ^ (reduce places n).places) =
      nearestRank (n * unit) (10 ^ places) := by
  induction places generalizing n with
  | zero => rfl
  | succ places ih =>
    rw [reduce]
    split
    · rename_i multiple
      have tenfold : n * unit = n / 10 * unit * 10 := by
        rw [Nat.mul_right_comm, Nat.div_mul_cancel (Nat.dvd_of_mod_eq_zero multiple)]
      rw [ih, tenfold, Nat.pow_succ,
        nearestRank_mul_right (Nat.pow_pos (by omega)) (by omega)]
    · rfl

section

variable {r n scale : Nat}

theorem isNearest_unboundedRank (some : 0 < scale)
    (nearest : IsNearest n (steps r * scale) unit) :
    IsNearest n (steps (unboundedRank (n * unit) scale) * scale) unit := by
  obtain ⟨close, even⟩ := nearest
  -- the magnitude that was rounded is one of those among which the nearest is taken
  have nearer := @le_dist_steps (n * unit) scale some r
  rw [Nat.dist_comm, Nat.dist_comm (steps r * scale)] at nearer
  exact ⟨by omega, fun tie => even (by omega)⟩

theorem unboundedRank_lt (some : 0 < scale) (finite : r < infinityRank)
    (nearest : IsNearest n (steps r * scale) unit) :
    unboundedRank (n * unit) scale < infinityRank := by
  have first := nearest.1
  have second := (isNearest_unboundedRank some nearest).1
  have near : steps (unboundedRank (n * unit) scale) * scale ≤ steps r * scale + unit := by
    unfold Nat.dist at first second
    omega
  apply lt_infinityRank finite
  by_contra far
  have farther := Nat.mul_le_mul_right scale (Nat.succ_le_of_lt (Nat.lt_of_not_le far))
  have whole := Nat.le_mul_of_pos_right unit some
  rw [Nat.succ_mul, Nat.add_mul] at farther
  omega

theorem halfEven_nearestRank (some : 0 < scale) (finite : r < infinityRank) :
    let n := halfEven (steps r * scale) unit
    nearestRank (n * unit) scale < infinityRank ∧
      halfEven (steps (nearestRank (n * unit) scale) * scale) unit = n := by
  intro n
  have nearest := halfEven_isNearest (steps r * scale) unit_pos
  have bounded := unboundedRank_lt some finite nearest
  rw [nearestRank_eq_min, Nat.min_eq_left (Nat.le_of_lt bounded)]
  exact ⟨bounded, halfEven_eq unit_pos (isNearest_unboundedRank some nearest)⟩

end

section

variable {x : Float}

def readRank (x : Float) : Nat :=
  nearestRank ((rounded x).coefficient * unit) (10 ^ (rounded x).places)

/-- The double that the shown number is read as, with the shown sign. -/
def readBack (x : Float) : Float :=
  ofRank (showsSign x) (readRank x)

theorem toFloat_rounded (x : Float) : (rounded x).toFloat = ofRank false (readRank x) :=
  toFloat_eq _

theorem shownScale_pos : 0 < 10 ^ shownPlaces :=
  Nat.pow_pos (by omega)

theorem readRank_eq (x : Float) : readRank x =
    nearestRank (halfEven (steps (rank x) * 10 ^ shownPlaces) unit * unit) (10 ^ shownPlaces) := by
  rw [readRank, rounded_eq, nearestRank_reduce]

theorem readRank_lt (finite : isFinite x = true) : readRank x < infinityRank := by
  rw [readRank_eq]
  exact (halfEven_nearestRank shownScale_pos (of_decide_eq_true finite)).1

theorem rank_readBack (finite : isFinite x = true) : rank (readBack x) = readRank x :=
  rank_ofRank _ (Nat.le_of_lt (readRank_lt finite))

theorem isFinite_readBack (finite : isFinite x = true) : isFinite (readBack x) = true := by
  rw [isFinite, rank_readBack finite]
  exact decide_eq_true (readRank_lt finite)

/-- A shown number is read as a double that is shown as the same number. -/
theorem rounded_readBack (finite : isFinite x = true) : rounded (readBack x) = rounded x := by
  have same := (halfEven_nearestRank shownScale_pos (of_decide_eq_true finite)).2
  rw [rounded_eq, rank_readBack finite, readRank_eq, same, rounded_eq]

theorem showsSign_readBack (finite : isFinite x = true) :
    showsSign (readBack x) = showsSign x := by
  have sign : isNegative (readBack x) = showsSign x :=
    isNegative_ofRank _ (Nat.le_of_lt (readRank_lt finite))
  rw [showsSign, sign, rounded_readBack finite, showsSign, Bool.and_assoc, Bool.and_self]

end

theorem places_reduce_le (places n : Nat) : (reduce places n).places ≤ places := by
  induction places generalizing n with
  | zero => exact Nat.le_refl 0
  | succ places ih =>
    rw [reduce]
    split
    · exact Nat.le_succ_of_le (ih (n / 10))
    · exact Nat.le_refl _

theorem reduce_zero (places : Nat) : reduce places 0 = ⟨0, 0⟩ := by
  induction places with
  | zero => rfl
  | succ places ih =>
    rw [reduce, if_pos rfl]
    exact ih

theorem eq_zero_of_reduce {places n : Nat} (zero : (reduce places n).coefficient = 0) : n = 0 := by
  induction places generalizing n with
  | zero => exact zero
  | succ places ih =>
    rw [reduce] at zero
    split at zero
    · have tenth := ih zero
      omega
    · exact zero

theorem coefficient_eq_zero_of_text {d : Decimal} (h : d.text = ['0']) : d.coefficient = 0 := by
  have whole : d.literal.fraction = [] := by
    by_contra some
    have point : '.' ∈ d.text := by
      rw [text, Literal.text, if_neg (by simpa using some)]
      exact List.mem_append_right _ List.mem_cons_self
    rw [h] at point
    cases List.mem_singleton.mp point
  have digits : d.literal.whole = ['0'] := by
    rwa [text, Literal.text, whole, List.isEmpty_nil, if_pos rfl] at h
  rw [← decimal_literal d, Literal.decimal, whole, digits]
  rfl

theorem text_rounded_eq_zero_iff {x : Float} :
    (rounded x).text = ['0'] ↔ (rounded x).coefficient = 0 := by
  constructor
  · exact coefficient_eq_zero_of_text
  · intro zero
    rw [rounded_eq] at zero ⊢
    rw [eq_zero_of_reduce zero, reduce_zero]
    rfl

theorem coefficient_rounded_of_rank {x : Float} (zero : rank x = 0) :
    (rounded x).coefficient = 0 := by
  have none : halfEven (steps 0 * 10 ^ shownPlaces) unit = 0 := by
    rw [steps_zero, Nat.zero_mul, halfEven, Nat.zero_div, Nat.zero_mod]
    decide +kernel
  rw [rounded_eq, zero, none, reduce_zero]

theorem roundedText_of_isFinite {x : Float} (finite : isFinite x = true) : roundedText x =
    String.ofList (if showsSign x then '-' :: (rounded x).text else (rounded x).text) := by
  simp only [roundedText, isNaN_of_isFinite finite, finite, Bool.false_eq_true, if_false, if_true]

theorem roundedText_abs {x : Float} (finite : isFinite x = true) :
    roundedText x.abs = String.ofList (rounded x).text := by
  have bound : rank x < infinityRank := of_decide_eq_true finite
  have fits := Nat.le_of_lt bound
  have same : rounded (ofRank false (rank x)) = rounded x := by
    rw [rounded_eq, rank_ofRank false fits, rounded_eq]
  have plain : showsSign (ofRank false (rank x)) = false := by
    rw [showsSign, isNegative_ofRank false fits, Bool.false_and]
  have stillFinite : isFinite (ofRank false (rank x)) = true := by
    rw [isFinite_ofRank false fits]
    exact finite
  rw [abs_eq_ofRank fits, roundedText_of_isFinite stillFinite, plain, same,
    if_neg Bool.false_ne_true]

/-- The double has its sign shown exactly if it is below zero and its magnitude is not shown as
zero. -/
theorem lt_zero_and_iff_showsSign {x : Float} (finite : isFinite x = true) :
    x < 0.0 ∧ roundedText x.abs ≠ "0" ↔ showsSign x = true := by
  have fits : rank x ≤ infinityRank := Nat.le_of_lt (of_decide_eq_true finite)
  have shown : roundedText x.abs ≠ "0" ↔ (rounded x).coefficient ≠ 0 := by
    rw [roundedText_abs finite, not_iff_not, ← text_rounded_eq_zero_iff]
    exact ⟨fun same => (String.toList_ofList).symm.trans (congrArg String.toList same),
      fun same => congrArg String.ofList same⟩
  rw [shown, lt_zero_iff fits, showsSign, Bool.and_eq_true, bne_iff_ne]
  constructor
  · rintro ⟨⟨below, -⟩, some⟩
    exact ⟨below, some⟩
  · rintro ⟨below, some⟩
    exact ⟨⟨below, fun zero => some (coefficient_rounded_of_rank zero)⟩, some⟩

end DeskCalculator.Decimal
