import DeskCalculator.Decimal.Shortest
import DeskCalculator.Proofs.Binary64.Nearest
set_option autoImplicit false

namespace DeskCalculator.Decimal
open Binary64

variable {rank : Nat}

theorem readsAs_eq (d : Decimal) :
    readsAs rank d = (nearestRank (d.coefficient * unit) (10 ^ d.places) == rank) :=
  rfl

theorem readsAs_of_onGrid {spacing places : Nat} {d : Decimal}
    (h : onGrid rank spacing places = some d) : readsAs rank d = true :=
  List.find?_some h

theorem readsAs_of_amongWholes {exponent : Nat} {d : Decimal}
    (h : amongWholes rank exponent = some d) : readsAs rank d = true := by
  induction exponent with
  | zero => exact readsAs_of_onGrid h
  | succ exponent ih =>
    rcases Option.or_eq_some_iff.mp h with coarse | ⟨-, fine⟩
    · exact readsAs_of_onGrid coarse
    · exact ih fine

theorem readsAs_of_eq (number : rank ≤ infinityRank) {d : Decimal}
    (same : d.coefficient * unit = steps rank * 10 ^ d.places) : readsAs rank d = true := by
  rw [readsAs_eq, same, nearestRank_steps number (Nat.pow_pos (by omega))]
  exact beq_self_eq_true rank

theorem readsAs_amongFractions (number : rank ≤ infinityRank) (more places : Nat) :
    readsAs rank (amongFractions rank more places) = true := by
  induction more generalizing places with
  | zero =>
    rw [amongFractions]
    apply readsAs_of_eq number
    dsimp only
    rw [unit_eq]
    generalize 1074 = halvings
    rw [Nat.pow_eq, Nat.mul_assoc, ← Nat.mul_pow]
  | succ more ih =>
    rw [amongFractions]
    cases accepted : onGrid rank 1 places with
    | none => exact ih (places + 1)
    | some d => exact readsAs_of_onGrid accepted

theorem readsAs_shortest (number : rank ≤ infinityRank) : readsAs rank (shortest rank) = true := by
  rw [shortest]
  cases accepted : amongWholes rank (Nat.toDigits 10 (steps rank / unit)).length with
  | none =>
    rw [Option.getD_none]
    exact readsAs_amongFractions number _ _
  | some d =>
    rw [Option.getD_some]
    exact readsAs_of_amongWholes accepted

theorem toFloat_of_readsAs {d : Decimal} (h : readsAs rank d = true) :
    d.toFloat = ofRank false rank := by
  rw [toFloat, ofRatio, eq_of_beq h]

theorem toFloat_shortest (number : rank ≤ infinityRank) :
    (shortest rank).toFloat = ofRank false rank :=
  toFloat_of_readsAs (readsAs_shortest number)

end DeskCalculator.Decimal
