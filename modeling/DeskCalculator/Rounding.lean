set_option autoImplicit false

namespace DeskCalculator.Rounding

/-- The natural number nearest to `num / den`, the even one of two that are equally near. -/
def halfEven (num den : Nat) : Nat :=
  if den < 2 * (num % den) ∨ (2 * (num % den) = den ∧ num / den % 2 = 1) then num / den + 1
  else num / den

end DeskCalculator.Rounding
