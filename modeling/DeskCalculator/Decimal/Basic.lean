import DeskCalculator.Binary64.Nearest
set_option autoImplicit false

namespace DeskCalculator

/-- The number `coefficient / 10 ^ places`. -/
structure Decimal where
  coefficient : Nat
  places : Nat
deriving DecidableEq, Repr

namespace Decimal

def toFloat (d : Decimal) : Float :=
  Binary64.ofRatio d.coefficient (Nat.pow 10 d.places)

def reduce : (places coefficient : Nat) → Decimal
  | 0, coefficient => ⟨coefficient, 0⟩
  | places + 1, coefficient =>
    if coefficient % 10 = 0 then reduce places (coefficient / 10) else ⟨coefficient, places + 1⟩

end Decimal

end DeskCalculator
