import DeskCalculator.Binary64.Nearest
set_option autoImplicit false

namespace DeskCalculator.Binary64

def notANumber : Float :=
  Float.ofBits 0x7FF8000000000000

/-- The remainder with the sign of the dividend. It is a whole number of the steps that both operands
are made of, so it is itself a double and nothing is rounded. -/
def remainder (a b : Float) : Float :=
  if isNaN a || isNaN b || !isFinite a || rank b == 0 then notANumber
  else if !isFinite b then a
  else ofRank (isNegative a) (nearestRank (steps (rank a) % steps (rank b)) 1)

end DeskCalculator.Binary64
