import DeskCalculator.Binary64.Basic
import DeskCalculator.Rounding
set_option autoImplicit false

namespace DeskCalculator.Binary64

/-- How often the spacing of the doubles near `num / den` steps is that of the smallest ones,
doubled: at this spacing the quotient has at most 53 binary digits. -/
def spacingExponent (num den : Nat) : Nat :=
  (num / den).log2 - 52

/-- The rank of the double nearest to `num / den` steps. Rounding up to the next power of two
carries into the next block of ranks, where the count goes on without a gap. -/
def nearestRank (num den : Nat) : Nat :=
  let exponent := spacingExponent num den
  min (exponent * Nat.pow 2 52 + Rounding.halfEven num (den * Nat.pow 2 exponent)) infinityRank

def ofRatio (num den : Nat) : Float :=
  ofRank false (nearestRank (num * unit) den)

end DeskCalculator.Binary64
