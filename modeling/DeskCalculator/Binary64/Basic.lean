set_option autoImplicit false

/-!
# Double precision numbers as natural numbers

Without its sign bit, the word of a double counts the magnitudes below it: `0` is zero, `1` the
smallest positive double, and so on up to infinity. This count is the double's *rank*. Every finite
magnitude is a natural number of steps of `2⁻¹⁰⁷⁴`, so arithmetic on doubles can be exact
arithmetic on natural numbers. Its powers are named `Nat.pow`: what `^` stands for depends on the
algebra that is imported.
-/

namespace DeskCalculator.Binary64

def rank (x : Float) : Nat :=
  x.toBits.toNat % Nat.pow 2 63

def isNegative (x : Float) : Bool :=
  Nat.pow 2 63 ≤ x.toBits.toNat

/-- The rank of infinity. The ranks above it are those of the words that are not numbers. -/
def infinityRank : Nat :=
  2047 * Nat.pow 2 52

def isFinite (x : Float) : Bool :=
  rank x < infinityRank

def isNaN (x : Float) : Bool :=
  infinityRank < rank x

def ofRank (negative : Bool) (rank : Nat) : Float :=
  Float.ofBits (UInt64.ofNat (if negative then Nat.pow 2 63 + rank else rank))

/-- The magnitude of rank `rank`, in steps of `2⁻¹⁰⁷⁴`. Ranks below `2 ^ 52` are subnormal; above,
each block of `2 ^ 52` ranks has twice the spacing of the block before. -/
def steps (rank : Nat) : Nat :=
  if rank < Nat.pow 2 52 then rank
  else (Nat.pow 2 52 + rank % Nat.pow 2 52) * Nat.pow 2 (rank / Nat.pow 2 52 - 1)

def unit : Nat :=
  Nat.pow 2 1074

end DeskCalculator.Binary64
