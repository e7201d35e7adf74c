import DeskCalculator.Decimal.Literal
set_option autoImplicit false

/-!
# The shortest decimal that reads back

Of the decimals that read back as a given double, the one with the fewest significant digits, and of
those the nearest to the double. The search runs through the decimal grids from coarse to fine. On
each grid only the two points around the double can be meant: if a point of the grid reads back, so
does one of these.
-/

namespace DeskCalculator.Decimal

def readsAs (rank : Nat) (d : Decimal) : Bool :=
  Binary64.nearestRank (d.coefficient * Binary64.unit) (Nat.pow 10 d.places) == rank

/-- The multiples of `spacing / 10 ^ places` around the double of rank `rank`, the nearer one first;
a double in the middle counts as nearer to the upper one. -/
def neighbours (rank spacing places : Nat) : List Decimal :=
  let num := Binary64.steps rank * Nat.pow 10 places
  let den := Binary64.unit * spacing
  let below : Decimal := ⟨num / den * spacing, places⟩
  let above : Decimal := ⟨(num / den + 1) * spacing, places⟩
  if den ≤ 2 * (num % den) then [above, below] else [below, above]

def onGrid (rank spacing places : Nat) : Option Decimal :=
  (neighbours rank spacing places).find? (readsAs rank)

def amongWholes (rank : Nat) : (exponent : Nat) → Option Decimal
  | 0 => onGrid rank 1 0
  | exponent + 1 => (onGrid rank (Nat.pow 10 (exponent + 1)) 0).or (amongWholes rank exponent)

/-- The first success with `places`, `places + 1`, … places, of which at most `more` are tried
before the exact value, which has no more than 1074 places, is taken. -/
def amongFractions (rank : Nat) : (more places : Nat) → Decimal
  | 0, _ => ⟨Binary64.steps rank * Nat.pow 5 1074, 1074⟩
  | more + 1, places => (onGrid rank 1 places).getD (amongFractions rank more (places + 1))

def shortest (rank : Nat) : Decimal :=
  let digits := (Nat.toDigits 10 (Binary64.steps rank / Binary64.unit)).length
  (amongWholes rank digits).getD (amongFractions rank 1074 1)

def shortestText (x : Float) : List Char :=
  if Binary64.isNaN x then "NaN".toList
  else
    let magnitude := if Binary64.isFinite x then (shortest (Binary64.rank x)).text else "inf".toList
    if Binary64.isNegative x then '-' :: magnitude else magnitude

end DeskCalculator.Decimal
