import DeskCalculator.Decimal.Literal
set_option autoImplicit false

namespace DeskCalculator.Decimal

def shownPlaces : Nat :=
  10

/-- The magnitude of a finite double, rounded to the shown places. -/
def rounded (x : Float) : Decimal :=
  reduce shownPlaces
    (Rounding.halfEven (Binary64.steps (Binary64.rank x) * Nat.pow 10 shownPlaces) Binary64.unit)

def showsSign (x : Float) : Bool :=
  Binary64.isNegative x && (rounded x).coefficient != 0

def roundedText (x : Float) : String :=
  if Binary64.isNaN x then "NaN"
  else if Binary64.isFinite x then
    String.ofList (if showsSign x then '-' :: (rounded x).text else (rounded x).text)
  else if Binary64.isNegative x then "-∞" else "∞"

end DeskCalculator.Decimal
