import DeskCalculator.Decimal.Basic
set_option autoImplicit false

namespace DeskCalculator

/-- The digits before and after the point. There is no point when none follow it. -/
structure Literal where
  whole : List Char
  fraction : List Char
deriving DecidableEq, Repr

namespace Literal

def text (l : Literal) : List Char :=
  if l.fraction.isEmpty then l.whole else l.whole ++ '.' :: l.fraction

def decimal (l : Literal) : Decimal :=
  ⟨Nat.ofDigitChars 10 (l.whole ++ l.fraction) 0, l.fraction.length⟩

def value (l : Literal) : Float :=
  l.decimal.toFloat

end Literal

namespace Decimal

/-- The last `places` decimal digits of `n`, with zeros in front where `n` is shorter. -/
def lastDigits : (places n : Nat) → List Char
  | 0, _ => []
  | places + 1, n => lastDigits places (n / 10) ++ [Nat.digitChar (n % 10)]

def literal (d : Decimal) : Literal where
  whole := Nat.toDigits 10 (d.coefficient / Nat.pow 10 d.places)
  fraction := lastDigits d.places d.coefficient

def text (d : Decimal) : List Char :=
  d.literal.text

end Decimal

end DeskCalculator
