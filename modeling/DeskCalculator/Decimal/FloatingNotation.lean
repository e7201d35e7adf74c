set_option autoImplicit false

namespace DeskCalculator.Decimal

def dropSign : List Char → List Char
  | '+' :: cs => cs
  | '-' :: cs => cs
  | cs => cs

def isDigits (cs : List Char) : Bool :=
  !cs.isEmpty && cs.all Char.isDigit

def isOptionalExponent : List Char → Bool
  | [] => true
  | c :: cs => (c == 'e' || c == 'E') && isDigits (dropSign cs)

def isUnsignedNumber (cs : List Char) : Bool :=
  let whole := cs.takeWhile Char.isDigit
  match cs.dropWhile Char.isDigit with
  | '.' :: rest =>
    !(whole.isEmpty && (rest.takeWhile Char.isDigit).isEmpty) &&
      isOptionalExponent (rest.dropWhile Char.isDigit)
  | rest => !whole.isEmpty && isOptionalExponent rest

def isNonFiniteWord (cs : List Char) : Bool :=
  ["inf", "infinity", "nan"].any fun word => cs.map Char.toLower == word.toList

/-- Numbers with an optional sign and exponent. This is wider than the literals of an expression: a
point needs digits on one of its sides only. -/
def isFloatingNotation (cs : List Char) : Bool :=
  isNonFiniteWord (dropSign cs) || isUnsignedNumber (dropSign cs)

end DeskCalculator.Decimal
