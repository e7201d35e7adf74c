set_option autoImplicit false

namespace DeskCalculator

inductive Fault
  /-- No lexeme starts with the character at this position, counted in characters from zero. -/
  | unexpectedCharacter (char : Char) (position : Nat)
  | unbalancedParentheses
  /-- The operator or function found too few values. -/
  | missingOperands (symbol : String)
  | divisionByZero
  | unknownSymbol (name : String)
  /-- The number of values left at the end is not one. -/
  | leftoverValues (count : Nat)
deriving DecidableEq, Repr

def Fault.message : Fault → String
  | unexpectedCharacter char position => s!"caractère inattendu '{char}' en position {position}"
  | unbalancedParentheses => "parenthèses non appariées"
  | missingOperands symbol => s!"opérandes insuffisants pour '{symbol}'"
  | divisionByZero => "division par zéro"
  | unknownSymbol name => s!"symbole inconnu: {name}"
  | leftoverValues count => s!"expression invalide (pile finale de taille {count})"

end DeskCalculator
