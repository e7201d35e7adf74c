import DeskCalculator.Decimal.Shortest
import DeskCalculator.Operator
set_option autoImplicit false

namespace DeskCalculator

inductive Token
  | number (value : Float)
  | operator (op : Operator)
  | opening
  | closing
  /-- A function or a variable. -/
  | name (text : String)
deriving DecidableEq

namespace Token

def text : Token → List Char
  | number value => Decimal.shortestText value
  | operator op => op.symbol.toList
  | opening => ['(']
  | closing => [')']
  | name text => text.toList

def render (tokens : List Token) : String :=
  String.ofList ([' '].intercalate (tokens.map text))

end Token

end DeskCalculator
