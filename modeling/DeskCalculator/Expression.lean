import DeskCalculator.Decimal.Rounded
import DeskCalculator.Lexeme
import DeskCalculator.Postfix.Evaluation
set_option autoImplicit false

namespace DeskCalculator

/-- How a value was worked out: the tokens as they were read, and in postfix order. -/
structure Working where
  tokens : String := ""
  rpn : String := ""
deriving DecidableEq, Repr, Inhabited

structure Outcome where
  value : Float
  working : Working

namespace Expression

def workOut (angle : Angle) (text : String) : Except Fault Outcome := do
  let tokens ← tokenize text
  let ordered ← Postfix.ofTokens tokens
  let value ← Postfix.evaluate angle ordered
  return ⟨value, ⟨Token.render tokens, Token.render ordered⟩⟩

def value (angle : Angle) (text : String) : Except Fault Float :=
  (workOut angle text).map Outcome.value

def shownValue (angle : Angle) (text : String) : Except Fault String :=
  (value angle text).map Decimal.roundedText

end Expression

end DeskCalculator
