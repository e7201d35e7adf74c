import DeskCalculator.Postfix
import DeskCalculator.UnaryFunction
set_option autoImplicit false

namespace DeskCalculator.Postfix

def step (angle : Angle) (stack : List Float) : Token → Except Fault (List Float)
  | .number value => .ok (value :: stack)
  | .operator .percent =>
    match stack with
    | a :: rest => .ok (a / 100.0 :: rest)
    | [] => .error (.missingOperands Operator.percent.symbol)
  | .operator (.binary op) =>
    match stack with
    | b :: a :: rest => (op.apply a b).map (· :: rest)
    | _ => .error (.missingOperands op.symbol)
  | .name text =>
    match UnaryFunction.named? text with
    | none => .error (.unknownSymbol text)
    | some function =>
      match stack with
      | a :: rest => .ok (function.apply angle a :: rest)
      | [] => .error (.missingOperands text)
  | .opening => .error (.unknownSymbol "(")
  | .closing => .error (.unknownSymbol ")")

def run (angle : Angle) (stack : List Float) : List Token → Except Fault (List Float)
  | [] => .ok stack
  | token :: tokens => do run angle (← step angle stack token) tokens

def single : List Float → Except Fault Float
  | [value] => .ok value
  | stack => .error (.leftoverValues stack.length)

def evaluate (angle : Angle) (tokens : List Token) : Except Fault Float := do
  single (← run angle [] tokens)

end DeskCalculator.Postfix
