import DeskCalculator.Binary64.Remainder
import DeskCalculator.Fault
set_option autoImplicit false

namespace DeskCalculator

inductive BinaryOperator
  | plus
  | minus
  | times
  | divide
  | modulo
  | power
deriving DecidableEq, Repr

inductive Operator
  | binary (op : BinaryOperator)
  | percent
deriving DecidableEq, Repr

namespace BinaryOperator

def symbol : BinaryOperator → String
  | plus => "+"
  | minus => "-"
  | times => "*"
  | divide => "/"
  | modulo => "mod"
  | power => "^"

def precedence : BinaryOperator → Nat
  | plus | minus => 2
  | times | divide | modulo => 3
  | power => 4

/-- The value of the operator, unless it divides by a zero of either sign. -/
def apply (a b : Float) : BinaryOperator → Except Fault Float
  | plus => .ok (a + b)
  | minus => .ok (a - b)
  | times => .ok (a * b)
  | divide => if b == 0.0 then .error .divisionByZero else .ok (a / b)
  | modulo => if b == 0.0 then .error .divisionByZero else .ok (Binary64.remainder a b)
  | power => .ok (Float.pow a b)

end BinaryOperator

namespace Operator

def symbol : Operator → String
  | binary op => op.symbol
  | percent => "%"

def precedence : Operator → Nat
  | binary op => op.precedence
  | percent => 3

def groupsRight (op : Operator) : Bool :=
  op == binary .power

/-- Whether `first`, written before `op`, is carried out before `op` is. -/
def yieldsTo (op first : Operator) : Bool :=
  if op.groupsRight then op.precedence < first.precedence else op.precedence ≤ first.precedence

def ofChar? : Char → Option Operator
  | '+' => some (binary .plus)
  | '-' => some (binary .minus)
  | '*' => some (binary .times)
  | '/' => some (binary .divide)
  | '^' => some (binary .power)
  | '%' => some percent
  | _ => none

end Operator

end DeskCalculator
