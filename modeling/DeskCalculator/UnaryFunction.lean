import DeskCalculator.Angle
import DeskCalculator.Text.Name
set_option autoImplicit false

namespace DeskCalculator

inductive UnaryFunction
  | sin
  | cos
  | tan
  | asin
  | acos
  | atan
  | sqrt
  | ln
  | log
  | abs
  | neg
deriving DecidableEq, Repr

namespace UnaryFunction

def named? (name : String) : Option UnaryFunction :=
  match Text.foldCase name with
  | "sin" => some sin
  | "cos" => some cos
  | "tan" => some tan
  | "asin" => some asin
  | "acos" => some acos
  | "atan" => some atan
  | "sqrt" => some sqrt
  | "ln" => some ln
  | "log" => some log
  | "abs" => some abs
  | "neg" => some neg
  | _ => none

def apply (angle : Angle) (x : Float) : UnaryFunction → Float
  | sin => (angle.toRadians x).sin
  | cos => (angle.toRadians x).cos
  | tan => (angle.toRadians x).tan
  | asin => angle.ofRadians x.asin
  | acos => angle.ofRadians x.acos
  | atan => angle.ofRadians x.atan
  | sqrt => x.sqrt
  | ln => x.log
  | log => x.log10
  | abs => x.abs
  | neg => -x

end UnaryFunction

end DeskCalculator
