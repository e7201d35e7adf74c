import DeskCalculator.Angle
import DeskCalculator.Text.Name
set_option autoImplicit false

namespace DeskCalculator

inductive Constant
  | pi
  | e
deriving DecidableEq, Repr

namespace Constant

def value : Constant → Float
  | pi => DeskCalculator.pi
  | e => Float.ofBits 0x4005BF0A8B145769

def named? (name : String) : Option Constant :=
  match Text.foldCase name with
  | "pi" => some pi
  | "π" => some pi
  | "e" => some e
  | _ => none

end Constant

end DeskCalculator
