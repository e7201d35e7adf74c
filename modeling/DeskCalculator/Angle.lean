import DeskCalculator.Binary64.Basic
set_option autoImplicit false

namespace DeskCalculator

/-- The double nearest to π. -/
def pi : Float :=
  Float.ofBits 0x400921FB54442D18

inductive Angle
  | degrees
  | radians
deriving DecidableEq, Repr, Inhabited

namespace Angle

def toRadians : Angle → Float → Float
  | degrees, x => x * pi / 180.0
  | radians, x => x

def ofRadians : Angle → Float → Float
  | degrees, x => x * 180.0 / pi
  | radians, x => x

def toggle : Angle → Angle
  | degrees => radians
  | radians => degrees

def label : Angle → String
  | degrees => "DEG"
  | radians => "RAD"

end Angle

end DeskCalculator
