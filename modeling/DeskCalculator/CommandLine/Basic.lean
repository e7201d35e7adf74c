import DeskCalculator.Display
import DeskCalculator.Expression
set_option autoImplicit false

namespace DeskCalculator.CommandLine

structure Options where
  expression : Option String := none
  radians : Bool := false
deriving DecidableEq, Repr

def Options.angle (options : Options) : Angle :=
  if options.radians then .radians else .degrees

/-- How a run without a window ends. -/
structure Report where
  exitCode : UInt32
  output : String
  diagnostics : String

inductive Run
  | finished (report : Report)
  /-- A window in this unit is to be shown. -/
  | window (angle : Angle)

def evaluation (angle : Angle) (expression : String) : Report :=
  match Expression.shownValue angle expression with
  | .ok text => ⟨0, text ++ "\n", ""⟩
  | .error fault => ⟨1, Display.failure ++ "\n", fault.message ++ "\n"⟩

/-- An expression given as an option is evaluated and the program ends; otherwise it shows its
window. Options that cannot be read end it as the reader says. -/
def runWith (read : List String → Except Report Options) (arguments : List String) : Run :=
  match read arguments with
  | .error report => .finished report
  | .ok options =>
    match options.expression with
    | some expression => .finished (evaluation options.angle expression)
    | none => .window options.angle

end DeskCalculator.CommandLine
