import DeskCalculator.Calculator
set_option autoImplicit false

namespace DeskCalculator.Keypad

def rows : List (List String) :=
  [["(", ")", "mod", "ANS", "C"],
   ["sin", "cos", "tan", "log", "ln"],
   ["√", "x²", "x^y", "1/x", "%"],
   ["7", "8", "9", "÷", "π"],
   ["4", "5", "6", "×", "e"],
   ["1", "2", "3", "-", "±"],
   ["0", ".", "DEL", "+", "="]]

def labels : List String :=
  rows.flatten

/-- What a key does. A label without a meaning of its own is entered as it stands. -/
def action : (label : String) → Action
  | "C" => .clear
  | "DEL" => .deleteLast
  | "=" => .evaluate
  | "ANS" => .recallAnswer
  | "±" => .toggleSign
  | "x²" => .insert "^2"
  | "x^y" => .insert "^"
  | "mod" => .insert " mod "
  | "1/x" => .insert "(1/"
  | "√" => .insert "sqrt("
  | "sin" => .insert "sin("
  | "cos" => .insert "cos("
  | "tan" => .insert "tan("
  | "log" => .insert "log("
  | "ln" => .insert "ln("
  | "÷" => .insert "/"
  | "×" => .insert "*"
  | label => .insert label

end DeskCalculator.Keypad

namespace DeskCalculator.Calculator

def press (c : Calculator) (label : String) : Calculator :=
  c.perform (Keypad.action label)

end DeskCalculator.Calculator
