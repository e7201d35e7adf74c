import DeskCalculator.CommandLine
import DeskCalculator.Window
set_option autoImplicit false

def main (arguments : List String) : IO UInt32 := do
  match DeskCalculator.CommandLine.run arguments with
  | .finished report =>
    (← IO.getStderr).putStr report.diagnostics
    (← IO.getStdout).putStr report.output
    return report.exitCode
  | .window angle =>
    -- A terminal has no window: its texts are listed.
    for text in (DeskCalculator.Window.start angle).screen do
      IO.println text
    return 0
