import DeskCalculator.Display
import DeskCalculator.Expression
set_option autoImplicit false

namespace DeskCalculator

structure Calculator where
  display : String := ""
  angle : Angle := .degrees
  /-- The last result. -/
  answer : Option Float := none
  /-- How the last evaluation went, empty if it failed. -/
  working : Working := {}
  /-- Whether the entry field is to get the keyboard. -/
  wantsFocus : Bool := true

inductive Action
  | insert (text : String)
  | clear
  | deleteLast
  | toggleSign
  | recallAnswer
  | evaluate
  | toggleAngle
  /-- The display is overwritten from outside. -/
  | overwrite (text : String)
deriving DecidableEq

namespace Calculator

def insert (c : Calculator) (text : String) : Calculator :=
  { c with display := Display.insert c.display text, wantsFocus := true }

def clear (c : Calculator) : Calculator :=
  { c with display := "", wantsFocus := true }

def deleteLast (c : Calculator) : Calculator :=
  { c with display := Display.deleteLast c.display }

def toggleSign (c : Calculator) : Calculator :=
  match Display.toggleSign? c.display with
  | some display => { c with display, wantsFocus := true }
  | none => c

/-- Enters the last result, if there is one and it is finite. -/
def recallAnswer (c : Calculator) : Calculator :=
  match c.answer.bind Display.readable? with
  | some text => c.insert text
  | none => c

/-- Evaluates the display. A failure keeps the last result, and a blank display changes nothing. -/
def evaluate (c : Calculator) : Calculator :=
  let text := Text.trim c.display
  if text = "" then c
  else
    match Expression.workOut c.angle text with
    | .ok outcome =>
      { c with
        display := Display.ofResult outcome.value
        answer := some outcome.value
        working := outcome.working
        wantsFocus := true }
    | .error _ => { c with display := Display.failure, working := {}, wantsFocus := true }

def toggleAngle (c : Calculator) : Calculator :=
  { c with angle := c.angle.toggle, wantsFocus := true }

def perform (c : Calculator) : Action → Calculator
  | .insert text => c.insert text
  | .clear => c.clear
  | .deleteLast => c.deleteLast
  | .toggleSign => c.toggleSign
  | .recallAnswer => c.recallAnswer
  | .evaluate => c.evaluate
  | .toggleAngle => c.toggleAngle
  | .overwrite text => { c with display := text }

end Calculator

end DeskCalculator
