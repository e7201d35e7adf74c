import DeskCalculator.Frame
set_option autoImplicit false

namespace DeskCalculator.Window

inductive Target
  | key (label : String)
  | angle (unit : Angle)
  | workingPanel
  | field
  | background
deriving DecidableEq

inductive Event
  | click (target : Target)
  | type (text : String)
  | enter
  | escape
deriving DecidableEq

def target? (label : String) : Option Target :=
  if label = Angle.degrees.label then some (.angle .degrees)
  else if label = Angle.radians.label then some (.angle .radians)
  else if label = View.panelTitle then some .workingPanel
  else if Keypad.labels.contains label then some (.key label)
  else none

structure Memory where
  /-- Whether the entry field has the keyboard. -/
  fieldActive : Bool := false
  workingShown : Bool := false

def hits (label : String) : Option Event → Bool
  | some (.click target) => target? label == some target
  | _ => false

/-- The field with the caret behind its text. A click outside it and the Enter key take the keyboard
away from it. -/
def runField : Option Event → Memory → String → FieldResponse × Memory
  | some (.click .field), memory, text => (⟨text, false⟩, { memory with fieldActive := true })
  | some (.click _), memory, text =>
    (⟨text, memory.fieldActive⟩, { memory with fieldActive := false })
  | some (.type typed), memory, text =>
    (⟨if memory.fieldActive then text ++ typed else text, false⟩, memory)
  | some .enter, memory, text =>
    (⟨text, memory.fieldActive⟩, { memory with fieldActive := false })
  | some .escape, memory, text | none, memory, text => (⟨text, false⟩, memory)

/-- A toolkit that gets at most one event in a frame. -/
def toolkit : Toolkit where
  Memory := Memory
  Input := Option Event
  escapePressed input := input == some .escape
  enterPressed input := input == some .enter
  field := runField
  giveKeyboard memory := { memory with fieldActive := true }
  button input memory label := (hits label input, memory)
  panel input memory title :=
    let shown := memory.workingShown != hits title input
    (shown, { memory with workingShown := shown })

end Window

abbrev Window := View Window.toolkit

namespace Window

def fieldActive (w : Window) : Bool :=
  w.memory.fieldActive

def handle (w : Window) (event : Event) : Window :=
  (w.frame (some event)).frame none

def start (angle : Angle) : Window :=
  View.frame ⟨{ angle }, {}⟩ none

def screen (w : Window) : List String :=
  w.texts w.memory.workingShown

end Window

end DeskCalculator
