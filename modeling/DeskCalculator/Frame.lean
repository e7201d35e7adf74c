import DeskCalculator.Keypad
set_option autoImplicit false

namespace DeskCalculator

/-- What the entry field has made of the input of a frame. -/
structure FieldResponse where
  text : String
  lostKeyboard : Bool

/-- A library that draws a window frame by frame and takes the input, with a memory of its own. -/
structure Toolkit where
  Memory : Type
  Input : Type
  escapePressed : Input → Bool
  enterPressed : Input → Bool
  field : Input → Memory → (text : String) → FieldResponse × Memory
  giveKeyboard : Memory → Memory
  /-- Whether the button has been clicked. -/
  button : Input → Memory → (label : String) → Bool × Memory
  /-- Whether the panel is open. -/
  panel : Input → Memory → (title : String) → Bool × Memory

structure View (t : Toolkit) where
  calculator : Calculator
  memory : t.Memory

namespace View

def title : String :=
  "Calculatrice RPN"

def hint : String :=
  "Ex: 2(3+4), sin(90), 50%, 7 mod 3"

def panelTitle : String :=
  "Démarche"

def units : List Angle :=
  [.degrees, .radians]

variable {t : Toolkit}

def perform (v : View t) (action : Action) : View t :=
  { v with calculator := v.calculator.perform action }

/-- The field has taken the input of the frame before a request of the calculator is passed on, so
the field that gets the keyboard has it from the next frame on. -/
def drawField (v : View t) (input : t.Input) : View t :=
  let (response, memory) := t.field input v.memory v.calculator.display
  let entered := v.calculator.perform (.overwrite response.text)
  let served : View t :=
    if entered.wantsFocus then ⟨{ entered with wantsFocus := false }, t.giveKeyboard memory⟩
    else ⟨entered, memory⟩
  if response.lostKeyboard && t.enterPressed input then served.perform .evaluate else served

def drawUnit (input : t.Input) (v : View t) (unit : Angle) : View t :=
  let (clicked, memory) := t.button input v.memory unit.label
  let drawn : View t := { v with memory }
  if clicked && unit != v.calculator.angle then drawn.perform .toggleAngle else drawn

def drawKey (input : t.Input) (v : View t) (label : String) : View t :=
  let (clicked, memory) := t.button input v.memory label
  let drawn : View t := { v with memory }
  if clicked then drawn.perform (Keypad.action label) else drawn

def drawPanel (v : View t) (input : t.Input) : View t :=
  { v with memory := (t.panel input v.memory panelTitle).2 }

def frame (v : View t) (input : t.Input) : View t :=
  let cleared := if t.escapePressed input then v.perform .clear else v
  let chosen := units.foldl (drawUnit input) (cleared.drawField input)
  (Keypad.labels.foldl (drawKey input) chosen).drawPanel input

def texts (v : View t) (panelOpen : Bool) : List String :=
  let display := v.calculator.display
  let working := v.calculator.working
  let panel := if panelOpen then ["Jetons :", working.tokens, "RPN :", working.rpn] else []
  ([title, if display = "" then hint else display] ++ units.map Angle.label
    ++ Keypad.labels ++ [panelTitle] ++ panel).filter (· ≠ "")

end View

end DeskCalculator
