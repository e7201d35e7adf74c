import DeskCalculator.CommandLine.Basic
set_option autoImplicit false

namespace DeskCalculator.CommandLine

/-- Why the options do not lead to an evaluation or a window. -/
inductive Stop
  | help
  | version
  | unknownArgument (argument : String)
  | repeatedOption (option : String)
  | missingValue
  | needlessValue (option value : String)
deriving DecidableEq, Repr

def expressionOption : String :=
  "--eval <EXPR>"

inductive Argument
  | endOfOptions
  | long (name : String) (value : Option String)
  /-- A single dash, an option letter and what is attached to it. -/
  | short (letter : Char) (attached : List Char)
  | plain (text : String)
deriving DecidableEq

def Argument.ofString (argument : String) : Argument :=
  match argument.toList with
  | ['-', '-'] => endOfOptions
  | '-' :: '-' :: cs =>
    long (String.ofList (cs.takeWhile (· != '=')))
      (match cs.dropWhile (· != '=') with
        | [] => none
        | _ :: value => some (String.ofList value))
  | '-' :: letter :: attached => short letter attached
  | _ => plain argument

/-- What has been read: the options recorded and, if the last option was one for an expression
without anything attached, the expression after it as far as it has been seen. It is recorded only
when the next option or the end is reached, so a second one is found to be too many only then. -/
structure Progress where
  options : Options := {}
  pending : Option (Option String) := none
  optionsEnded : Bool := false

namespace Progress

def recordExpression (p : Progress) (expression : String) : Except Stop Progress :=
  if p.options.expression.isSome then .error (.repeatedOption expressionOption)
  else .ok { p with options := { p.options with expression := some expression }, pending := none }

def settle (p : Progress) : Except Stop Progress :=
  match p.pending with
  | none => .ok p
  | some none => .error .missingValue
  | some (some expression) => p.recordExpression expression

def readExpressionOption (p : Progress) (attached : Option String) : Except Stop Progress := do
  let p ← p.settle
  match attached with
  | some expression => p.recordExpression expression
  | none => return { p with pending := some none }

def readRadians (p : Progress) : Except Stop Progress := do
  let p ← p.settle
  if p.options.radians then throw (.repeatedOption "--radians")
  else return { p with options := { p.options with radians := true } }

/-- The progress ends with a request that takes no part in an evaluation. -/
def stopWith (p : Progress) (stop : Stop) : Except Stop Progress := do
  let _ ← p.settle
  throw stop

def readFlag (name : String) (value : Option String) (read : Except Stop Progress) :
    Except Stop Progress :=
  match value with
  | some value => .error (.needlessValue ("--" ++ name) value)
  | none => read

def readLong (p : Progress) (argument name : String) (value : Option String) :
    Except Stop Progress :=
  match name with
  | "eval" => p.readExpressionOption value
  | "radians" => readFlag name value p.readRadians
  | "help" => readFlag name value (p.stopWith .help)
  | "version" => readFlag name value (p.stopWith .version)
  | _ => .error (.unknownArgument argument)

/-- The expression attached to an option letter. One equals sign may stand between them. -/
def attachedExpression : List Char → Option String
  | [] => none
  | '=' :: cs => some (String.ofList cs)
  | cs => some (String.ofList cs)

def readShort (p : Progress) (letter : Char) (attached : List Char) : Except Stop Progress :=
  match letter with
  | 'e' => p.readExpressionOption (attachedExpression attached)
  | 'h' => p.stopWith .help
  | 'V' => p.stopWith .version
  | _ => .error (.unknownArgument (String.ofList ['-', letter]))

def readPlain (p : Progress) (text : String) : Except Stop Progress :=
  match p.pending with
  | some none => .ok { p with pending := some (some text) }
  | _ => .error (.unknownArgument text)

def read (p : Progress) (argument : String) : Except Stop Progress :=
  if p.optionsEnded then .error (.unknownArgument argument)
  else
    match Argument.ofString argument with
    | .endOfOptions => .ok { p with optionsEnded := true }
    | .long name value => p.readLong ("--" ++ name) name value
    | .short letter attached => p.readShort letter attached
    | .plain text => p.readPlain text

end Progress

def parse (arguments : List String) : Except Stop Options := do
  let progress ← arguments.foldlM Progress.read {}
  return (← progress.settle).options

def programName : String :=
  "calculatrice_rpn"

def versionText : String :=
  programName ++ " 0.1.0\n"

def usage : String :=
  "Usage: " ++ programName ++ " [OPTIONS]\n"

def helpText : String :=
  "Calculatrice (shunting-yard + RPN)\n\n" ++ usage ++ "\nOptions:\n"
    ++ "  -e, --eval <EXPR>  Évalue une expression, affiche le résultat et quitte (sans fenêtre)\n"
    ++ "      --radians      Démarre en radians (degrés par défaut)\n"
    ++ "  -h, --help         Print help\n"
    ++ "  -V, --version      Print version\n"

def Stop.message : Stop → String
  | help => helpText
  | version => versionText
  | unknownArgument argument => s!"error: unexpected argument '{argument}' found\n\n" ++ usage
  | repeatedOption option =>
    s!"error: the argument '{option}' cannot be used multiple times\n\n" ++ usage
  | missingValue =>
    "error: a value is required for '" ++ expressionOption ++ "' but none was supplied\n"
  | needlessValue option value =>
    s!"error: unexpected value '{value}' for '{option}' found; no more were expected\n\n" ++ usage

def Stop.report : Stop → Report
  | help => ⟨0, helpText, ""⟩
  | version => ⟨0, versionText, ""⟩
  | stop => ⟨2, "", stop.message⟩

def readOptions (arguments : List String) : Except Report Options :=
  (parse arguments).mapError Stop.report

def run (arguments : List String) : Run :=
  runWith readOptions arguments

end DeskCalculator.CommandLine
