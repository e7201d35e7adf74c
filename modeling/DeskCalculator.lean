import DeskCalculator.Angle
import DeskCalculator.Binary64.Basic
import DeskCalculator.Binary64.Nearest
import DeskCalculator.Binary64.Remainder
import DeskCalculator.Calculator
import DeskCalculator.CommandLine
import DeskCalculator.CommandLine.Basic
import DeskCalculator.Constant
import DeskCalculator.Decimal.Basic
import DeskCalculator.Decimal.FloatingNotation
import DeskCalculator.Decimal.Literal
import DeskCalculator.Decimal.Rounded
import DeskCalculator.Decimal.Shortest
import DeskCalculator.Display
import DeskCalculator.Expression
import DeskCalculator.Fault
import DeskCalculator.Frame
import DeskCalculator.Keypad
import DeskCalculator.Lexeme
import DeskCalculator.Main
import DeskCalculator.Operator
import DeskCalculator.Postfix
import DeskCalculator.Postfix.Evaluation
import DeskCalculator.Proofs.Balance
import DeskCalculator.Proofs.Binary64.Bits
import DeskCalculator.Proofs.Binary64.Exact
import DeskCalculator.Proofs.Binary64.Nearest
import DeskCalculator.Proofs.Binary64.Steps
import DeskCalculator.Proofs.Calculator
import DeskCalculator.Proofs.Decimal.Canonical
import DeskCalculator.Proofs.Decimal.Literal
import DeskCalculator.Proofs.Decimal.Rounded
import DeskCalculator.Proofs.Decimal.Shortest
import DeskCalculator.Proofs.Deletion
import DeskCalculator.Proofs.Display
import DeskCalculator.Proofs.Expression
import DeskCalculator.Proofs.Fault
import DeskCalculator.Proofs.Focus
import DeskCalculator.Proofs.Frame
import DeskCalculator.Proofs.FrontEnds
import DeskCalculator.Proofs.History
import DeskCalculator.Proofs.Infix.Alternation
import DeskCalculator.Proofs.Infix.BareName
import DeskCalculator.Proofs.Infix.Derivation
import DeskCalculator.Proofs.Infix.Evaluation
import DeskCalculator.Proofs.Infix.Phrase
import DeskCalculator.Proofs.Infix.Radians
import DeskCalculator.Proofs.Insertion
import DeskCalculator.Proofs.Keypad
import DeskCalculator.Proofs.LeadingZero
import DeskCalculator.Proofs.Lexeme.Continued
import DeskCalculator.Proofs.Lexeme.FloatingNotation
import DeskCalculator.Proofs.Lexeme.Joining
import DeskCalculator.Proofs.Lexeme.LetterCase
import DeskCalculator.Proofs.Lexeme.Longest
import DeskCalculator.Proofs.Lexeme.Parentheses
import DeskCalculator.Proofs.Lexeme.Product
import DeskCalculator.Proofs.Lexeme.Reading
import DeskCalculator.Proofs.Lexeme.Splitting
import DeskCalculator.Proofs.Lexeme.Stray
import DeskCalculator.Proofs.Lexeme.Touching
import DeskCalculator.Proofs.Negation
import DeskCalculator.Proofs.Postfix.Contents
import DeskCalculator.Proofs.Postfix.Conversion
import DeskCalculator.Proofs.Postfix.Order
import DeskCalculator.Proofs.Postfix.Percent
import DeskCalculator.Proofs.Postfix.Replacement
import DeskCalculator.Proofs.Postfix.Running
import DeskCalculator.Proofs.Postfix.Shape
import DeskCalculator.Proofs.Precision
import DeskCalculator.Proofs.Prefix
import DeskCalculator.Proofs.Recall
import DeskCalculator.Proofs.Recovery
import DeskCalculator.Proofs.Rendering
import DeskCalculator.Proofs.Rounding
import DeskCalculator.Proofs.Rounding.Rational
import DeskCalculator.Proofs.Text.Blank
import DeskCalculator.Proofs.Text.Name
import DeskCalculator.Proofs.TypedMinus
import DeskCalculator.Rounding
import DeskCalculator.Text.Blank
import DeskCalculator.Text.Name
import DeskCalculator.Token
import DeskCalculator.UnaryFunction
import DeskCalculator.Window
