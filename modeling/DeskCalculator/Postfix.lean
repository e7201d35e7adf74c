import DeskCalculator.Token
set_option autoImplicit false

/-!
# Postfix order

The tokens of an expression in the order in which they are carried out: operands first, then their
operator or function. Operators wait on a stack until one comes that must not be carried out before
them, or until the parenthesis around them is closed.
-/

namespace DeskCalculator.Postfix

/-- What waits for the tokens still to come: an operator for its right operand, a parenthesis for
its partner, and a function together with the parenthesis of its argument. -/
inductive Pending
  | operator (op : Operator)
  | group
  | call (name : String)
deriving DecidableEq

def Pending.isOperator : Pending → Bool
  | operator _ => true
  | _ => false

def Pending.precedes (op : Operator) : Pending → Bool
  | operator first => op.yieldsTo first
  | _ => false

def emit (stack : List Pending) : List Token :=
  stack.filterMap fun
    | .operator op => some (.operator op)
    | _ => none

def close (stack : List Pending) : Except Fault (List Token × List Pending) :=
  match stack.dropWhile Pending.isOperator with
  | [] => .error .unbalancedParentheses
  | .call name :: rest => .ok (emit (stack.takeWhile Pending.isOperator) ++ [.name name], rest)
  | _ :: rest => .ok (emit (stack.takeWhile Pending.isOperator), rest)

def finish (stack : List Pending) : Except Fault (List Token) :=
  if stack.all Pending.isOperator then .ok (emit stack) else .error .unbalancedParentheses

/-- The rest of the postfix order, from the tokens still to come. A name directly before a
parenthesis is a function; any other is a variable and stays where it is. -/
def convert (stack : List Pending) : List Token → Except Fault (List Token)
  | [] => finish stack
  | .number value :: tokens => (convert stack tokens).map (.number value :: ·)
  | .name text :: .opening :: tokens => convert (.call text :: stack) tokens
  | .name text :: tokens => (convert stack tokens).map (.name text :: ·)
  | .operator op :: tokens =>
    (convert (.operator op :: stack.dropWhile (Pending.precedes op)) tokens).map
      (emit (stack.takeWhile (Pending.precedes op)) ++ ·)
  | .opening :: tokens => convert (.group :: stack) tokens
  | .closing :: tokens => do
    let (carriedOut, rest) ← close stack
    (convert rest tokens).map (carriedOut ++ ·)

def ofTokens (tokens : List Token) : Except Fault (List Token) :=
  convert [] tokens

end DeskCalculator.Postfix
