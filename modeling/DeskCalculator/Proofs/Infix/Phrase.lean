import DeskCalculator.Expression
import Mathlib
set_option autoImplicit false

/-!
# Infix phrases

Well-formed expressions as derivation trees. A sum is made of products, a product of powers and a
power of atoms. The percent sign stands after a product and takes the whole of it; powers alone
group to the right. A phrase has the tokens that are written and a value that is found from its
operands up, with neither a stack nor a postfix order.
-/

namespace DeskCalculator.Infix

inductive Rank
  | sum
  | product
  | power
  | atom
deriving DecidableEq

inductive SumSign
  | plus
  | minus
deriving DecidableEq

inductive ProductSign
  | times
  | divide
  | modulo
deriving DecidableEq

namespace SumSign

def operator : SumSign → BinaryOperator
  | plus => .plus
  | minus => .minus

def combine (a b : Float) : SumSign → Float
  | plus => a + b
  | minus => a - b

theorem apply_operator (sign : SumSign) (a b : Float) :
    sign.operator.apply a b = .ok (sign.combine a b) := by
  cases sign <;> rfl

theorem precedence_operator (sign : SumSign) : Operator.precedence (.binary sign.operator) = 2 := by
  cases sign <;> rfl

theorem operator_ne_power (sign : SumSign) : Operator.binary sign.operator ≠ .binary .power := by
  cases sign <;> decide

end SumSign

namespace ProductSign

def operator : ProductSign → BinaryOperator
  | times => .times
  | divide => .divide
  | modulo => .modulo

/-- A division or remainder by a zero of either sign has no value. -/
def combine (a b : Float) : ProductSign → Except Fault Float
  | times => .ok (a * b)
  | divide => if b == 0.0 then .error .divisionByZero else .ok (a / b)
  | modulo => if b == 0.0 then .error .divisionByZero else .ok (Binary64.remainder a b)

theorem apply_operator (sign : ProductSign) (a b : Float) :
    sign.operator.apply a b = sign.combine a b := by
  cases sign <;> rfl

theorem precedence_operator (sign : ProductSign) :
    Operator.precedence (.binary sign.operator) = 3 := by
  cases sign <;> rfl

theorem operator_ne_power (sign : ProductSign) :
    Operator.binary sign.operator ≠ .binary .power := by
  cases sign <;> decide

end ProductSign

theorem operator_cases (op : BinaryOperator) : (∃ sign : SumSign, op = sign.operator) ∨
    (∃ sign : ProductSign, op = sign.operator) ∨ op = .power := by
  cases op with
  | plus => exact .inl ⟨.plus, rfl⟩
  | minus => exact .inl ⟨.minus, rfl⟩
  | times => exact .inr (.inl ⟨.times, rfl⟩)
  | divide => exact .inr (.inl ⟨.divide, rfl⟩)
  | modulo => exact .inr (.inl ⟨.modulo, rfl⟩)
  | power => exact .inr (.inr rfl)

inductive Phrase : Rank → Type
  | sum (left : Phrase .sum) (sign : SumSign) (right : Phrase .product) : Phrase .sum
  | ofProduct (whole : Phrase .product) : Phrase .sum
  | product (left : Phrase .product) (sign : ProductSign) (right : Phrase .power) : Phrase .product
  | percent (operand : Phrase .product) : Phrase .product
  | ofPower (whole : Phrase .power) : Phrase .product
  | power (base : Phrase .atom) (exponent : Phrase .power) : Phrase .power
  | ofAtom (whole : Phrase .atom) : Phrase .power
  | number (value : Float) : Phrase .atom
  /-- A name without an argument. -/
  | bare (name : String) : Phrase .atom
  | call (name : String) (argument : Phrase .sum) : Phrase .atom
  | group (inner : Phrase .sum) : Phrase .atom

namespace Phrase

def tokens : {rank : Rank} → Phrase rank → List Token
  | _, sum left sign right => left.tokens ++ .operator (.binary sign.operator) :: right.tokens
  | _, ofProduct whole => whole.tokens
  | _, product left sign right => left.tokens ++ .operator (.binary sign.operator) :: right.tokens
  | _, percent operand => operand.tokens ++ [.operator .percent]
  | _, ofPower whole => whole.tokens
  | _, power base exponent => base.tokens ++ .operator (.binary .power) :: exponent.tokens
  | _, ofAtom whole => whole.tokens
  | _, number value => [.number value]
  | _, bare name => [.name name]
  | _, call name argument => .name name :: .opening :: argument.tokens ++ [.closing]
  | _, group inner => .opening :: inner.tokens ++ [.closing]

theorem tokens_length_pos {rank : Rank} (phrase : Phrase rank) : 0 < phrase.tokens.length := by
  induction phrase with
  | ofProduct _ ih | ofPower _ ih | ofAtom _ ih => exact ih
  | _ => simp [tokens, ← Nat.add_assoc]

def ordered : {rank : Rank} → Phrase rank → List Token
  | _, sum left sign right => left.ordered ++ right.ordered ++ [.operator (.binary sign.operator)]
  | _, ofProduct whole => whole.ordered
  | _, product left sign right =>
    left.ordered ++ right.ordered ++ [.operator (.binary sign.operator)]
  | _, percent operand => operand.ordered ++ [.operator .percent]
  | _, ofPower whole => whole.ordered
  | _, power base exponent => base.ordered ++ exponent.ordered ++ [.operator (.binary .power)]
  | _, ofAtom whole => whole.ordered
  | _, number value => [.number value]
  | _, bare name => [.name name]
  | _, call name argument => argument.ordered ++ [.name name]
  | _, group inner => inner.ordered

/-- The names in the phrase that have no argument. -/
def bareNames : {rank : Rank} → Phrase rank → List String
  | _, sum left _ right => left.bareNames ++ right.bareNames
  | _, ofProduct whole => whole.bareNames
  | _, product left _ right => left.bareNames ++ right.bareNames
  | _, percent operand => operand.bareNames
  | _, ofPower whole => whole.bareNames
  | _, power base exponent => base.bareNames ++ exponent.bareNames
  | _, ofAtom whole => whole.bareNames
  | _, number _ => []
  | _, bare name => [name]
  | _, call _ argument => argument.bareNames
  | _, group inner => inner.bareNames

/-- The value of the phrase, or the first fault on the way to it: the left operand comes before the
right one, both before the operator, and an argument before its function is looked up. -/
def value (angle : Angle) : {rank : Rank} → Phrase rank → Except Fault Float
  | _, sum left sign right => do
    let a ← left.value angle
    let b ← right.value angle
    return sign.combine a b
  | _, ofProduct whole => whole.value angle
  | _, product left sign right => do
    let a ← left.value angle
    let b ← right.value angle
    sign.combine a b
  | _, percent operand => do
    let a ← operand.value angle
    return a / 100.0
  | _, ofPower whole => whole.value angle
  | _, power base exponent => do
    let a ← base.value angle
    let b ← exponent.value angle
    return Float.pow a b
  | _, ofAtom whole => whole.value angle
  | _, number value => return value
  | _, bare name => throw (.unknownSymbol name)
  | _, call name argument => do
    let a ← argument.value angle
    match UnaryFunction.named? name with
    | some function => return function.apply angle a
    | none => throw (.unknownSymbol name)
  | _, group inner => inner.value angle

theorem value_call_of_named {name : String} {function : UnaryFunction}
    (named : UnaryFunction.named? name = some function) (argument : Phrase .sum) (angle : Angle) :
    (call name argument).value angle = (argument.value angle).map (function.apply angle) := by
  rw [value, named]
  cases argument.value angle <;> rfl

theorem value_call_of_unnamed {name : String} (unnamed : UnaryFunction.named? name = none)
    (argument : Phrase .sum) (angle : Angle) : (call name argument).value angle =
      argument.value angle >>= fun _ => .error (.unknownSymbol name) := by
  rw [value, unnamed]
  rfl

end Phrase

end DeskCalculator.Infix
