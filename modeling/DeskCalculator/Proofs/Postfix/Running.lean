import DeskCalculator.Postfix.Evaluation
import DeskCalculator.Proofs.Postfix.Contents
set_option autoImplicit false

namespace DeskCalculator

namespace Token

def isNumber : Token → Bool
  | number _ => true
  | _ => false

def isBinary : Token → Bool
  | operator (.binary _) => true
  | _ => false

end Token

namespace Postfix

theorem run_cons (angle : Angle) (stack : List Float) (token : Token) (tokens : List Token) :
    run angle stack (token :: tokens) = step angle stack token >>= (run angle · tokens) := by
  rw [run]

theorem run_append (angle : Angle) (stack : List Float) (first second : List Token) :
    run angle stack (first ++ second) = run angle stack first >>= (run angle · second) := by
  induction first generalizing stack with
  | nil => rfl
  | cons token tokens ih =>
    rw [List.cons_append, run_cons, run_cons]
    cases step angle stack token with
    | error fault => rfl
    | ok after => exact ih after

theorem run_singleton (angle : Angle) (stack : List Float) (token : Token) :
    run angle stack [token] = step angle stack token := by
  rw [run_cons]
  cases step angle stack token <;> rfl

theorem step_binary (angle : Angle) (a b : Float) (stack : List Float) (op : BinaryOperator) :
    step angle (b :: a :: stack) (.operator (.binary op)) = (op.apply a b).map (· :: stack) := by
  rw [step]

theorem step_percent (angle : Angle) (a : Float) (stack : List Float) :
    step angle (a :: stack) (.operator .percent) = .ok (a / 100.0 :: stack) := by
  rw [step]

/-- A binary operator leaves one value less, a number one more, and all else as many. -/
theorem step_length {angle : Angle} {stack after : List Float} {token : Token}
    (h : step angle stack token = .ok after) :
    after.length + token.isBinary.toNat = stack.length + token.isNumber.toNat := by
  cases token with
  | number value =>
    cases h
    rfl
  | operator op =>
    cases op with
    | percent =>
      cases stack with
      | nil => cases h
      | cons a rest => cases h; rfl
    | binary op =>
      match stack with
      | [] | [_] => cases h
      | b :: a :: rest =>
        obtain ⟨value, -, rfl⟩ := map_eq_ok h
        rfl
  | opening | closing => cases h
  | name text =>
    rw [step] at h
    cases named : UnaryFunction.named? text with
    | none =>
      rw [named] at h
      cases h
    | some function =>
      rw [named] at h
      cases stack with
      | nil => cases h
      | cons a rest => cases h; rfl

theorem run_length {angle : Angle} {stack after : List Float} {tokens : List Token}
    (h : run angle stack tokens = .ok after) :
    after.length + tokens.countP Token.isBinary =
      stack.length + tokens.countP Token.isNumber := by
  induction tokens generalizing stack with
  | nil => cases h; rfl
  | cons token tokens ih =>
    rw [run_cons] at h
    obtain ⟨middle, stepped, ran⟩ := bind_eq_ok h
    have first := step_length stepped
    have others := ih ran
    rw [List.countP_cons, List.countP_cons]
    cases binary : token.isBinary <;> cases number : token.isNumber <;>
      simp [binary, number] at first ⊢ <;> omega

theorem evaluate_eq_ok {angle : Angle} {tokens : List Token} {value : Float}
    (h : evaluate angle tokens = .ok value) : run angle [] tokens = .ok [value] := by
  obtain ⟨stack, ran, last⟩ := bind_eq_ok h
  match stack, last with
  | [only], last => cases last; exact ran

end Postfix

end DeskCalculator
