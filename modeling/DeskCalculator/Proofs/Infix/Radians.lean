import DeskCalculator.Proofs.Infix.Evaluation
import DeskCalculator.Proofs.Postfix.Replacement
set_option autoImplicit false

/-!
# Degrees written out in radians

A phrase that is meant in degrees can be written so that it has the same value in radians: the
argument of a trigonometric function is converted to radians, the result of an inverse one to
degrees, and all else stays as it is. The conversions are written as a calculator in degrees carries
them out, so that each rounding is the same.
-/

namespace DeskCalculator.Infix

namespace Phrase

def scaled (atom : Phrase .atom) (factor divisor : Float) : Phrase .sum :=
  .ofProduct <| .product (.product (.ofPower (.ofAtom atom)) .times (.ofAtom (.number factor)))
    .divide (.ofAtom (.number divisor))

/-- A call that is meant in degrees, as it is written in radians. -/
def callInRadians (name : String) (argument : Phrase .sum) : Phrase .atom :=
  match UnaryFunction.named? name with
  | some .sin | some .cos | some .tan => .call name (scaled (.group argument) pi 180.0)
  | some .asin | some .acos | some .atan => .group (scaled (.call name argument) 180.0 pi)
  | _ => .call name argument

def inRadians : {rank : Rank} → Phrase rank → Phrase rank
  | _, sum left sign right => .sum left.inRadians sign right.inRadians
  | _, ofProduct whole => .ofProduct whole.inRadians
  | _, product left sign right => .product left.inRadians sign right.inRadians
  | _, percent operand => .percent operand.inRadians
  | _, ofPower whole => .ofPower whole.inRadians
  | _, power base exponent => .power base.inRadians exponent.inRadians
  | _, ofAtom whole => .ofAtom whole.inRadians
  | _, number value => .number value
  | _, bare name => .bare name
  | _, call name argument => callInRadians name argument.inRadians
  | _, group inner => .group inner.inRadians

end Phrase

open Phrase

theorem value_scaled (atom : Phrase .atom) (factor : Float) {divisor : Float}
    (some : (divisor == 0.0) = false) (angle : Angle) :
    (scaled atom factor divisor).value angle =
      (atom.value angle).map fun a => a * factor / divisor := by
  rw [scaled, Phrase.value, Phrase.value, Phrase.value, Phrase.value, Phrase.value]
  cases atom.value angle with
  | error fault => rfl
  | ok a =>
    change (if divisor == 0.0 then _ else Except.ok (a * factor / divisor)) = _
    rw [some]
    rfl

theorem halfTurn_ne_zero : ((180.0 : Float) == 0.0) = false := by
  decide +kernel

theorem pi_ne_zero : (pi == 0.0) = false := by
  decide +kernel

theorem value_call (name : String) (argument : Phrase .sum) (angle : Angle) :
    (call name argument).value angle = argument.value angle >>= fun a =>
      match UnaryFunction.named? name with
      | some function => .ok (function.apply angle a)
      | none => .error (.unknownSymbol name) :=
  rfl

theorem value_callInRadians (name : String) (argument : Phrase .sum) :
    (callInRadians name argument).value .radians = argument.value .radians >>= fun a =>
      match UnaryFunction.named? name with
      | some function => .ok (function.apply .degrees a)
      | none => .error (.unknownSymbol name) := by
  have converted : ∀ a : Phrase .sum, (Phrase.group a).value .radians = a.value .radians :=
    fun _ => rfl
  rw [callInRadians]
  cases named : UnaryFunction.named? name with
  | none => rw [value_call, named]
  | some function =>
    cases function with
    | sin | cos | tan =>
      simp only [value_call, value_scaled _ _ halfTurn_ne_zero, converted, named]
      cases argument.value .radians <;> rfl
    | asin | acos | atan =>
      simp only [converted, value_scaled _ _ pi_ne_zero, value_call, named]
      cases argument.value .radians <;> rfl
    | _ => rw [value_call, named]; rfl

theorem value_inRadians {rank : Rank} (phrase : Phrase rank) :
    phrase.inRadians.value .radians = phrase.value .degrees := by
  induction phrase with
  | sum left sign right ihLeft ihRight => rw [inRadians, Phrase.value, ihLeft, ihRight]; rfl
  | product left sign right ihLeft ihRight => rw [inRadians, Phrase.value, ihLeft, ihRight]; rfl
  | power base exponent ihBase ihExponent => rw [inRadians, Phrase.value, ihBase, ihExponent]; rfl
  | percent operand ih => rw [inRadians, Phrase.value, ih]; rfl
  | ofProduct whole ih | ofPower whole ih | ofAtom whole ih | group whole ih => exact ih
  | number value | bare name => rfl
  | call name argument ih => rw [inRadians, value_callInRadians, ih]; rfl

theorem bareNames_callInRadians (name : String) (argument : Phrase .sum) :
    (callInRadians name argument).bareNames = argument.bareNames := by
  rw [callInRadians]
  split <;> simp [scaled, bareNames]

theorem bareNames_inRadians {rank : Rank} (phrase : Phrase rank) :
    phrase.inRadians.bareNames = phrase.bareNames := by
  induction phrase with
  | sum left _ right ihLeft ihRight | product left _ right ihLeft ihRight
  | power left right ihLeft ihRight => rw [inRadians, bareNames, ihLeft, ihRight, bareNames]
  | percent whole ih | ofProduct whole ih | ofPower whole ih | ofAtom whole ih | group whole ih =>
    exact ih
  | number value | bare name => rfl
  | call name argument ih => exact (bareNames_callInRadians name _).trans ih

theorem value_tokens (phrase : Phrase .sum) (closed : phrase.bareNames = []) (angle : Angle) :
    Postfix.value angle phrase.tokens = phrase.value angle := by
  rw [Postfix.value, ofTokens_tokens]
  exact evaluate_ordered phrase closed angle

/-- A phrase without bare names has the same value in degrees, or the same fault, as what is written
for it in radians. -/
theorem degrees_in_radians (phrase : Phrase .sum) (closed : phrase.bareNames = []) :
    Postfix.value .degrees phrase.tokens = Postfix.value .radians phrase.inRadians.tokens := by
  have still : phrase.inRadians.bareNames = [] := (bareNames_inRadians phrase).trans closed
  rw [value_tokens phrase closed, value_tokens phrase.inRadians still, value_inRadians]

/-- Both conversions are needed in `sin(asin(x))`, each in its own place. -/
theorem degrees_in_radians_nested : ∃ phrase : Phrase .sum, phrase.bareNames = [] ∧
    phrase.tokens = [.name "sin", .opening, .name "asin", .opening, .number 0.5, .closing,
      .closing] ∧
    phrase.inRadians.tokens = [.name "sin", .opening, .opening, .opening, .name "asin", .opening,
      .number 0.5, .closing, .operator (.binary .times), .number 180.0, .operator (.binary .divide),
      .number pi, .closing, .closing, .operator (.binary .times), .number pi,
      .operator (.binary .divide), .number 180.0, .closing] ∧
    Postfix.value .degrees phrase.tokens = Postfix.value .radians phrase.inRadians.tokens := by
  have sine : UnaryFunction.named? "sin" = some .sin := by cbv
  have inverse : UnaryFunction.named? "asin" = some .asin := by cbv
  let call (name : String) (argument : Phrase .sum) : Phrase .sum :=
    .ofProduct (.ofPower (.ofAtom (.call name argument)))
  let phrase := call "sin" (call "asin" (.ofProduct (.ofPower (.ofAtom (.number 0.5)))))
  refine ⟨phrase, rfl, rfl, ?_, degrees_in_radians phrase rfl⟩
  simp only [phrase, call, inRadians, callInRadians, sine, inverse, scaled]
  rfl

end DeskCalculator.Infix
