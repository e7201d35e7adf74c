import DeskCalculator.Keypad
import DeskCalculator.Proofs.Recovery
set_option autoImplicit false

namespace DeskCalculator

namespace Display

theorem toggleSign?_eq_none_iff (display : String) : toggleSign? display = none ↔
    Text.trim display = "" ∨ Text.trim display = "0" ∨ Text.trim display = failure := by
  rw [toggleSign?]
  split
  · rename_i nothing
    exact iff_of_true rfl nothing
  · rename_i something
    split <;> exact iff_of_false (Option.some_ne_none _) something

end Display

namespace Calculator
open Binary64

/-- Whether an action asks for the keyboard. Deleting and overwriting never do, and the other actions
do if they find something to do. -/
def asksForFocus (c : Calculator) : Action → Bool
  | .insert _ | .clear | .toggleAngle => true
  | .deleteLast | .overwrite _ => false
  | .toggleSign => (Display.toggleSign? c.display).isSome
  | .recallAnswer => c.answer.any isFinite
  | .evaluate => Text.trim c.display != ""

theorem wantsFocus_toggleSign (c : Calculator) :
    c.toggleSign.wantsFocus = (c.wantsFocus || (Display.toggleSign? c.display).isSome) := by
  rw [toggleSign]
  cases Display.toggleSign? c.display with
  | none => exact (Bool.or_false _).symm
  | some display => exact (Bool.or_true _).symm

theorem wantsFocus_recallAnswer (c : Calculator) :
    c.recallAnswer.wantsFocus = (c.wantsFocus || c.answer.any isFinite) := by
  have recalls : (c.answer.bind Display.readable?).isSome = c.answer.any isFinite := by
    cases c.answer with
    | none => rfl
    | some x => exact Display.readable?_isSome x
  rw [recallAnswer, ← recalls]
  cases c.answer.bind Display.readable? with
  | none => exact (Bool.or_false _).symm
  | some text => exact (Bool.or_true _).symm

theorem wantsFocus_evaluate (c : Calculator) :
    c.evaluate.wantsFocus = (c.wantsFocus || Text.trim c.display != "") := by
  rcases c.blank_or_gives_or_fails with blank | ⟨outcome, gives⟩ | ⟨fault, fails⟩
  · rw [evaluate_of_blank blank, blank, bne_self_eq_false, Bool.or_false]
  · rw [evaluate_of_gives gives, bne_iff_ne.mpr gives.some, Bool.or_true]
  · rw [evaluate_of_fails fails, bne_iff_ne.mpr fails.1, Bool.or_true]

theorem wantsFocus_perform (c : Calculator) (action : Action) :
    (c.perform action).wantsFocus = (c.wantsFocus || c.asksForFocus action) := by
  cases action with
  | insert | clear | toggleAngle => exact (Bool.or_true _).symm
  | deleteLast | overwrite => exact (Bool.or_false _).symm
  | toggleSign => exact c.wantsFocus_toggleSign
  | recallAnswer => exact c.wantsFocus_recallAnswer
  | evaluate => exact c.wantsFocus_evaluate

theorem asksForFocus_of_other {label : String} (delete : label ≠ "DEL") (equals : label ≠ "=")
    (sign : label ≠ "±") (last : label ≠ "ANS") (c : Calculator) :
    c.asksForFocus (Keypad.action label) = true := by
  fun_cases Keypad.action label with
  | case2 => exact absurd rfl delete
  | case3 => exact absurd rfl equals
  | case4 => exact absurd rfl last
  | case5 => exact absurd rfl sign
  | _ => rfl

theorem asksForFocus_key_eq_false_iff (c : Calculator) (label : String) :
    c.asksForFocus (Keypad.action label) = false ↔
      label = "DEL" ∨
      (label = "=" ∧ Text.trim c.display = "") ∨
      (label = "±" ∧ (Text.trim c.display = "" ∨ Text.trim c.display = "0" ∨
        Text.trim c.display = Display.failure)) ∨
      (label = "ANS" ∧ c.answer.any isFinite = false) := by
  by_cases delete : label = "DEL"
  · subst delete
    exact iff_of_true rfl (.inl rfl)
  by_cases equals : label = "="
  · subst equals
    have asks : c.asksForFocus (Keypad.action "=") = false ↔ Text.trim c.display = "" :=
      bne_eq_false_iff_eq
    simpa using asks
  by_cases sign : label = "±"
  · subst sign
    have asks : c.asksForFocus (Keypad.action "±") = false ↔
        Display.toggleSign? c.display = none :=
      Option.isSome_eq_false_iff.trans Option.isNone_iff_eq_none
    rw [Display.toggleSign?_eq_none_iff] at asks
    simpa using asks
  by_cases last : label = "ANS"
  · subst last
    have asks : c.asksForFocus (Keypad.action "ANS") = c.answer.any isFinite := rfl
    simpa using asks
  · have asks := asksForFocus_of_other delete equals sign last c
    simp [asks, delete, equals, sign, last]

/-- A key asks for the keyboard unless it deletes, or there is nothing to evaluate, no sign to change
or no last result to enter. -/
theorem wantsFocus_press (c : Calculator) (label : String) :
    (c.press label).wantsFocus = (c.wantsFocus || c.asksForFocus (Keypad.action label)) ∧
    (c.asksForFocus (Keypad.action label) = false ↔
      label = "DEL" ∨
      (label = "=" ∧ Text.trim c.display = "") ∨
      (label = "±" ∧ (Text.trim c.display = "" ∨ Text.trim c.display = "0" ∨
        Text.trim c.display = Display.failure)) ∨
      (label = "ANS" ∧ c.answer.any isFinite = false)) :=
  ⟨c.wantsFocus_perform _, c.asksForFocus_key_eq_false_iff label⟩

/-- The key that deletes leaves the request that was used up before. -/
theorem no_request_after_deleting : ∃ c : Calculator,
    c = { ({} : Calculator).press "7" with wantsFocus := false } ∧ "DEL" ∈ Keypad.labels ∧
      (c.press "DEL").wantsFocus = false ∧ (c.press "DEL").display = "" := by
  refine ⟨_, rfl, by decide, ?_⟩
  decide

end Calculator

end DeskCalculator
