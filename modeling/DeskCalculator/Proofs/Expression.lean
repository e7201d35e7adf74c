import DeskCalculator.Expression
import DeskCalculator.Proofs.Lexeme.Parentheses
import DeskCalculator.Proofs.Postfix.Replacement
set_option autoImplicit false

namespace DeskCalculator.Expression

theorem value_eq_bind (angle : Angle) (text : String) :
    value angle text = tokenize text >>= Postfix.value angle := by
  rw [value, workOut]
  cases tokenize text with
  | error fault => rfl
  | ok tokens =>
    change Except.map _ (Postfix.ofTokens tokens >>= fun ordered => _) =
      (Postfix.ofTokens tokens >>= Postfix.evaluate angle)
    cases Postfix.ofTokens tokens with
    | error fault => rfl
    | ok ordered =>
      change Except.map _ (Postfix.evaluate angle ordered >>= fun value => _) =
        Postfix.evaluate angle ordered
      cases Postfix.evaluate angle ordered <;> rfl

theorem value_eq_ok_iff {angle : Angle} {text : String} {v : Float} :
    value angle text = .ok v ↔
      ∃ tokens, tokenize text = .ok tokens ∧ Postfix.value angle tokens = .ok v := by
  rw [value_eq_bind]
  constructor
  · exact bind_eq_ok
  · rintro ⟨tokens, read, worth⟩
    rw [read]
    exact worth

theorem isBalanced_of_value {angle : Angle} {text : String} {v : Float}
    (h : value angle text = .ok v) : Display.isBalanced 0 text.toList = true := by
  obtain ⟨tokens, read, worth⟩ := value_eq_ok_iff.mp h
  obtain ⟨ordered, converted, -⟩ := Postfix.value_eq_ok worth
  have balanced := (Postfix.convert_isOk_iff [] _).mp ⟨ordered, converted⟩
  exact (Display.isBalanced_iff_balanced read).mpr balanced

theorem value_of_workOut {angle : Angle} {text : String} {outcome : Outcome}
    (h : workOut angle text = .ok outcome) : value angle text = .ok outcome.value := by
  rw [value, h]
  rfl

/-- Texts with the same tokens have the same outcome, if they have one. -/
theorem workOut_congr {first second : String}
    (same : ∀ tokens, tokenize first = .ok tokens ↔ tokenize second = .ok tokens) (angle : Angle)
    (outcome : Outcome) :
    workOut angle first = .ok outcome ↔ workOut angle second = .ok outcome := by
  have step : ∀ {a b : String}, (∀ tokens, tokenize a = .ok tokens → tokenize b = .ok tokens) →
      workOut angle a = .ok outcome → workOut angle b = .ok outcome := by
    intro a b read worked
    obtain ⟨tokens, tokenized, others⟩ := bind_eq_ok worked
    rw [workOut, read tokens tokenized]
    exact others
  exact ⟨step fun tokens => (same tokens).mp, step fun tokens => (same tokens).mpr⟩

theorem workOut_trim_eq_ok {angle : Angle} {text : String} {outcome : Outcome} :
    workOut angle (Text.trim text) = .ok outcome ↔ workOut angle text = .ok outcome :=
  workOut_congr (fun _ => tokenize_trim_eq_ok) angle outcome

end DeskCalculator.Expression
