import DeskCalculator.Calculator
import DeskCalculator.Proofs.Display
set_option autoImplicit false

namespace DeskCalculator.Calculator
open Binary64 Infix

def Gives (c : Calculator) (outcome : Outcome) : Prop :=
  Expression.workOut c.angle (Text.trim c.display) = .ok outcome

theorem workOut_empty (angle : Angle) (outcome : Outcome) :
    Expression.workOut angle "" ≠ .ok outcome := by
  intro worked
  have scanned : tokenize "" = .ok [] := by
    rw [tokenize]
    exact congrArg (Except.map Lexeme.tokens) (Lexeme.scan_nil 0)
  rw [Expression.workOut, scanned] at worked
  cases worked

theorem Gives.some {c : Calculator} {outcome : Outcome} (h : c.Gives outcome) :
    Text.trim c.display ≠ "" := by
  intro none
  rw [Gives, none] at h
  exact workOut_empty c.angle outcome h

theorem evaluate_of_gives {c : Calculator} {outcome : Outcome} (h : c.Gives outcome) :
    c.evaluate = { c with
      display := Display.ofResult outcome.value
      answer := .some outcome.value
      working := outcome.working
      wantsFocus := true } := by
  rw [evaluate, if_neg h.some, h]

theorem evaluate_of_blank {c : Calculator} (blank : Text.trim c.display = "") : c.evaluate = c := by
  rw [evaluate, if_pos blank]

/-- Whether evaluating the display fails, and why. A blank display is not evaluated. -/
def Fails (c : Calculator) (fault : Fault) : Prop :=
  Text.trim c.display ≠ "" ∧ Expression.workOut c.angle (Text.trim c.display) = .error fault

theorem evaluate_of_fails {c : Calculator} {fault : Fault} (h : c.Fails fault) :
    c.evaluate = { c with display := Display.failure, working := {}, wantsFocus := true } := by
  rw [evaluate, if_neg h.1, h.2]

theorem blank_or_gives_or_fails (c : Calculator) :
    Text.trim c.display = "" ∨ (∃ outcome, c.Gives outcome) ∨ ∃ fault, c.Fails fault := by
  by_cases blank : Text.trim c.display = ""
  · exact .inl blank
  · right
    cases worked : Expression.workOut c.angle (Text.trim c.display) with
    | ok outcome => exact .inl ⟨outcome, worked⟩
    | error fault => exact .inr ⟨fault, blank, worked⟩

theorem display_iterate_toggleAngle (c : Calculator) (toggles : Nat) :
    (toggleAngle^[toggles] c).display = c.display := by
  induction toggles with
  | zero => rfl
  | succ toggles ih =>
    rw [Function.iterate_succ_apply']
    exact ih

theorem insert_empty (text : String) : Display.insert "" text = text := by
  have noName : Display.endsInName "" = false := by cbv
  rw [Display.insert, ite_self, Display.join, noName, Bool.false_and]
  exact String.empty_append

theorem recallAnswer_of_readable {c : Calculator} {x : Float} {text : String}
    (answer : c.answer = some x) (readable : Display.readable? x = some text) :
    c.recallAnswer = c.insert text := by
  rw [recallAnswer, answer, Option.bind_some, readable]

theorem display_recallAnswer {c : Calculator} {x : Float} (answer : c.answer = some x)
    (finite : isFinite x = true) : c.clear.recallAnswer.display = Display.ofResult x := by
  have readable : Display.readable? x = some (Display.ofResult x) := by
    rw [Display.ofResult_of_isFinite finite, Display.readable?_of_isFinite finite]
  have cleared : c.clear.answer = some x := answer
  rw [recallAnswer_of_readable cleared readable]
  exact insert_empty _

/-- A finite result stays on the display when it is evaluated again, after any number of changes of
the angle unit, and when it is recalled into an empty display and evaluated there. Evaluating once
more after a second evaluation changes nothing at all. -/
theorem result_evaluated_again (c : Calculator) (outcome : Outcome) (h : c.Gives outcome)
    (finite : isFinite outcome.value = true) :
    (∀ toggles, (∃ again, (toggleAngle^[toggles] c.evaluate).Gives again) ∧
      (toggleAngle^[toggles] c.evaluate).evaluate.display = c.evaluate.display) ∧
    c.evaluate.clear.recallAnswer.evaluate.display = c.evaluate.display ∧
    c.evaluate.evaluate.evaluate = c.evaluate.evaluate := by
  obtain ⟨value, working, -, shown, worked⟩ := Display.result_shown_again finite
  have first := evaluate_of_gives h
  have display : c.evaluate.display = Display.ofResult outcome.value := by rw [first]
  -- whatever shows the result is evaluated to the same value
  have gives : ∀ d : Calculator, d.display = c.evaluate.display → d.Gives ⟨value, working⟩ := by
    intro d same
    rw [Gives, same, display]
    exact worked d.angle
  have stays : ∀ d : Calculator, d.display = c.evaluate.display →
      d.evaluate.display = c.evaluate.display := by
    intro d same
    rw [evaluate_of_gives (gives d same), display]
    exact shown
  refine ⟨fun toggles => ?_, ?_, ?_⟩
  · have same := display_iterate_toggleAngle c.evaluate toggles
    exact ⟨⟨_, gives _ same⟩, stays _ same⟩
  · apply stays
    rw [display]
    exact display_recallAnswer (by rw [first]) finite
  · have second := evaluate_of_gives (gives _ rfl)
    have third := evaluate_of_gives (gives _ (stays _ rfl))
    rw [third, second]

theorem result_evaluated_again_third : ∃ (c : Calculator) (outcome : Outcome),
    c.display = "neg(1/3)" ∧ c.Gives outcome ∧ isFinite outcome.value = true ∧
      (∀ toggles, (∃ again, (toggleAngle^[toggles] c.evaluate).Gives again) ∧
        (toggleAngle^[toggles] c.evaluate).evaluate.display = c.evaluate.display) ∧
      c.evaluate.clear.recallAnswer.evaluate.display = c.evaluate.display ∧
      c.evaluate.evaluate.evaluate = c.evaluate.evaluate := by
  let one : Float := (Literal.mk ['1'] []).value
  let three : Float := (Literal.mk ['3'] []).value
  let c : Calculator := { display := "neg(1/3)" }
  let quotient : Phrase .sum :=
    .ofProduct (.product (.ofPower (.ofAtom (.number one))) .divide (.ofAtom (.number three)))
  let phrase : Phrase .sum := .ofProduct (.ofPower (.ofAtom (.call "neg" quotient)))
  have divisor : (three == 0.0) = false := by decide +kernel
  have value : phrase.value .degrees = .ok (-(one / three)) := by
    simp [phrase, quotient, Phrase.value, ProductSign.combine, divisor, Display.named?_neg,
      UnaryFunction.apply, bind, Except.bind, pure, Except.pure]
  have read : tokenize "neg(1/3)" = .ok phrase.tokens := by
    have scanned : Lexeme.scan 0 "neg(1/3)".toList = .ok
        [.word ['n', 'e', 'g'], .opening, .numeral ⟨['1'], []⟩, .sign (.binary .divide),
          .numeral ⟨['3'], []⟩, .closing] := by cbv
    rw [tokenize, scanned]
    rfl
  have trimmed : Text.trim "neg(1/3)" = "neg(1/3)" := by cbv
  have gives : c.Gives
      ⟨-(one / three), ⟨Token.render phrase.tokens, Token.render phrase.ordered⟩⟩ := by
    change Expression.workOut .degrees (Text.trim "neg(1/3)") = _
    rw [trimmed, workOut_of_tokens rfl .degrees read, value]
    rfl
  have finite : isFinite (-(one / three)) = true := by decide +kernel
  exact ⟨c, _, rfl, gives, finite, result_evaluated_again c _ gives finite⟩

end DeskCalculator.Calculator
