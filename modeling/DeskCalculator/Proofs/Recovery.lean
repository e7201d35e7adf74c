import DeskCalculator.Proofs.History
import DeskCalculator.Proofs.Negation
set_option autoImplicit false

/-!
# A failure leaves no trace

A display that shows a failure is treated like an empty one. Whatever is done with a calculator
after a failed evaluation, and with the same calculator after its display has been cleared, leads to
the same state, but that the failure stays on the display until something is put there.
-/

namespace DeskCalculator

namespace Display

theorem insert_failure (text : String) : insert failure text = insert "" text := by
  rw [insert, if_pos (.inr rfl), insert, ite_self]

theorem deleteLast_failure : deleteLast failure = deleteLast "" := by
  decide

theorem readable?_isSome (x : Float) : (readable? x).isSome = Binary64.isFinite x := by
  cases finite : Binary64.isFinite x with
  | false =>
    rw [readable?, finite]
    rfl
  | true =>
    rw [readable?_of_isFinite finite]
    rfl

end Display

namespace Calculator
open Binary64

structure ShowsFailure (c : Calculator) : Prop where
  display : c.display = Display.failure
  working : c.working = {}
  focus : c.wantsFocus = true

variable {c : Calculator}

theorem Fails.showsFailure {fault : Fault} (failed : c.Fails fault) : c.evaluate.ShowsFailure := by
  rw [evaluate_of_fails failed]
  exact ⟨rfl, rfl, rfl⟩

theorem ShowsFailure.fails (h : c.ShowsFailure) : c.Fails (.unknownSymbol "error") := by
  rw [Fails, h.display, Display.trim_failure]
  exact ⟨by decide, map_eq_error_iff.mp (Display.value_failure c.angle)⟩

theorem ShowsFailure.evaluate_eq (h : c.ShowsFailure) : c.evaluate = c := by
  rw [evaluate_of_fails h.fails, ← h.display, ← h.working, ← h.focus]

theorem toggleSign_of_none (nothing : Display.toggleSign? c.display = none) : c.toggleSign = c := by
  rw [toggleSign, nothing]

theorem ShowsFailure.toggleSign_eq (h : c.ShowsFailure) : c.toggleSign = c := by
  have nothing : Display.toggleSign? Display.failure = none := by cbv
  exact toggleSign_of_none (by rw [h.display, nothing])

theorem ShowsFailure.insert_eq (h : c.ShowsFailure) (text : String) :
    c.insert text = c.clear.insert text := by
  rw [insert, h.display, Display.insert_failure]
  rfl

theorem evaluate_clear (c : Calculator) : c.clear.evaluate = c.clear := by
  have blank : Text.trim "" = "" := by cbv
  exact evaluate_of_blank blank

theorem toggleSign_clear (c : Calculator) : c.clear.toggleSign = c.clear := by
  have nothing : Display.toggleSign? "" = none := by cbv
  exact toggleSign_of_none nothing

/-- Whether an action puts something on the display. Recalling the last result does if there is one
and it is finite. -/
def enters (c : Calculator) : Action → Bool
  | .insert _ => true
  | .overwrite _ => true
  | .recallAnswer => c.answer.any isFinite
  | _ => false

def entersAny (c : Calculator) : List Move → Bool
  | [] => false
  | move :: moves => c.enters move.action || entersAny (c.make move) moves

/-- What an action makes of a failure it makes of an empty display, or else the failure stays on the
display and the empty display empty. -/
theorem ShowsFailure.perform (h : c.ShowsFailure) (action : Action) :
    c.perform action = c.clear.perform action ∨
      ((c.perform action).ShowsFailure ∧
        c.clear.perform action = (c.perform action).clear ∧ c.enters action = false) := by
  cases action with
  | insert text => exact .inl (h.insert_eq text)
  | clear => exact .inl rfl
  | deleteLast =>
    left
    change c.deleteLast = c.clear.deleteLast
    rw [deleteLast, h.display, Display.deleteLast_failure, h.focus]
    rfl
  | toggleSign =>
    right
    change c.toggleSign.ShowsFailure ∧ c.clear.toggleSign = c.toggleSign.clear ∧ _
    rw [h.toggleSign_eq, toggleSign_clear]
    exact ⟨h, rfl, rfl⟩
  | recallAnswer =>
    change c.recallAnswer = c.clear.recallAnswer ∨
      (c.recallAnswer.ShowsFailure ∧ c.clear.recallAnswer = c.recallAnswer.clear ∧ _)
    have same : c.clear.answer = c.answer := rfl
    rw [recallAnswer, recallAnswer, same]
    cases recalled : c.answer.bind Display.readable? with
    | some text => exact .inl (h.insert_eq text)
    | none =>
      refine .inr ⟨h, rfl, ?_⟩
      rw [enters, Option.any_eq_false]
      intro x answer
      rw [answer] at recalled
      rw [← Display.readable?_isSome, Option.isSome_eq_false_iff, Option.isNone_iff_eq_none]
      exact recalled
  | evaluate =>
    right
    change c.evaluate.ShowsFailure ∧ c.clear.evaluate = c.evaluate.clear ∧ _
    rw [h.evaluate_eq, evaluate_clear]
    exact ⟨h, rfl, rfl⟩
  | toggleAngle => exact .inr ⟨⟨h.display, h.working, rfl⟩, rfl, rfl⟩
  | overwrite text =>
    left
    change { c with display := text } = { c with display := text, wantsFocus := true }
    rw [h.focus]

/-- A run from a failure and the run of the same moves from an empty display come to the same state,
or nothing has been put on the display yet. -/
theorem ShowsFailure.run (h : c.ShowsFailure) (moves : List Move) :
    c.run moves = c.clear.run moves ∨
      ((c.run moves).ShowsFailure ∧
        c.clear.run moves = (c.run moves).clear ∧ c.entersAny moves = false) := by
  induction moves generalizing c with
  | nil => exact .inr ⟨h, rfl, rfl⟩
  | cons move moves ih =>
    rw [run_cons, run_cons, entersAny, make_eq_perform]
    rcases h.perform move.action with same | ⟨stays, cleared, enters⟩
    · left
      rw [same]
    · rw [cleared, enters, Bool.false_or]
      exact ih stays

/-- A failed evaluation leaves no trace: whatever is done after it, and after it and the key that
clears the display, gives the same angle unit, the same last result and the same working. The
displays differ at first, the one showing the failure and the other nothing, and at most as long as
nothing has been put on them. From then on the states are the same. -/
theorem failure_leaves_no_trace (c : Calculator) (fault : Fault) (failed : c.Fails fault)
    (moves : List Move) :
    let first := c.evaluate.run moves
    let second := (c.evaluate.press "C").run moves
    (c.evaluate.display = Display.failure ∧ (c.evaluate.press "C").display = "") ∧
    (first.angle = second.angle ∧ first.answer = second.answer ∧ first.working = second.working) ∧
    (first.display = second.display ∨
      first.display = Display.failure ∧ second.display = "" ∧
        c.evaluate.entersAny moves = false) ∧
    (c.evaluate.entersAny moves = true → first = second) := by
  intro first second
  have shown := failed.showsFailure
  refine ⟨⟨shown.display, rfl⟩, ?_⟩
  rcases shown.run moves with same | ⟨stillShown, empty, nothing⟩
  · change first = second at same
    rw [same]
    exact ⟨⟨rfl, rfl, rfl⟩, .inl rfl, fun _ => rfl⟩
  · change second = first.clear at empty
    rw [empty]
    refine ⟨⟨rfl, rfl, rfl⟩, .inr ⟨stillShown.display, rfl, nothing⟩, fun entered => ?_⟩
    cases nothing.symm.trans entered

theorem failure_leaves_no_trace_unclosed : ∃ (c : Calculator) (fault : Fault) (moves : List Move),
    c.display = "(1" ∧ c.answer.isSome ∧ c.Fails fault ∧
      moves = [.press "=", .press "ANS", .press "+"] ∧ c.evaluate.entersAny moves = true ∧
      c.evaluate.run moves = (c.evaluate.press "C").run moves := by
  let c : Calculator := { display := "(1", answer := some 2.5 }
  let moves : List Move := [.press "=", .press "ANS", .press "+"]
  have trimmed : Text.trim "(1" = "(1" := by cbv
  have scanned : Lexeme.scan 0 "(1".toList = .ok [.opening, .numeral ⟨['1'], []⟩] := by cbv
  have failed : c.Fails .unbalancedParentheses := by
    change Text.trim "(1" ≠ "" ∧ Expression.workOut .degrees (Text.trim "(1") = _
    rw [trimmed, Expression.workOut, tokenize, scanned]
    exact ⟨by decide, rfl⟩
  have plus : c.evaluate.entersAny moves = true := by
    have inserts : Keypad.action "+" = .insert "+" := by decide
    simp [moves, entersAny, enters, Move.action, inserts]
  obtain ⟨-, -, -, same⟩ := failure_leaves_no_trace c _ failed moves
  exact ⟨c, _, moves, rfl, rfl, failed, rfl, plus, same plus⟩

end Calculator

end DeskCalculator
