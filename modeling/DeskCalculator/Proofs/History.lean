import DeskCalculator.Keypad
import DeskCalculator.Proofs.Calculator
import DeskCalculator.Proofs.Rendering
set_option autoImplicit false

namespace DeskCalculator

namespace Expression

theorem tokenize_render_of_finite {text : String} {tokens : List Token}
    (read : tokenize text = .ok tokens) (finite : ∀ token ∈ tokens, ¬ token.IsInfinite) :
    tokenize (Token.render tokens) = .ok tokens := by
  obtain ⟨lexemes, rfl, isRead⟩ := isRead_of_tokenize read
  rw [tokenize_render isRead, Lexeme.tokens_map_lexeme fun token mem =>
    ⟨isRead token mem, finite token mem⟩]

theorem workOut_eq_ok_iff {angle : Angle} {text : String} {outcome : Outcome} :
    workOut angle text = .ok outcome ↔ ∃ tokens ordered,
      tokenize text = .ok tokens ∧ Postfix.ofTokens tokens = .ok ordered ∧
        Postfix.evaluate angle ordered = .ok outcome.value ∧
          outcome.working = ⟨Token.render tokens, Token.render ordered⟩ := by
  constructor
  · intro worked
    obtain ⟨tokens, read, others⟩ := bind_eq_ok worked
    obtain ⟨ordered, converted, rest⟩ := bind_eq_ok others
    obtain ⟨value, evaluated, same⟩ := bind_eq_ok rest
    cases same
    exact ⟨tokens, ordered, read, converted, evaluated, rfl⟩
  · rintro ⟨tokens, ordered, read, converted, evaluated, rendered⟩
    obtain ⟨value, working⟩ := outcome
    cases rendered
    rw [workOut, read]
    change (Postfix.ofTokens tokens >>= fun ordered => _) = _
    rw [converted]
    change (Postfix.evaluate angle ordered >>= fun value => _) = _
    rw [evaluated]
    rfl

end Expression

inductive Move
  | press (label : String)
  | perform (action : Action)

def Move.action : Move → Action
  | press label => Keypad.action label
  | perform action => action

/-- An evaluation of a display that is not blank, with the angle unit in force. -/
structure Evaluation where
  angle : Angle
  display : String

namespace Evaluation

def result (e : Evaluation) : Except Fault Outcome :=
  Expression.workOut e.angle (Text.trim e.display)

def value? (e : Evaluation) : Option Float :=
  e.result.toOption.map Outcome.value

def working (e : Evaluation) : Working :=
  (e.result.toOption.map Outcome.working).getD {}

/-- The three steps of an evaluation that goes well. -/
structure Succeeds (e : Evaluation) (tokens ordered : List Token) (value : Float) : Prop where
  read : tokenize (Text.trim e.display) = .ok tokens
  converted : Postfix.ofTokens tokens = .ok ordered
  evaluated : Postfix.evaluate e.angle ordered = .ok value

section

variable {e : Evaluation} {outcome : Outcome} {fault : Fault}

theorem value?_of_ok (h : e.result = .ok outcome) : e.value? = some outcome.value := by
  rw [value?, h]
  rfl

theorem value?_of_error (h : e.result = .error fault) : e.value? = none := by
  rw [value?, h]
  rfl

theorem working_of_ok (h : e.result = .ok outcome) : e.working = outcome.working := by
  rw [working, h]
  rfl

theorem working_of_error (h : e.result = .error fault) : e.working = {} := by
  rw [working, h]
  rfl

theorem result_eq_ok_iff : e.result = .ok outcome ↔ ∃ tokens ordered,
    e.Succeeds tokens ordered outcome.value ∧
      outcome.working = ⟨Token.render tokens, Token.render ordered⟩ := by
  rw [result, Expression.workOut_eq_ok_iff]
  constructor
  · rintro ⟨tokens, ordered, read, converted, evaluated, rendered⟩
    exact ⟨tokens, ordered, ⟨read, converted, evaluated⟩, rendered⟩
  · rintro ⟨tokens, ordered, succeeds, rendered⟩
    exact ⟨tokens, ordered, succeeds.read, succeeds.converted, succeeds.evaluated, rendered⟩

variable {tokens ordered : List Token} {value : Float}

theorem Succeeds.result_eq (h : e.Succeeds tokens ordered value) :
    e.result = .ok ⟨value, ⟨Token.render tokens, Token.render ordered⟩⟩ :=
  result_eq_ok_iff.mpr ⟨tokens, ordered, h, rfl⟩

theorem value?_eq_some_iff :
    e.value? = some value ↔ ∃ tokens ordered, e.Succeeds tokens ordered value := by
  constructor
  · intro valued
    cases given : e.result with
    | error fault =>
      rw [value?_of_error given] at valued
      cases valued
    | ok outcome =>
      rw [value?_of_ok given, Option.some_inj] at valued
      obtain ⟨tokens, ordered, succeeds, -⟩ := result_eq_ok_iff.mp given
      rw [valued] at succeeds
      exact ⟨tokens, ordered, succeeds⟩
  · rintro ⟨tokens, ordered, succeeds⟩
    exact value?_of_ok succeeds.result_eq

/-- Where no number is infinite, what was read is evaluated in place of its text. -/
theorem Succeeds.workOut_render (h : e.Succeeds tokens ordered value)
    (finite : ∀ token ∈ tokens, ¬ token.IsInfinite) :
    Expression.workOut e.angle (Token.render tokens) =
      .ok ⟨value, ⟨Token.render tokens, Token.render ordered⟩⟩ :=
  Expression.workOut_eq_ok_iff.mpr ⟨tokens, ordered,
    Expression.tokenize_render_of_finite h.read finite, h.converted, h.evaluated, rfl⟩

end

end Evaluation

namespace Calculator

def make (c : Calculator) : Move → Calculator
  | .press label => c.press label
  | .perform action => c.perform action

def run (c : Calculator) (moves : List Move) : Calculator :=
  moves.foldl make c

def asShown (c : Calculator) : Evaluation :=
  ⟨c.angle, c.display⟩

/-- The evaluation that an action makes, if it makes one. A blank display is not evaluated. -/
def evaluation? (c : Calculator) : Action → Option Evaluation
  | .evaluate => if Text.trim c.display = "" then none else some c.asShown
  | _ => none

def evaluations (c : Calculator) : List Move → List Evaluation
  | [] => []
  | move :: moves => (c.evaluation? move.action).toList ++ evaluations (c.make move) moves

theorem make_eq_perform (c : Calculator) (move : Move) : c.make move = c.perform move.action := by
  cases move <;> rfl

theorem perform_of_edit (c : Calculator) {action : Action} (evaluates : action ≠ .evaluate)
    (toggles : action ≠ .toggleAngle) :
    ∃ display wantsFocus, c.perform action = { c with display, wantsFocus } := by
  cases action with
  | evaluate => exact absurd rfl evaluates
  | toggleAngle => exact absurd rfl toggles
  | insert | clear | deleteLast | overwrite => exact ⟨_, _, rfl⟩
  | toggleSign =>
    change ∃ display wantsFocus, c.toggleSign = _
    rw [toggleSign]
    split <;> exact ⟨_, _, rfl⟩
  | recallAnswer =>
    change ∃ display wantsFocus, c.recallAnswer = _
    rw [recallAnswer]
    split <;> exact ⟨_, _, rfl⟩

theorem memory_of_ne_evaluate (c : Calculator) {action : Action} (other : action ≠ .evaluate) :
    (c.perform action).answer = c.answer ∧ (c.perform action).working = c.working := by
  by_cases toggles : action = .toggleAngle
  · subst toggles
    exact ⟨rfl, rfl⟩
  · obtain ⟨display, wantsFocus, after⟩ := c.perform_of_edit other toggles
    rw [after]
    exact ⟨rfl, rfl⟩

theorem evaluation?_of_ne {action : Action} (other : action ≠ .evaluate) (c : Calculator) :
    c.evaluation? action = none := by
  unfold evaluation?
  split
  · exact absurd rfl other
  · rfl

theorem evaluation?_of_some {c : Calculator} (some : Text.trim c.display ≠ "") :
    c.evaluation? .evaluate = .some c.asShown :=
  if_neg some

theorem Gives.result {c : Calculator} {outcome : Outcome} (h : c.Gives outcome) :
    c.asShown.result = .ok outcome :=
  h

theorem Fails.result {c : Calculator} {fault : Fault} (h : c.Fails fault) :
    c.asShown.result = .error fault :=
  h.2

/-- The value and the working of an evaluation take the place of those before it. -/
theorem memory_perform (c : Calculator) (action : Action) :
    (c.perform action).answer =
      ((c.evaluation? action).bind Evaluation.value?).or c.answer ∧
    (c.perform action).working =
      ((c.evaluation? action).map Evaluation.working).getD c.working := by
  by_cases evaluates : action = .evaluate
  · subst evaluates
    change c.evaluate.answer = _ ∧ c.evaluate.working = _
    rcases c.blank_or_gives_or_fails with blank | ⟨outcome, gives⟩ | ⟨fault, fails⟩
    · rw [evaluate_of_blank blank, evaluation?, if_pos blank]
      exact ⟨rfl, rfl⟩
    · rw [evaluate_of_gives gives, evaluation?_of_some gives.some, Option.bind_some,
        Option.map_some, Evaluation.value?_of_ok gives.result,
        Evaluation.working_of_ok gives.result]
      exact ⟨rfl, rfl⟩
    · rw [evaluate_of_fails fails, evaluation?_of_some fails.1, Option.bind_some,
        Option.map_some, Evaluation.value?_of_error fails.result,
        Evaluation.working_of_error fails.result]
      exact ⟨rfl, rfl⟩
  · rw [evaluation?_of_ne evaluates]
    exact c.memory_of_ne_evaluate evaluates

theorem angle_evaluate (c : Calculator) : c.evaluate.angle = c.angle := by
  rcases c.blank_or_gives_or_fails with blank | ⟨outcome, gives⟩ | ⟨fault, fails⟩
  · rw [evaluate_of_blank blank]
  · rw [evaluate_of_gives gives]
  · rw [evaluate_of_fails fails]

theorem angle_perform (c : Calculator) (action : Action) :
    (c.perform action).angle = if action = .toggleAngle then c.angle.toggle else c.angle := by
  split
  · rename_i toggles
    subst toggles
    rfl
  · rename_i other
    by_cases evaluates : action = .evaluate
    · subst evaluates
      exact c.angle_evaluate
    · obtain ⟨display, wantsFocus, after⟩ := c.perform_of_edit evaluates other
      rw [after]

theorem answer_perform_of_idle {c : Calculator} {action : Action}
    (idle : action = .evaluate → ∀ outcome, ¬ c.Gives outcome) :
    (c.perform action).answer = c.answer := by
  by_cases evaluates : action = .evaluate
  · subst evaluates
    change c.evaluate.answer = _
    rcases c.blank_or_gives_or_fails with blank | ⟨outcome, gives⟩ | ⟨fault, fails⟩
    · rw [evaluate_of_blank blank]
    · exact absurd gives (idle rfl outcome)
    · rw [evaluate_of_fails fails]
  · exact (c.memory_of_ne_evaluate evaluates).1

theorem run_cons (c : Calculator) (move : Move) (moves : List Move) :
    c.run (move :: moves) = (c.perform move.action).run moves := by
  rw [run, List.foldl_cons, make_eq_perform, run]

theorem evaluations_cons (c : Calculator) (move : Move) (moves : List Move) :
    c.evaluations (move :: moves) =
      (c.evaluation? move.action).toList ++ (c.perform move.action).evaluations moves := by
  rw [evaluations, make_eq_perform]

theorem answer_run (c : Calculator) (moves : List Move) : (c.run moves).answer =
    ((c.evaluations moves).filterMap Evaluation.value?).getLast?.or c.answer := by
  induction moves generalizing c with
  | nil => rfl
  | cons move moves ih =>
    have first : ((c.evaluation? move.action).toList.filterMap Evaluation.value?).getLast? =
        (c.evaluation? move.action).bind Evaluation.value? := by
      cases c.evaluation? move.action with
      | none => rfl
      | some e =>
        change ([e].filterMap Evaluation.value?).getLast? = e.value?
        cases given : e.value? with
        | none =>
          rw [List.filterMap_cons_none given]
          rfl
        | some value =>
          rw [List.filterMap_cons_some given]
          rfl
    rw [run_cons, ih, (c.memory_perform _).1, evaluations_cons, List.filterMap_append,
      List.getLast?_append, first, Option.or_assoc]

theorem working_run (c : Calculator) (moves : List Move) : (c.run moves).working =
    ((c.evaluations moves).getLast?.map Evaluation.working).getD c.working := by
  induction moves generalizing c with
  | nil => rfl
  | cons move moves ih =>
    have first : (c.evaluation? move.action).toList.getLast? = c.evaluation? move.action := by
      cases c.evaluation? move.action <;> rfl
    rw [run_cons, ih, (c.memory_perform _).2, evaluations_cons, List.getLast?_append, first,
      Option.map_or, Option.getD_or]

theorem angle_run (c : Calculator) (moves : List Move) : (c.run moves).angle =
    Angle.toggle^[(moves.map Move.action).count .toggleAngle] c.angle := by
  induction moves generalizing c with
  | nil => rfl
  | cons move moves ih =>
    rw [run_cons, ih, angle_perform, List.map_cons]
    split
    · rename_i toggles
      rw [toggles, List.count_cons_self, Function.iterate_succ_apply]
    · rename_i other
      rw [List.count_cons_of_ne other]

theorem answer_of_last {c : Calculator} {moves : List Move} {last : Evaluation} {outcome : Outcome}
    (latest : (c.evaluations moves).getLast? = some last) (succeeded : last.result = .ok outcome) :
    (c.run moves).answer = some outcome.value := by
  obtain ⟨earlier, split⟩ := List.getLast?_eq_some_iff.mp latest
  have only : [last].filterMap Evaluation.value? = [outcome.value] := by
    rw [List.filterMap_cons_some (Evaluation.value?_of_ok succeeded), List.filterMap_nil]
  rw [answer_run, split, List.filterMap_append, only, List.getLast?_append]
  rfl

theorem working_of_last {c : Calculator} {moves : List Move} {last : Evaluation} {outcome : Outcome}
    (latest : (c.evaluations moves).getLast? = some last) (succeeded : last.result = .ok outcome) :
    (c.run moves).working = outcome.working := by
  rw [working_run, latest, Option.map_some, Option.getD_some, Evaluation.working_of_ok succeeded]

/-- A working that was not there before comes from the latest evaluation, which succeeded. -/
theorem latest_of_working {c : Calculator} (none : c.working = {}) {moves : List Move}
    (some : (c.run moves).working ≠ {}) : ∃ last outcome,
      (c.evaluations moves).getLast? = .some last ∧ last.result = .ok outcome := by
  have working := c.working_run moves
  rw [none] at working
  cases latest : (c.evaluations moves).getLast? with
  | none =>
    rw [latest] at working
    exact absurd working some
  | some last =>
    cases result : last.result with
    | error fault =>
      rw [latest, Option.map_some, Option.getD_some, Evaluation.working_of_error result] at working
      exact absurd working some
    | ok outcome => exact ⟨last, outcome, rfl, result⟩

end Calculator

end DeskCalculator
