import DeskCalculator.CommandLine
import DeskCalculator.Proofs.Negation
set_option autoImplicit false

namespace DeskCalculator

namespace Display
open Binary64

theorem ofList_minus_cons (digits : List Char) :
    String.ofList ('-' :: digits) = "-" ++ String.ofList digits :=
  @String.ofList_append ['-'] digits

theorem roundedText_eq_append {x : Float} (finite : isFinite x = true) :
    Decimal.roundedText x =
      (if Decimal.showsSign x then "-" else "") ++ String.ofList (Decimal.rounded x).text := by
  rw [Decimal.roundedText_of_isFinite finite]
  cases Decimal.showsSign x with
  | false => rw [if_neg Bool.false_ne_true, if_neg Bool.false_ne_true, String.empty_append]
  | true => rw [if_pos rfl, if_pos rfl, ofList_minus_cons]

theorem text_ne_minus (d : Decimal) (rest : String) : String.ofList d.text ≠ "-" ++ rest := by
  intro same
  have listed := congrArg String.toList same
  rw [String.toList_ofList, String.toList_append] at listed
  exact Decimal.text_ne_minus_cons d rest.toList listed

theorem ofResult_of_minus {x : Float} (finite : isFinite x = true) {rest : String}
    (line : Decimal.roundedText x = "-" ++ rest) : ofResult x = negation rest := by
  rw [roundedText_eq_append finite] at line
  rw [ofResult_of_isFinite finite, shownText]
  cases sign : Decimal.showsSign x with
  | true =>
    rw [sign, if_pos rfl, String.append_right_inj] at line
    rw [if_pos rfl, line]
  | false =>
    rw [sign, if_neg Bool.false_ne_true, String.empty_append] at line
    exact absurd line (text_ne_minus (Decimal.rounded x) rest)

theorem ofResult_of_no_minus {x : Float}
    (plain : isFinite x = true → ∀ rest, Decimal.roundedText x ≠ "-" ++ rest) :
    ofResult x = Decimal.roundedText x := by
  cases finite : isFinite x with
  | false => rw [ofResult, readable?, finite, if_neg Bool.false_ne_true, Option.getD_none]
  | true =>
    have line := roundedText_eq_append finite
    rw [ofResult_of_isFinite finite, shownText]
    cases sign : Decimal.showsSign x with
    | true =>
      rw [sign, if_pos rfl] at line
      exact absurd line (plain finite _)
    | false =>
      rw [line, sign, if_neg Bool.false_ne_true, if_neg Bool.false_ne_true, String.empty_append]

theorem ofResult_ne_failure (x : Float) : ofResult x ≠ failure := by
  intro failed
  cases finite : isFinite x with
  | true =>
    obtain ⟨value, working, -, -, worked⟩ := result_shown_again finite
    have read := Expression.value_of_workOut (worked .degrees)
    rw [failed, trim_failure, value_failure] at read
    cases read
  | false =>
    rw [ofResult, readable?, finite, if_neg Bool.false_ne_true, Option.getD_none,
      Decimal.roundedText, finite, if_neg Bool.false_ne_true] at failed
    split at failed
    · revert failed
      decide
    · split at failed <;> revert failed <;> decide

end Display

namespace CommandLine

/-- Whether the arguments, as they are read, ask for the value of an expression in an angle unit. -/
def Requests (read : List String → Except Report Options) (arguments : List String) (angle : Angle)
    (expression : String) : Prop :=
  ∃ options, read arguments = .ok options ∧ options.expression = some expression ∧
    options.angle = angle

section

variable {read : List String → Except Report Options} {arguments : List String} {angle : Angle}
  {expression : String}

theorem runWith_of_requests (h : Requests read arguments angle expression) :
    runWith read arguments = .finished (evaluation angle expression) := by
  obtain ⟨options, parsed, given, rfl⟩ := h
  simp only [runWith, parsed, given]

theorem runWith_of_ok (h : Requests read arguments angle expression) {text : String}
    (shown : Expression.shownValue angle expression = .ok text) :
    runWith read arguments = .finished ⟨0, text ++ "\n", ""⟩ := by
  rw [runWith_of_requests h, evaluation, shown]

theorem runWith_of_error (h : Requests read arguments angle expression) {fault : Fault}
    (failed : Expression.shownValue angle expression = .error fault) :
    runWith read arguments = .finished ⟨1, "Error\n", fault.message ++ "\n"⟩ := by
  rw [runWith_of_requests h, evaluation, failed]
  rfl

theorem requests_of_parse {options : Options} (parsed : parse arguments = .ok options)
    (given : options.expression = some expression) (unit : options.angle = angle) :
    Requests readOptions arguments angle expression :=
  ⟨options, by rw [readOptions, parsed]; rfl, given, unit⟩

end

theorem ofString_eval (expression : String) :
    Argument.ofString ("--eval=" ++ expression) = .long "eval" (some expression) := by
  rw [Argument.ofString, String.toList_append]
  change Argument.long "eval" (some (String.ofList expression.toList)) = _
  rw [String.ofList_toList]

/-- Every text can be given as an expression, whatever it starts with. -/
theorem exists_requests (angle : Angle) (expression : String) :
    ∃ arguments, Requests readOptions arguments angle expression := by
  cases angle with
  | degrees =>
    have parsed : parse ["--eval=" ++ expression] = .ok { expression := some expression } := by
      simp only [parse, List.foldlM, Progress.read, ofString_eval]
      rfl
    exact ⟨_, requests_of_parse parsed rfl rfl⟩
  | radians =>
    have radians : Argument.ofString "--radians" = .long "radians" none := by cbv
    have parsed : parse ["--radians", "--eval=" ++ expression] =
        .ok { expression := some expression, radians := true } := by
      simp only [parse, List.foldlM, Progress.read, ofString_eval, radians]
      rfl
    exact ⟨_, requests_of_parse parsed rfl rfl⟩

end CommandLine

namespace Calculator
open Binary64 CommandLine

variable {c : Calculator}

theorem shownValue_eq_ok_iff {text : String} :
    Expression.shownValue c.angle c.display = .ok text ↔
      ∃ outcome, c.Gives outcome ∧ Decimal.roundedText outcome.value = text := by
  constructor
  · intro shown
    obtain ⟨value, valued, same⟩ := map_eq_ok shown
    obtain ⟨outcome, worked, rfl⟩ := map_eq_ok valued
    exact ⟨outcome, Expression.workOut_trim_eq_ok.mpr worked, same⟩
  · rintro ⟨outcome, gives, rfl⟩
    have worked := Expression.workOut_trim_eq_ok.mp gives
    rw [Expression.shownValue, Expression.value_of_workOut worked]
    rfl

theorem fails_of_shownValue (some : Text.trim c.display ≠ "") {fault : Fault}
    (failed : Expression.shownValue c.angle c.display = .error fault) : ∃ other, c.Fails other := by
  rcases c.blank_or_gives_or_fails with blank | ⟨outcome, gives⟩ | fails
  · exact absurd blank some
  · rw [shownValue_eq_ok_iff.mpr ⟨outcome, gives, rfl⟩] at failed
    cases failed
  · exact fails

theorem shownValue_error_iff (some : Text.trim c.display ≠ "") :
    (∃ fault, Expression.shownValue c.angle c.display = .error fault) ↔
      c.evaluate.display = Display.failure := by
  constructor
  · rintro ⟨fault, failed⟩
    obtain ⟨other, fails⟩ := fails_of_shownValue some failed
    rw [evaluate_of_fails fails]
  · intro shown
    cases result : Expression.shownValue c.angle c.display with
    | error fault => exact ⟨fault, rfl⟩
    | ok text =>
      obtain ⟨outcome, gives, -⟩ := shownValue_eq_ok_iff.mp result
      rw [evaluate_of_gives gives] at shown
      exact absurd shown (Display.ofResult_ne_failure outcome.value)

/-- The command line and the window fail for the same texts and otherwise show the same digits and
the same sign, whatever the white space around a text and whatever was on the calculator before. A
finite value with a minus sign is shown as a negation in the window, and every other value as on the
command line. -/
theorem front_ends_agree (c : Calculator)
    (visible : ∃ char ∈ c.display.toList, Text.isBlank char = false) :
    let line := Expression.shownValue c.angle c.display
    (∃ arguments, Requests readOptions arguments c.angle c.display) ∧
    ((∃ fault, line = .error fault) ↔ c.evaluate.display = Display.failure) ∧
    (∀ fault, line = .error fault → c.evaluate.answer = c.answer ∧
      ∀ read arguments, Requests read arguments c.angle c.display →
        runWith read arguments = .finished ⟨1, "Error\n", fault.message ++ "\n"⟩) ∧
    (∀ text, line = .ok text →
      (∀ read arguments, Requests read arguments c.angle c.display →
        runWith read arguments = .finished ⟨0, text ++ "\n", ""⟩) ∧
      ∃ value, Expression.value c.angle c.display = .ok value ∧ c.evaluate.answer = some value ∧
        (∀ rest, isFinite value = true → text = "-" ++ rest →
          c.evaluate.display = Display.negation rest) ∧
        ((isFinite value = true → ∀ rest, text ≠ "-" ++ rest) → c.evaluate.display = text)) := by
  intro line
  obtain ⟨char, mem, seen⟩ := visible
  have some := Text.trim_ne_empty mem seen
  refine ⟨exists_requests c.angle c.display, shownValue_error_iff some, ?_, ?_⟩
  · intro fault failed
    obtain ⟨other, fails⟩ := fails_of_shownValue some failed
    refine ⟨by rw [evaluate_of_fails fails], fun read arguments requests => ?_⟩
    exact runWith_of_error requests failed
  · intro text shown
    obtain ⟨outcome, gives, rfl⟩ := shownValue_eq_ok_iff.mp shown
    refine ⟨fun read arguments requests => runWith_of_ok requests shown, ?_⟩
    have worked := Expression.workOut_trim_eq_ok.mp gives
    rw [evaluate_of_gives gives]
    exact ⟨outcome.value, Expression.value_of_workOut worked, rfl,
      fun rest finite => Display.ofResult_of_minus finite, Display.ofResult_of_no_minus⟩

theorem front_ends_agree_below_zero : ∃ c : Calculator, c.display = " 0-7 " ∧
    (∃ char ∈ c.display.toList, Text.isBlank char = false) ∧
    Expression.shownValue c.angle c.display = .ok "-7" ∧
    c.evaluate.display = Display.negation "7" ∧
    ∃ arguments, CommandLine.run arguments = .finished ⟨0, "-7\n", ""⟩ := by
  let c : Calculator := { display := " 0-7 " }
  let zero : Float := (Literal.mk ['0'] []).value
  let seven : Float := (Literal.mk ['7'] []).value
  have scanned : Lexeme.scan 0 " 0-7 ".toList = .ok
      [.numeral ⟨['0'], []⟩, .sign (.binary .minus), .numeral ⟨['7'], []⟩] := by cbv
  have valued : Expression.value c.angle c.display = .ok (zero - seven) := by
    change Expression.value .degrees " 0-7 " = _
    rw [Expression.value_eq_bind, tokenize, scanned]
    rfl
  have rounded : Decimal.roundedText (zero - seven) = "-7" := by decide +kernel
  have finite : isFinite (zero - seven) = true := by decide +kernel
  have shown : Expression.shownValue c.angle c.display = .ok "-7" := by
    rw [Expression.shownValue, valued, ← rounded]
    rfl
  have visible : ∃ char ∈ c.display.toList, Text.isBlank char = false :=
    ⟨'7', by decide, by decide⟩
  obtain ⟨⟨arguments, requests⟩, -, -, agrees⟩ := front_ends_agree c visible
  obtain ⟨printed, value, same, -, below, -⟩ := agrees "-7" shown
  cases valued.symm.trans same
  exact ⟨c, rfl, visible, shown, below "7" finite rfl, arguments, printed _ arguments requests⟩

end Calculator

end DeskCalculator
