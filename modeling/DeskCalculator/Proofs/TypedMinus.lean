import DeskCalculator.Proofs.Negation
set_option autoImplicit false

namespace DeskCalculator

namespace Expression
open Decimal Infix Lexeme

/-- The value of a number in floating notation where an expression is read. The letter of an
exponent is a constant there, and the sign behind it an operator. -/
inductive FloatingValue : List Char → Float → Prop
  | literal {l : Literal} (written : l.IsWritten) : FloatingValue l.text l.value
  | exponent {l : Literal} {letter : Char} {digits : List Char} (written : l.IsWritten)
      (isLetter : letter = 'e' ∨ letter = 'E') (sign : SumSign)
      (isDigits : isDigits digits = true) :
      FloatingValue (l.text ++ (letter :: sign.operator.symbol.toList ++ digits))
        (sign.combine (l.value * Constant.e.value) (Literal.mk digits []).value)

section

variable {cs : List Char} {v : Float}

theorem value_literal {l : Literal} (written : l.IsWritten) (angle : Angle) :
    value angle (String.ofList l.text) = .ok l.value := by
  have isWritten : (numeral l).IsWritten := written
  have scanned : scan 0 l.text = .ok [numeral l] := scan_alone isWritten 0
  rw [value_eq_bind, tokenize, String.toList_ofList, scanned]
  rfl

theorem value_exponent {l : Literal} {letter : Char} {digits : List Char} (written : l.IsWritten)
    (isLetter : letter = 'e' ∨ letter = 'E') (sign : SumSign) (isDigits : isDigits digits = true)
    (angle : Angle) :
    value angle (String.ofList (l.text ++ (letter :: sign.operator.symbol.toList ++ digits))) =
      .ok (sign.combine (l.value * Constant.e.value) (Literal.mk digits []).value) := by
  let product : Phrase .product := .product (.ofPower (.ofAtom (.number l.value))) .times
    (.ofAtom (.number Constant.e.value))
  let sum : Phrase .sum := .sum (.ofProduct product) sign
    (.ofPower (.ofAtom (.number (Literal.mk digits []).value)))
  have read : tokenize (String.ofList (l.text ++
      (letter :: sign.operator.symbol.toList ++ digits))) = .ok sum.tokens := by
    rw [tokenize, String.toList_ofList, scan_number written (.sum isLetter sign isDigits)]
    exact congrArg Except.ok (tokens_sum l _ _ isLetter)
  have closed : sum.bareNames = [] := rfl
  exact value_of_tokens closed angle read

theorem numbers_nonFiniteWord (nonFinite : isNonFiniteWord cs = true) :
    (tokens [word cs]).countP Token.isNumber = 0 := by
  obtain ⟨name, mem, same⟩ := List.any_eq_true.mp nonFinite
  have unlike : ∀ name ∈ ["inf", "infinity", "nan"],
      name.toList ∉ [['p', 'i'], ['π'], ['e'], ['m', 'o', 'd']] := by decide
  have other := unlike name mem
  rw [← eq_of_beq same] at other
  change [(word cs).token].countP Token.isNumber = 0
  rw [(StandsFor.name other).token_eq]
  rfl

theorem value_floatingNotation_iff (number : isFloatingNotation cs = true) (angle : Angle) :
    value angle (String.ofList cs) = .ok v ↔ FloatingValue cs v := by
  constructor
  · intro h
    obtain ⟨tokens, ordered, read, converted, ran⟩ := Infix.value_eq_ok h
    have count := Infix.numbers_eq converted ran
    obtain ⟨lexemes, scanned, rfl⟩ := map_eq_ok read
    rw [String.toList_ofList] at scanned
    rcases dropSign_eq cs with unsigned | ⟨op, signed⟩
    · rw [isFloatingNotation, unsigned] at number
      rcases Bool.or_eq_true_iff.mp number with nonFinite | number
      · rw [scan_nonFiniteWord nonFinite] at scanned
        rw [← Except.ok.inj scanned, numbers_nonFiniteWord nonFinite] at count
        omega
      · obtain ⟨l, rest, others, written, rfl, exponent, rfl⟩ := scan_unsignedNumber number scanned
        cases exponent with
        | none =>
          rw [List.append_nil] at h ⊢
          rw [value_literal written] at h
          cases h
          exact .literal written
        | name isLetter isDigits =>
          -- the letter and the digits are a name, and the product lacks a factor
          rw [tokens_name l isLetter isDigits] at count
          cases count
        | sum isLetter op isDigits =>
          rw [value_exponent written isLetter op isDigits] at h
          cases h
          exact .exponent written isLetter op isDigits
    · rw [signed] at scanned
      have few := numbers_of_signed op number scanned
      omega
  · intro reads
    cases reads with
    | literal written => exact value_literal written angle
    | exponent written isLetter sign isDigits =>
      exact value_exponent written isLetter sign isDigits angle

end

end Expression

namespace Display

theorem toggleSign?_typed_minus {display : String} {cs : List Char}
    (typed : Text.trim display = String.ofList ('-' :: cs))
    (number : Decimal.isFloatingNotation cs = true) :
    toggleSign? display = some (String.ofList cs) := by
  have unlike : ∀ s : String, s.toList.head? ≠ some '-' → String.ofList ('-' :: cs) ≠ s := by
    rintro s other rfl
    rw [String.toList_ofList] at other
    exact other rfl
  have kept : ¬ (Text.trim display = "" ∨ Text.trim display = "0" ∨
      Text.trim display = failure) := by
    rw [typed, not_or, not_or]
    exact ⟨unlike _ (by decide), unlike _ (by decide), unlike _ (by decide)⟩
  have taken : unsigned? ('-' :: cs) = some cs := if_pos number
  rw [toggleSign?, if_neg kept, typed, String.toList_ofList, taken, Option.some_or]

end Display

namespace Calculator

/-- The key for the sign takes a typed minus off a number in floating notation. What is left has a
value in neither angle unit, or the same in both: that of the literal if it is one, and otherwise
that of a sum, if the number has an exponent with a sign. -/
theorem toggleSign_typed_minus (c : Calculator) {cs : List Char}
    (typed : Text.trim c.display = String.ofList ('-' :: cs))
    (number : Decimal.isFloatingNotation cs = true) :
    c.toggleSign = { c with display := String.ofList cs, wantsFocus := true } ∧
      ∀ angle v, Expression.value angle c.toggleSign.display = .ok v ↔
        Expression.FloatingValue cs v := by
  have toggled : c.toggleSign = { c with display := String.ofList cs, wantsFocus := true } := by
    rw [toggleSign, Display.toggleSign?_typed_minus typed number]
  refine ⟨toggled, fun angle v => ?_⟩
  rw [toggled]
  exact Expression.value_floatingNotation_iff number angle

theorem toggleSign_typed_minus_exponent : ∃ (c : Calculator) (cs : List Char),
    c.display = "-1e-5" ∧ Text.trim c.display = String.ofList ('-' :: cs) ∧
    Decimal.isFloatingNotation cs = true ∧
    c.toggleSign = { c with display := String.ofList cs, wantsFocus := true } ∧
    ∀ angle v, Expression.value angle c.toggleSign.display = .ok v ↔
      Expression.FloatingValue cs v := by
  let c : Calculator := { display := "-1e-5" }
  have typed : Text.trim c.display = String.ofList ('-' :: ['1', 'e', '-', '5']) := by cbv
  have number : Decimal.isFloatingNotation ['1', 'e', '-', '5'] = true := by decide
  exact ⟨c, _, rfl, typed, number, toggleSign_typed_minus c typed number⟩

/-- From `-5.` a text is left that cannot be read, and from `-1e-5` one whose value is not the
number, but below zero. -/
theorem typed_number_lost : ∃ point exponent : Calculator,
    (point.display = "-5." ∧ Decimal.isFloatingNotation ['5', '.'] = true ∧
      point.toggleSign.display = "5." ∧ ∀ angle,
        Expression.value angle point.toggleSign.display = .error (.unexpectedCharacter '.' 1)) ∧
    (exponent.display = "-1e-5" ∧ Decimal.isFloatingNotation ['1', 'e', '-', '5'] = true ∧
      exponent.toggleSign.display = "1e-5" ∧ ∃ v,
        (∀ angle, Expression.value angle exponent.toggleSign.display = .ok v) ∧
        Decimal.roundedText v = "-2.2817181715" ∧
        v ≠ (Literal.mk ['0'] ['0', '0', '0', '0', '1']).value) := by
  let point : Calculator := { display := "-5." }
  let exponent : Calculator := { display := "-1e-5" }
  have noPoint : Decimal.isFloatingNotation ['5', '.'] = true := by decide
  have number : Decimal.isFloatingNotation ['1', 'e', '-', '5'] = true := by decide
  have left : point.toggleSign.display = "5." := by cbv
  have leftExponent : exponent.toggleSign.display = "1e-5" := by cbv
  let e : Float := Constant.e.value
  let v : Float := (Literal.mk ['1'] []).value * e - (Literal.mk ['5'] []).value
  have written : (Literal.mk ['1'] []).IsWritten :=
    ⟨List.all_eq_true.mp rfl, List.forall_mem_nil _, .inl (List.cons_ne_nil _ _)⟩
  have value : ∀ angle, Expression.value angle "1e-5" = .ok v :=
    Expression.value_exponent written (.inl rfl) .minus rfl
  have below : Decimal.roundedText v = "-2.2817181715" := by decide +kernel
  refine ⟨point, exponent, ⟨rfl, noPoint, left, fun angle => ?_⟩, rfl, number, leftExponent, v,
    fun angle => ?_, below, ?_⟩
  · have scanned : Lexeme.scan 0 "5.".toList = .error (.unexpectedCharacter '.' 1) := by cbv
    rw [left, Expression.value_eq_bind, tokenize, scanned]
    rfl
  · rw [leftExponent]
    exact value angle
  · intro same
    have shown : Decimal.roundedText (Literal.mk ['0'] ['0', '0', '0', '0', '1']).value =
        "0.00001" := by decide +kernel
    rw [← same, below] at shown
    exact absurd shown (by decide)

end Calculator

end DeskCalculator
