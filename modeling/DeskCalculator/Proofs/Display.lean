import DeskCalculator.Display
import DeskCalculator.Proofs.Decimal.Rounded
import DeskCalculator.Proofs.Infix.Evaluation
import DeskCalculator.Proofs.Lexeme.Parentheses
set_option autoImplicit false

namespace DeskCalculator.Display
open Binary64 Infix Text

def shownText (negative : Bool) (d : Decimal) : String :=
  if negative then negation (String.ofList d.text) else String.ofList d.text

def numberPhrase (value : Float) : Phrase .sum :=
  .ofProduct (.ofPower (.ofAtom (.number value)))

/-- The phrase that a number or its negation is shown as. -/
def shownPhrase (negative : Bool) (value : Float) : Phrase .sum :=
  if negative then .ofProduct (.ofPower (.ofAtom (.call "neg" (numberPhrase value))))
  else numberPhrase value

theorem named?_neg : UnaryFunction.named? "neg" = some .neg := by
  cbv

theorem value_shownPhrase (negative : Bool) (value : Float) (angle : Angle) :
    (shownPhrase negative value).value angle = .ok (if negative then -value else value) := by
  cases negative with
  | false => rfl
  | true => exact Phrase.value_call_of_named named?_neg (numberPhrase value) angle

theorem bareNames_shownPhrase (negative : Bool) (value : Float) :
    (shownPhrase negative value).bareNames = [] := by
  cases negative <;> rfl

theorem readable?_of_isFinite {x : Float} (finite : isFinite x = true) :
    readable? x = some (shownText (Decimal.showsSign x) (Decimal.rounded x)) := by
  rw [readable?, if_pos finite, shownText]
  dsimp only
  rw [if_congr (Decimal.lt_zero_and_iff_showsSign finite) rfl rfl, Decimal.roundedText_abs finite]

theorem ofResult_of_isFinite {x : Float} (finite : isFinite x = true) :
    ofResult x = shownText (Decimal.showsSign x) (Decimal.rounded x) := by
  rw [ofResult, readable?_of_isFinite finite, Option.getD_some]

theorem tokenize_text (d : Decimal) :
    tokenize (String.ofList d.text) = .ok [.number d.toFloat] := by
  have literal : (Lexeme.numeral d.literal).IsWritten := Decimal.literal_isWritten d
  rw [tokenize, String.toList_ofList, ← Decimal.value_literal]
  exact congrArg (Except.map Lexeme.tokens) (Lexeme.scan_alone literal 0)

theorem tokenize_shownText (negative : Bool) (d : Decimal) :
    tokenize (shownText negative d) = .ok (shownPhrase negative d.toFloat).tokens := by
  cases negative with
  | false => exact tokenize_text d
  | true =>
    change tokenize (negation (String.ofList d.text)) = _
    rw [tokenize_negation, tokenize_text]
    rfl

theorem trim_shownText (negative : Bool) (d : Decimal) :
    trim (shownText negative d) = shownText negative d := by
  apply trim_eq_self
  intro c mem
  have written := Decimal.literal_isWritten d
  cases negative with
  | false =>
    change c ∈ (String.ofList d.text).toList at mem
    rw [String.toList_ofList] at mem
    exact Lexeme.isBlank_of_mem_literal written mem
  | true =>
    change c ∈ (negation (String.ofList d.text)).toList at mem
    rw [toList_negation, List.mem_append, List.mem_append] at mem
    rcases mem with (name | literal) | closing
    · have visible : ['n', 'e', 'g', '('].all (fun c => !isBlank c) = true := rfl
      simpa using List.all_eq_true.mp visible c name
    · exact Lexeme.isBlank_of_mem_literal written literal
    · cases List.mem_singleton.mp closing
      rfl

def shownWorking (negative : Bool) (value : Float) : Working :=
  ⟨Token.render (shownPhrase negative value).tokens,
    Token.render (shownPhrase negative value).ordered⟩

theorem workOut_shownText (negative : Bool) (d : Decimal) (angle : Angle) :
    Expression.workOut angle (shownText negative d) =
      .ok ⟨if negative then -d.toFloat else d.toFloat, shownWorking negative d.toFloat⟩ := by
  rw [workOut_of_tokens (bareNames_shownPhrase negative _) angle (tokenize_shownText negative d),
    value_shownPhrase]
  rfl

theorem neg_if_ofRank (negative : Bool) {r : Nat} (fits : r ≤ infinityRank) :
    (if negative then -ofRank false r else ofRank false r) = ofRank negative r := by
  cases negative with
  | false => rfl
  | true => exact neg_ofRank false fits

section

variable {x : Float}

theorem trim_ofResult (finite : isFinite x = true) : trim (ofResult x) = ofResult x := by
  rw [ofResult_of_isFinite finite, trim_shownText]

theorem workOut_ofResult (finite : isFinite x = true) (angle : Angle) :
    Expression.workOut angle (ofResult x) =
      .ok ⟨Decimal.readBack x,
        shownWorking (Decimal.showsSign x) (Decimal.rounded x).toFloat⟩ := by
  rw [ofResult_of_isFinite finite, workOut_shownText, Decimal.toFloat_rounded,
    neg_if_ofRank _ (Nat.le_of_lt (Decimal.readRank_lt finite)), Decimal.readBack]

theorem ofResult_readBack (finite : isFinite x = true) :
    ofResult (Decimal.readBack x) = ofResult x := by
  rw [ofResult_of_isFinite (Decimal.isFinite_readBack finite), ofResult_of_isFinite finite,
    Decimal.showsSign_readBack finite, Decimal.rounded_readBack finite]

/-- What the text of a finite result stands for is finite and has the same text. -/
theorem result_shown_again (finite : isFinite x = true) :
    ∃ value working, isFinite value = true ∧ ofResult value = ofResult x ∧
      ∀ angle, Expression.workOut angle (trim (ofResult x)) = .ok ⟨value, working⟩ := by
  rw [trim_ofResult finite]
  exact ⟨_, _, Decimal.isFinite_readBack finite, ofResult_readBack finite,
    workOut_ofResult finite⟩

end

end DeskCalculator.Display
