import DeskCalculator.Proofs.Binary64.Bits
import DeskCalculator.Proofs.Calculator
import DeskCalculator.Proofs.Expression
import DeskCalculator.Proofs.Infix.Derivation
import DeskCalculator.Proofs.Lexeme.FloatingNotation
set_option autoImplicit false

namespace DeskCalculator
open Postfix

namespace Display

variable {angle : Angle} {s : String} {v : Float}

theorem value_neg_call_iff {tokens : List Token} (balanced : Balanced 0 tokens) :
    Postfix.value angle (.name "neg" :: .opening :: tokens ++ [.closing]) = .ok v ↔
      Postfix.value angle tokens = .ok (-v) := by
  obtain ⟨ordered, converted⟩ := (convert_isOk_iff [] tokens).mpr balanced
  rw [value_call_eq_ok_iff named?_neg converted]
  constructor
  · rintro ⟨a, argued, rfl⟩
    rwa [UnaryFunction.apply, Binary64.neg_neg_eq]
  · intro argued
    exact ⟨-v, argued, (Binary64.neg_neg_eq v).symm⟩

theorem value_negation_iff (balanced : isBalanced 0 s.toList = true) :
    Expression.value angle (negation s) = .ok v ↔ Expression.value angle s = .ok (-v) := by
  have closed : ∀ {tokens}, tokenize s = .ok tokens → Balanced 0 tokens :=
    fun read => (isBalanced_iff_balanced read).mp balanced
  rw [Expression.value_eq_ok_iff, Expression.value_eq_ok_iff, tokenize_negation]
  constructor
  · rintro ⟨all, read, worth⟩
    obtain ⟨tokens, inner, rfl⟩ := map_eq_ok (mapError_eq_ok.mp read)
    exact ⟨tokens, inner, (value_neg_call_iff (closed inner)).mp worth⟩
  · rintro ⟨tokens, inner, worth⟩
    refine ⟨_, mapError_eq_ok.mpr ?_, (value_neg_call_iff (closed inner)).mpr worth⟩
    rw [inner]
    rfl

theorem negated?_eq_some {cs inner : List Char} (h : negated? cs = some inner) :
    cs = (negation (String.ofList inner)).toList ∧ isBalanced 0 inner = true := by
  unfold negated? at h
  split at h
  · rename_i start
    obtain ⟨rest, rfl⟩ := List.isPrefixOf_iff_prefix.mp start
    obtain ⟨ends, balanced⟩ := Option.filter_eq_some_iff.mp h
    have after : ("neg(".toList ++ rest).drop "neg(".length = rest := List.drop_left
    rw [after] at ends
    rw [withoutEnding?_eq_some_iff.mp ends, toList_negation, List.append_assoc]
    exact ⟨rfl, balanced⟩
  · cases h

theorem unsigned?_of_value (h : Expression.value angle s = .ok v) : unsigned? s.toList = none := by
  unfold unsigned?
  split
  · rename_i cs text
    split
    · rename_i number
      obtain ⟨tokens, ordered, read, converted, ran⟩ := Infix.value_eq_ok h
      have count := Infix.numbers_eq converted ran
      obtain ⟨lexemes, scanned, rfl⟩ := map_eq_ok read
      rw [text, Lexeme.scan_lexeme 0 rfl rfl] at scanned
      obtain ⟨others, later, rfl⟩ := map_eq_ok scanned
      -- the minus has no operand on its left
      have few := Lexeme.numbers_of_sign .minus
        (Lexeme.fewNumbers_floatingNotation number later)
      omega
    · rfl
  · rfl

theorem trim_failure : Text.trim failure = failure := by
  cbv

theorem value_failure (angle : Angle) :
    Expression.value angle failure = .error (.unknownSymbol "error") := by
  have scanned : Lexeme.scan 0 failure.toList = .ok [.word failure.toList] := by cbv
  have named : UnaryFunction.named? "error" = none := by cbv
  rw [Expression.value_eq_bind, tokenize, scanned]
  change (step angle [] (.name "error") >>= fun stack => single =<< run angle stack []) = _
  rw [step, named]
  rfl

theorem value_toggleSign? {display : String} (nonzero : Text.trim display ≠ "0")
    (h : Expression.value angle (Text.trim display) = .ok v) :
    ∃ text, toggleSign? display = some text ∧ Expression.value angle text = .ok (-v) := by
  have some : Text.trim display ≠ "" := by
    intro none
    rw [none] at h
    obtain ⟨outcome, worked, -⟩ := map_eq_ok h
    exact Calculator.workOut_empty angle outcome worked
  have noFailure : Text.trim display ≠ failure := by
    intro failed
    rw [failed, value_failure] at h
    cases h
  have balanced := Expression.isBalanced_of_value h
  simp only [toggleSign?, some, nonzero, noFailure, or_self, if_false, unsigned?_of_value h,
    Option.none_or]
  cases inside : negated? (Text.trim display).toList with
  | none =>
    have twice : Expression.value angle (Text.trim display) = .ok (- -v) :=
      h.trans (congrArg Except.ok (Binary64.neg_neg_eq v).symm)
    exact ⟨_, rfl, (value_negation_iff balanced).mpr twice⟩
  | some inner =>
    obtain ⟨whole, closed⟩ := negated?_eq_some inside
    have same : Text.trim display = negation (String.ofList inner) := String.toList_inj.mp whole
    rw [same] at h
    have worth := (value_negation_iff (by rwa [String.toList_ofList])).mp h
    exact ⟨_, rfl, worth⟩

end Display

namespace Calculator
open Binary64

/-- A display with a value, other than a zero alone, gets the same value with the other sign, in the
same angle unit. The last result and its working stay as they are. -/
theorem toggleSign_negates (c : Calculator) (v : Float) (nonzero : Text.trim c.display ≠ "0")
    (h : Expression.value c.angle (Text.trim c.display) = .ok v) :
    Expression.value c.angle c.toggleSign.display = .ok (-v) ∧
      (rank (-v) = rank v ∧ (isNaN v = false → isNegative (-v) = !isNegative v)) ∧
      c.toggleSign.angle = c.angle ∧ c.toggleSign.answer = c.answer ∧
      c.toggleSign.working = c.working := by
  obtain ⟨text, toggled, negated⟩ := Display.value_toggleSign? nonzero h
  have after : c.toggleSign = { c with display := text, wantsFocus := true } := by
    rw [toggleSign, toggled]
  rw [after]
  exact ⟨negated, ⟨rank_neg v, isNegative_neg⟩, rfl, rfl, rfl⟩

/-- The first and the last character of `neg(1)+neg(2)` look like one negation around it. -/
theorem toggleSign_negates_two_negations : ∃ (c : Calculator) (v : Float),
    c.display = "neg(1)+neg(2)" ∧ Text.trim c.display ≠ "0" ∧
      Expression.value c.angle (Text.trim c.display) = .ok v ∧
      Expression.value c.angle c.toggleSign.display = .ok (-v) ∧
      (rank (-v) = rank v ∧ (isNaN v = false → isNegative (-v) = !isNegative v)) ∧
      c.toggleSign.angle = c.angle ∧ c.toggleSign.answer = c.answer ∧
      c.toggleSign.working = c.working := by
  let c : Calculator := { display := "neg(1)+neg(2)" }
  have trimmed : Text.trim c.display = "neg(1)+neg(2)" := by cbv
  have nonzero : Text.trim c.display ≠ "0" := by
    rw [trimmed]
    decide
  have scanned : Lexeme.scan 0 "neg(1)+neg(2)".toList = .ok
      [.word ['n', 'e', 'g'], .opening, .numeral ⟨['1'], []⟩, .closing, .sign (.binary .plus),
        .word ['n', 'e', 'g'], .opening, .numeral ⟨['2'], []⟩, .closing] := by cbv
  have value : Expression.value c.angle (Text.trim c.display) =
      .ok (-(Literal.mk ['1'] []).value + -(Literal.mk ['2'] []).value) := by
    rw [trimmed, Expression.value_eq_bind, tokenize, scanned]
    rfl
  exact ⟨c, _, rfl, nonzero, value, toggleSign_negates c _ nonzero value⟩

end Calculator

end DeskCalculator
