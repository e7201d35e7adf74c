import DeskCalculator.Proofs.Expression
import DeskCalculator.Proofs.Infix.Evaluation
import DeskCalculator.Proofs.Postfix.Shape
set_option autoImplicit false

namespace DeskCalculator.Infix
open Postfix

namespace Phrase

theorem ordered_ne_nil {rank : Rank} (phrase : Phrase rank) : phrase.ordered ≠ [] := by
  induction phrase with
  | ofProduct _ ih | ofPower _ ih | ofAtom _ ih | group _ ih => exact ih
  | number value | bare name => exact List.cons_ne_nil _ _
  | _ => exact List.append_ne_nil_of_right_ne_nil _ (List.cons_ne_nil _ _)

theorem numbers_add_bareNames {rank : Rank} (phrase : Phrase rank) :
    phrase.ordered.countP Token.isNumber + phrase.bareNames.length =
      phrase.ordered.countP Token.isBinary + 1 := by
  induction phrase with
  | sum left _ right ihLeft ihRight | product left _ right ihLeft ihRight
  | power left right ihLeft ihRight =>
    simp only [ordered, bareNames, List.countP_append, List.countP_singleton, List.length_append,
      Token.isNumber, Token.isBinary, Bool.false_eq_true, if_false, if_true]
    omega
  | percent whole ih | call name whole ih =>
    simp only [ordered, bareNames, List.countP_append, List.countP_singleton, Token.isNumber,
      Token.isBinary, Bool.false_eq_true, if_false]
    exact ih
  | ofProduct whole ih | ofPower whole ih | ofAtom whole ih | group whole ih => exact ih
  | number value | bare name => rfl

theorem height_ordered {rank : Rank} (phrase : Phrase rank) :
    height phrase.ordered = 1 - phrase.bareNames.length := by
  have count := phrase.numbers_add_bareNames
  rw [height]
  omega

/-- With a name that has no argument some token is faulty, for tokens that are all carried out leave
a value. -/
theorem exists_firstFault {rank : Rank} (phrase : Phrase rank) (bare : phrase.bareNames ≠ []) :
    ∃ fault, FirstFault phrase.ordered fault := by
  rcases faultFree_or_firstFault phrase.ordered with free | faulty
  · have left := free.one_le_height phrase.ordered_ne_nil
    have some := List.length_pos_iff.mpr bare
    rw [phrase.height_ordered] at left
    omega
  · exact faulty

end Phrase

theorem evaluate_ordered_of_bare (phrase : Phrase .sum) (bare : phrase.bareNames ≠ [])
    (angle : Angle) : ∃ fault, Postfix.evaluate angle phrase.ordered = .error fault ∧
      (fault = .divisionByZero ∨ (∃ symbol, fault = .missingOperands symbol) ∨
        ∃ symbol, fault = .unknownSymbol symbol) := by
  obtain ⟨fault, first⟩ := phrase.exists_firstFault bare
  rcases run_of_firstFault angle first with failed | zero
  · refine ⟨fault, evaluate_of_run_error failed, .inr ?_⟩
    obtain ⟨_, token, _, _, _, faulty⟩ := first
    exact (Token.fault?_eq_some faulty).imp_right fun ⟨symbol, same, _⟩ => ⟨symbol, same⟩
  · exact ⟨_, evaluate_of_run_error (run_of_meetsZeroDivisor zero), .inl rfl⟩

/-- A phrase in which a name stands without an argument has no value, whatever the name is and
wherever it stands, and neither has a text with the tokens of the phrase. The fault is a missing
operand, an unknown name or a division by zero met before; it is never found in the values that are
left at the end. -/
theorem bare_name_without_value (phrase : Phrase .sum) (bare : phrase.bareNames ≠ [])
    (angle : Angle) : ∃ fault, Postfix.value angle phrase.tokens = .error fault ∧
      (∀ text, tokenize text = .ok phrase.tokens → Expression.value angle text = .error fault) ∧
      (fault = .divisionByZero ∨ (∃ symbol, fault = .missingOperands symbol) ∨
        ∃ symbol, fault = .unknownSymbol symbol) := by
  obtain ⟨fault, failed, kind⟩ := evaluate_ordered_of_bare phrase bare angle
  have unvalued : Postfix.value angle phrase.tokens = .error fault := by
    rw [Postfix.value, ofTokens_tokens]
    exact failed
  refine ⟨fault, unvalued, fun text read => ?_, kind⟩
  rw [Expression.value_eq_bind, read]
  exact unvalued

theorem bare_name_without_value_known : ∃ phrase : Phrase .sum, phrase.bareNames = ["sin"] ∧
    tokenize "2*sin+3" = .ok phrase.tokens ∧ ∃ fault,
      Postfix.value .radians phrase.tokens = .error fault ∧
      Expression.value .radians "2*sin+3" = .error fault ∧
      (fault = .divisionByZero ∨ (∃ symbol, fault = .missingOperands symbol) ∨
        ∃ symbol, fault = .unknownSymbol symbol) := by
  let number (digit : Char) : Phrase .power := .ofAtom (.number (Literal.mk [digit] []).value)
  let phrase : Phrase .sum :=
    .sum (.ofProduct (.product (.ofPower (number '2')) .times (.ofAtom (.bare "sin")))) .plus
      (.ofPower (number '3'))
  have read : tokenize "2*sin+3" = .ok phrase.tokens := by
    have scanned : Lexeme.scan 0 "2*sin+3".toList = .ok
        [.numeral ⟨['2'], []⟩, .sign (.binary .times), .word ['s', 'i', 'n'],
          .sign (.binary .plus), .numeral ⟨['3'], []⟩] := by cbv
    rw [tokenize, scanned]
    rfl
  obtain ⟨fault, failed, texts, kind⟩ :=
    bare_name_without_value phrase (List.cons_ne_nil _ _) .radians
  exact ⟨phrase, rfl, read, fault, failed, texts _ read, kind⟩

end DeskCalculator.Infix
