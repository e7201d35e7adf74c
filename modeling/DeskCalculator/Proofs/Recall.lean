import DeskCalculator.Proofs.Calculator
import DeskCalculator.Proofs.Display
import DeskCalculator.Proofs.Insertion
import DeskCalculator.Proofs.Lexeme.Continued
set_option autoImplicit false

namespace DeskCalculator

namespace Lexeme
open Text

theorem Cut.noName_before_digit {first rest : List Char} {before : List Piece} {d : Char}
    (cut : Cut first before) (digit : d.isDigit = true) (ends : EndBefore (d :: rest) before) :
    first.reverse.head?.any isNameChar = false := by
  rcases before.eq_nil_or_concat' with rfl | ⟨earlier, piece, rfl⟩
  · rw [cut.eq_nil]
    rfl
  obtain ⟨start, last, rfl, -, cutLast, -⟩ := cut.split
  rw [List.reverse_append]
  cases piece with
  | blank c =>
    obtain ⟨blank, rfl⟩ := cutLast.eq_blank
    have stops : Stops [c] := stops_of_blank (List.forall_mem_singleton.mpr blank)
    exact stops.1
  | lexeme lexeme =>
    obtain ⟨rfl, written⟩ := cutLast.eq_text
    have complete := ends lexeme List.getLast?_concat
    cases lexeme with
    | numeral literal =>
      rw [isExtendedBy, startsWithDigit, digit, Bool.true_or] at complete
      cases complete
    | word letters =>
      have pi : letters = ['π'] := by
        by_contra other
        have name : isNameChar d = true := isNameChar_of_isDigit digit
        simp [isExtendedBy, other, name] at complete
      rw [pi]
      rfl
    | sign op =>
      cases op with
      | percent => rfl
      | binary op =>
        cases op with
        | modulo => exact absurd rfl written
        | _ => rfl
    | opening | closing => rfl

end Lexeme

namespace Display
open Lexeme Text

variable {display : String} {literal : Literal}

theorem EndsInLiteral.exists_split (ends : EndsInLiteral display literal) : ∃ first before,
    display.toList = first ++ literal.text ∧ literal.IsWritten ∧ Cut first before ∧
      EndBefore literal.text before := by
  obtain ⟨before, cut⟩ := ends
  obtain ⟨first, last, split, cutFirst, cutLast, complete⟩ := cut.split
  obtain ⟨rfl, written⟩ := cutLast.eq_text
  exact ⟨first, before, split, written, cutFirst, complete⟩

theorem noName_of_digits {start digits : List Char} (all : ∀ c ∈ digits, c.isDigit = true)
    (stop : start.reverse.head?.any isNameChar = false) :
    ((start ++ digits).reverse.takeWhile isNameChar).any isNameStart = false := by
  have names : ∀ c ∈ digits.reverse, isNameChar c = true :=
    fun c mem => isNameChar_of_isDigit (all c (List.mem_reverse.mp mem))
  rw [List.reverse_append, takeWhile_append_all names stop, List.any_reverse, List.any_eq_false]
  intro c mem isStart
  have noDigit := not_digit_of_isNameStart isStart []
  rw [all c mem, Bool.true_or] at noDigit
  cases noDigit

theorem EndsInLiteral.noName (ends : EndsInLiteral display literal) :
    endsInName display = false := by
  obtain ⟨first, before, split, written, cut, complete⟩ := ends.exists_split
  obtain ⟨whole, fraction⟩ := literal
  rw [endsInName, split]
  -- the digits at the end are those behind the point, or all of the literal if it has no point
  by_cases integral : fraction = []
  · subst integral
    obtain ⟨d, rest, rfl⟩ := List.exists_cons_of_ne_nil (written.some.resolve_right (· rfl))
    have digit : d.isDigit = true := written.whole d List.mem_cons_self
    exact noName_of_digits written.whole (cut.noName_before_digit digit complete)
  · rw [Literal.text_of_fraction integral, ← List.append_assoc, List.append_cons]
    exact noName_of_digits written.fraction (by simp [isNameChar])

theorem EndsInLiteral.insert_eq_append (ends : EndsInLiteral display literal)
    (zero : display ≠ "0") (noFailure : display ≠ failure) (text : String) :
    insert display text = display ++ text := by
  rw [insert_eq_join zero noFailure, join, ends.noName, Bool.false_and, if_neg Bool.false_ne_true]

theorem EndsInLiteral.scan_insert (ends : EndsInLiteral display literal) (zero : display ≠ "0")
    (noFailure : display ≠ failure) (d : Decimal) : ∃ others,
      scan 0 display.toList = .ok (others ++ [numeral literal]) ∧
      scan 0 (insert display (String.ofList d.text)).toList =
        .ok (others ++ (literal.followedBy d.literal).map numeral) := by
  obtain ⟨first, before, split, written, cut, complete⟩ := ends.exists_split
  have alone := cut_literal written
  have longer : EndBefore (literal.text ++ d.text) before := by
    intro lexeme last
    rw [isExtendedBy_append alone.ne_nil alone.ne_point]
    exact complete lexeme last
  have cutBoth := cut.append
    (cut_followedBy written (Decimal.literal_isWritten d) Nat.toDigits_ne_nil) longer
  refine ⟨before.filterMap Piece.lexeme?, ?_, ?_⟩
  · rw [split, (cut.append alone complete).scan_eq, List.filterMap_append]
    rfl
  · rw [ends.insert_eq_append zero noFailure, String.toList_append, String.toList_ofList, split,
      List.append_assoc]
    change scan 0 (first ++ (literal.text ++ d.literal.text)) = _
    rw [cutBoth.scan_eq, List.filterMap_append, ← List.map_map, List.filterMap_map]
    simp [Function.comp_def, Piece.lexeme?]

/-- A number that is entered right behind a literal is read as one of its own exactly if it keeps
apart from the literal. -/
theorem EndsInLiteral.tokenize_insert_iff (ends : EndsInLiteral display literal)
    (zero : display ≠ "0") (noFailure : display ≠ failure) {d : Decimal}
    (coarse : 10 ^ d.places ≤ 2 ^ 53) :
    tokenize (insert display (String.ofList d.text)) =
        tokenize (display ++ " " ++ String.ofList d.text) ↔ literal.KeepsApart d := by
  obtain ⟨others, scanned, inserted⟩ := ends.scan_insert zero noFailure d
  have written : (numeral d.literal).IsWritten := Decimal.literal_isWritten d
  have number : scan 0 (String.ofList d.text).toList = .ok [numeral d.literal] := by
    rw [String.toList_ofList]
    exact scan_alone written 0
  obtain ⟨first, rest, split⟩ : ∃ first rest, literal.followedBy d.literal = first :: rest := by
    rw [Literal.followedBy]
    split_ifs <;> exact ⟨_, _, rfl⟩
  rw [tokenize, tokenize, inserted, scan_spaced scanned number, List.append_assoc]
  calc
    _ ↔ tokens (others ++ (first :: rest).map numeral) =
          tokens (others ++ [literal, d.literal].map numeral) := by
        rw [← split]
        exact ⟨Except.ok.inj, congrArg Except.ok⟩
    _ ↔ tokens ((first :: rest).map numeral) = tokens ([literal, d.literal].map numeral) :=
        tokens_append_numeral_iff
    _ ↔ (first :: rest).map Literal.value = [literal, d.literal].map Literal.value := by
        rw [tokens_numerals, tokens_numerals, ← Function.comp_def, ← List.map_map, ← List.map_map]
        exact List.map_inj_right fun _ _ => Token.number.inj
    _ ↔ literal.KeepsApart d := by
        rw [← split, List.map_cons, List.map_singleton, Decimal.value_literal]
        exact Decimal.values_followedBy_iff literal coarse

theorem tokenize_insert_shownText_iff (zero : display ≠ "0") (noFailure : display ≠ failure)
    (read : ∃ tokens, tokenize display = .ok tokens) (negative : Bool) {d : Decimal}
    (coarse : 10 ^ d.places ≤ 2 ^ 53) :
    tokenize (insert display (shownText negative d)) =
        tokenize (display ++ " " ++ shownText negative d) ↔
      ∀ literal, EndsInLiteral display literal → negative = true ∨ literal.KeepsApart d := by
  have readText : ∃ tokens, tokenize (shownText negative d) = .ok tokens :=
    ⟨_, tokenize_shownText negative d⟩
  cases negative with
  | true =>
    have apart : startsNumber (shownText true d) = false := by
      rw [startsNumber, shownText, if_pos rfl, toList_negation]
      rfl
    exact iff_of_true (tokenize_insert zero noFailure read readText fun _ => apart)
      fun _ _ => .inl rfl
  | false =>
    constructor
    · intro same literal ends
      exact .inr ((ends.tokenize_insert_iff zero noFailure coarse).mp same)
    · intro keepsApart
      by_cases some : ∃ literal, EndsInLiteral display literal
      · obtain ⟨literal, ends⟩ := some
        have keeps := (keepsApart literal ends).resolve_left Bool.false_ne_true
        exact (ends.tokenize_insert_iff zero noFailure coarse).mpr keeps
      · exact tokenize_insert zero noFailure read readText fun literal => absurd literal some

end Display

namespace Calculator
open Binary64 Lexeme

/-- A finite answer is read as if a blank stood in front of it, unless the display ends in a literal
and the answer shows no sign: then it keeps apart from a literal with places only if it has places
too and is below one. Its text follows without a blank then, and its first digits go on with the
literal. -/
theorem answer_stays_apart_iff (c : Calculator) (x : Float) (answer : c.answer = some x)
    (finite : isFinite x = true) (zero : c.display ≠ "0")
    (noFailure : c.display ≠ Display.failure) (read : ∃ tokens, tokenize c.display = .ok tokens) :
    ∃ text, Display.readable? x = some text ∧
      text = Display.shownText (Decimal.showsSign x) (Decimal.rounded x) ∧
      (tokenize c.recallAnswer.display = tokenize (c.display ++ " " ++ text) ↔
        ∀ literal, Display.EndsInLiteral c.display literal →
          Decimal.showsSign x = true ∨ literal.KeepsApart (Decimal.rounded x)) ∧
      ∀ literal, Display.EndsInLiteral c.display literal → Decimal.showsSign x = false →
        c.recallAnswer.display = c.display ++ text ∧ ∃ others,
          scan 0 c.display.toList = .ok (others ++ [.numeral literal]) ∧
          scan 0 c.recallAnswer.display.toList =
            .ok (others ++ (literal.followedBy (Decimal.rounded x).literal).map .numeral) := by
  let d := Decimal.rounded x
  have readable := Display.readable?_of_isFinite finite
  have recalled : c.recallAnswer.display =
      Display.insert c.display (Display.shownText (Decimal.showsSign x) d) :=
    congrArg display (recallAnswer_of_readable answer readable)
  have coarse : 10 ^ d.places ≤ 2 ^ 53 := by
    have few : d.places ≤ Decimal.shownPlaces := Decimal.places_reduce_le _ _
    exact Nat.le_trans (Nat.pow_le_pow_right (by omega) few) (by decide)
  refine ⟨_, readable, rfl, ?_, ?_⟩
  · rw [recalled]
    exact Display.tokenize_insert_shownText_iff zero noFailure read _ coarse
  · intro literal ends sign
    rw [recalled, sign]
    obtain ⟨others, scanned, inserted⟩ := ends.scan_insert zero noFailure d
    exact ⟨ends.insert_eq_append zero noFailure _, others, scanned, inserted⟩

theorem answer_stays_apart_behind_places : ∃ (c : Calculator) (x : Float), c.display = "1.5" ∧
    c.answer = some x ∧ isFinite x = true ∧ c.display ≠ "0" ∧ c.display ≠ Display.failure ∧
    (∃ tokens, tokenize c.display = .ok tokens) ∧
    ∃ text, Display.readable? x = some text ∧
      text = Display.shownText (Decimal.showsSign x) (Decimal.rounded x) ∧
      (tokenize c.recallAnswer.display = tokenize (c.display ++ " " ++ text) ↔
        ∀ literal, Display.EndsInLiteral c.display literal →
          Decimal.showsSign x = true ∨ literal.KeepsApart (Decimal.rounded x)) ∧
      ∀ literal, Display.EndsInLiteral c.display literal → Decimal.showsSign x = false →
        c.recallAnswer.display = c.display ++ text ∧ ∃ others,
          scan 0 c.display.toList = .ok (others ++ [.numeral literal]) ∧
          scan 0 c.recallAnswer.display.toList =
            .ok (others ++ (literal.followedBy (Decimal.rounded x).literal).map .numeral) := by
  let x : Float := (Literal.mk ['0'] ['2', '5']).value
  let c : Calculator := { display := "1.5", answer := some x }
  have finite : isFinite x = true := by decide +kernel
  have zero : c.display ≠ "0" := by decide
  have noFailure : c.display ≠ Display.failure := by decide
  have scanned : scan 0 c.display.toList = .ok [.numeral ⟨['1'], ['5']⟩] := by cbv
  have read : ∃ tokens, tokenize c.display = .ok tokens := exists_map_eq_ok.mpr ⟨_, scanned⟩
  exact ⟨c, x, rfl, rfl, finite, zero, noFailure, read,
    answer_stays_apart_iff c x rfl finite zero noFailure read⟩

/-- Behind `1`, the answer `5` goes on with it: the display is `15`, and it is read as fifteen. -/
theorem answer_joins_literal : ∃ (c : Calculator) (x : Float) (text : String), c.display = "1" ∧
    c.answer = some x ∧ isFinite x = true ∧ c.display ≠ "0" ∧ c.display ≠ Display.failure ∧
    (∃ tokens, tokenize c.display = .ok tokens) ∧ Display.readable? x = some text ∧
    text = "5" ∧ c.recallAnswer.display = "15" ∧
    tokenize c.recallAnswer.display ≠ tokenize (c.display ++ " " ++ text) := by
  let x : Float := (Literal.mk ['5'] []).value
  let c : Calculator := { display := "1", answer := some x }
  have finite : isFinite x = true := by decide +kernel
  have five : Display.readable? x = some "5" := by decide +kernel
  have scanned : scan 0 "1".toList = .ok [.numeral ⟨['1'], []⟩] := by cbv
  have fifteen : scan 0 "15".toList = .ok [.numeral ⟨['1', '5'], []⟩] := by cbv
  have apart : scan 0 "1 5".toList = .ok [.numeral ⟨['1'], []⟩, .numeral ⟨['5'], []⟩] := by cbv
  have recalled : c.recallAnswer.display = "15" := by
    rw [recallAnswer_of_readable rfl five]
    decide
  refine ⟨c, x, "5", rfl, rfl, finite, by decide, by decide, exists_map_eq_ok.mpr ⟨_, scanned⟩,
    five, rfl, recalled, ?_⟩
  change tokenize c.recallAnswer.display ≠ tokenize "1 5"
  rw [recalled, tokenize, tokenize, fifteen, apart]
  intro same
  exact absurd (congrArg List.length (Except.ok.inj same)) (by decide)

end Calculator

end DeskCalculator
