import DeskCalculator.Calculator
import DeskCalculator.Proofs.Lexeme.Joining
import DeskCalculator.Proofs.Lexeme.Touching
set_option autoImplicit false

namespace DeskCalculator

namespace Display
open Lexeme Text

/-- Whether the last character of the text is a digit of this literal. -/
def EndsInLiteral (s : String) (literal : Literal) : Prop :=
  ∃ before, Cut s.toList (before ++ [.lexeme (.numeral literal)])

def startsNumber (s : String) : Bool :=
  s.toList.head?.any fun c => c.isDigit || c == '.'

section

variable {display text : String} {first last : List Lexeme}

theorem EndsInLiteral.exists_lexemes {literal : Literal} (ends : EndsInLiteral display literal)
    (scanned : scan 0 display.toList = .ok first) : ∃ others, first = others ++ [.numeral literal] := by
  obtain ⟨before, cut⟩ := ends
  rw [cut.scan_eq, List.filterMap_append] at scanned
  exact ⟨_, (Except.ok.inj scanned).symm⟩

theorem endsInName_of_cut {letters : List Char} {before : List Piece}
    (cut : Cut display.toList (before ++ [.lexeme (.word letters)])) (other : letters ≠ ['π']) :
    endsInName display = true := by
  obtain ⟨start, rest, split, -, cutLast, -⟩ := cut.split
  obtain ⟨rfl, written⟩ := cutLast.eq_text
  obtain ⟨c, cs, rfl, isStart, all⟩ := written.resolve_left other
  have names : ∀ d ∈ (c :: cs).reverse, isNameChar d = true := by
    intro d mem
    rcases List.mem_cons.mp (List.mem_reverse.mp mem) with rfl | later
    · exact isNameChar_iff.mpr (.inl isStart)
    · exact all d later
  rw [endsInName, split]
  change ((start ++ (c :: cs)).reverse.takeWhile isNameChar).any isNameStart = true
  rw [List.reverse_append, List.takeWhile_append_of_pos names, List.any_append, List.any_reverse,
    List.any_cons, isStart]
  rfl

theorem endBefore_inserted {pieces : List Piece} (cut : Cut display.toList pieces)
    (noNames : ¬ (endsInName display = true ∧ startsWithNameChar text = true))
    (apart : (∃ literal, EndsInLiteral display literal) → startsNumber text = false) :
    EndBefore text.toList pieces := by
  intro lexeme same
  obtain ⟨before, rfl⟩ := List.getLast?_eq_some_iff.mp same
  cases lexeme with
  | sign | opening | closing => rfl
  | numeral literal =>
    have noNumber := apart ⟨literal, before, cut⟩
    rw [startsNumber] at noNumber
    cases entered : text.toList with
    | nil => simp [isExtendedBy, startsWithDigit]
    | cons c cs =>
      rw [entered] at noNumber
      obtain ⟨noDigit, noPoint⟩ : c.isDigit = false ∧ c ≠ '.' := by simpa using noNumber
      simp [isExtendedBy, startsWithDigit, noDigit, noPoint]
  | word letters =>
    by_cases pi : letters = ['π']
    · rw [pi]
      rfl
    · have none := Bool.eq_false_iff.mpr fun starts => noNames ⟨endsInName_of_cut cut pi, starts⟩
      rw [startsWithNameChar] at none
      rw [isExtendedBy, none, Bool.and_false]

theorem scan_spaced (scanned : scan 0 display.toList = .ok first)
    (scannedText : scan 0 text.toList = .ok last) :
    scan 0 (display ++ " " ++ text).toList = .ok (first ++ last) := by
  have blank : ∀ c ∈ [' '], isBlank c = true := List.all_eq_true.mp rfl
  rw [String.toList_append, String.toList_append]
  change scan 0 (display.toList ++ [' '] ++ text.toList) = _
  rw [scan_append_blanks_append (List.cons_ne_nil _ _) blank, scanned, scannedText]
  rfl

theorem insert_eq_join (zero : display ≠ "0") (noFailure : display ≠ failure) (text : String) :
    insert display text = join display text := by
  rw [insert, if_neg (by simp [zero, noFailure])]

theorem scan_insert (zero : display ≠ "0") (noFailure : display ≠ failure)
    (scanned : scan 0 display.toList = .ok first) (scannedText : scan 0 text.toList = .ok last)
    (apart : (∃ literal, EndsInLiteral display literal) → startsNumber text = false) :
    scan 0 (insert display text).toList = .ok (first ++ last) := by
  rw [insert_eq_join zero noFailure, join]
  split
  · exact scan_spaced scanned scannedText
  · rename_i noNames
    obtain ⟨pieces, cut, rfl⟩ := exists_cut_of_scan scanned
    have ends := endBefore_inserted cut (mt Bool.and_eq_true_iff.mpr noNames) apart
    rw [String.toList_append]
    exact scan_touching cut ends scannedText 0

theorem tokenize_insert (zero : display ≠ "0") (noFailure : display ≠ failure)
    (read : ∃ tokens, tokenize display = .ok tokens)
    (readText : ∃ tokens, tokenize text = .ok tokens)
    (apart : (∃ literal, EndsInLiteral display literal) → startsNumber text = false) :
    tokenize (insert display text) = tokenize (display ++ " " ++ text) := by
  obtain ⟨first, scanned⟩ := exists_map_eq_ok.mp read
  obtain ⟨last, scannedText⟩ := exists_map_eq_ok.mp readText
  rw [tokenize, tokenize, scan_insert zero noFailure scanned scannedText apart,
    scan_spaced scanned scannedText]

end

end Display

namespace Calculator
open Lexeme

/-- What is entered behind a display that can be read is read as if a blank stood between them: the
lexemes are those of the display and those of the entered text. Only the digits of a literal at the
end of the display may go on. -/
theorem names_stay_apart (c : Calculator) (text : String) (zero : c.display ≠ "0")
    (noFailure : c.display ≠ Display.failure) (read : ∃ tokens, tokenize c.display = .ok tokens)
    (readText : ∃ tokens, tokenize text = .ok tokens)
    (apart : ¬ ((∃ literal, Display.EndsInLiteral c.display literal) ∧
      Display.startsNumber text = true)) :
    tokenize (c.insert text).display = tokenize (c.display ++ " " ++ text) ∧
      ∃ first last, scan 0 c.display.toList = .ok first ∧ scan 0 text.toList = .ok last ∧
        scan 0 (c.insert text).display.toList = .ok (first ++ last) := by
  have noNumber : (∃ literal, Display.EndsInLiteral c.display literal) →
      Display.startsNumber text = false := fun literal =>
    Bool.eq_false_iff.mpr fun number => apart ⟨literal, number⟩
  obtain ⟨first, scanned⟩ := exists_map_eq_ok.mp read
  obtain ⟨last, scannedText⟩ := exists_map_eq_ok.mp readText
  exact ⟨Display.tokenize_insert zero noFailure read readText noNumber, first, last, scanned,
    scannedText, Display.scan_insert zero noFailure scanned scannedText noNumber⟩

/-- The digit at the end of `2e3` belongs to a name, so a digit that is entered stays apart. -/
theorem names_stay_apart_digit : ∃ c : Calculator, c.display = "2e3" ∧ c.display ≠ "0" ∧
    c.display ≠ Display.failure ∧ (∃ tokens, tokenize c.display = .ok tokens) ∧
    (∃ tokens, tokenize "5" = .ok tokens) ∧
    ¬ ((∃ literal, Display.EndsInLiteral c.display literal) ∧ Display.startsNumber "5" = true) ∧
    tokenize (c.insert "5").display = tokenize (c.display ++ " " ++ "5") ∧
    ∃ first last, scan 0 c.display.toList = .ok first ∧ scan 0 "5".toList = .ok last ∧
      scan 0 (c.insert "5").display.toList = .ok (first ++ last) := by
  let c : Calculator := { display := "2e3" }
  have zero : c.display ≠ "0" := by decide
  have noFailure : c.display ≠ Display.failure := by decide
  have scanned : scan 0 c.display.toList = .ok [.numeral ⟨['2'], []⟩, .word ['e', '3']] := by cbv
  have scannedFive : scan 0 "5".toList = .ok [.numeral ⟨['5'], []⟩] := by cbv
  have read : ∃ tokens, tokenize c.display = .ok tokens := exists_map_eq_ok.mpr ⟨_, scanned⟩
  have readFive : ∃ tokens, tokenize "5" = .ok tokens := exists_map_eq_ok.mpr ⟨_, scannedFive⟩
  have apart : ¬ ((∃ literal, Display.EndsInLiteral c.display literal) ∧
      Display.startsNumber "5" = true) := by
    rintro ⟨⟨literal, ends⟩, -⟩
    obtain ⟨others, same⟩ := ends.exists_lexemes scanned
    have last := congrArg List.getLast? same
    rw [List.getLast?_concat] at last
    cases last
  exact ⟨c, rfl, zero, noFailure, read, readFive, apart,
    names_stay_apart c "5" zero noFailure read readFive apart⟩

end Calculator

end DeskCalculator
