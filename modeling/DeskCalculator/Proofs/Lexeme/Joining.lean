import DeskCalculator.Proofs.Lexeme.Product
import DeskCalculator.Proofs.Lexeme.Stray
set_option autoImplicit false

namespace DeskCalculator.Lexeme
open Text

def Meet (first last : List Lexeme) : Prop :=
  ∃ left right, first.getLast? = some left ∧ last.head? = some right ∧ LeavesProduct left right

section

variable {first last : List Lexeme}

theorem seam_of_meet (meet : Meet first last) :
    seam first last = [.operator (.binary .times)] := by
  obtain ⟨left, right, ends, starts, product⟩ := meet
  rw [seam, ends, starts]
  exact if_pos (leavesProduct_iff.mp product)

theorem seam_of_not_meet (none : ¬ Meet first last) : seam first last = [] := by
  rw [seam]
  split
  · rename_i left right ends starts
    have unjoined := fun product => none ⟨left, right, ends, starts, leavesProduct_iff.mpr product⟩
    exact if_neg unjoined
  · rfl

end

theorem scan_append_blanks_append {blanks : List Char} (some : blanks ≠ [])
    (blank : ∀ c ∈ blanks, isBlank c = true) (position : Nat) (a b : List Char) :
    scan position (a ++ blanks ++ b) = do
      let first ← scan position a
      let last ← (scan position b).mapError (Fault.moved (a.length + blanks.length))
      return first ++ last := by
  have stops := (stops_of_blank blank).append some b
  rw [List.append_assoc, scan_append stops, scan_blanks_append blank, Nat.add_assoc, scan_add]

end DeskCalculator.Lexeme

namespace DeskCalculator
open Lexeme

/-- Whether a product is left unwritten between the last lexeme of the first text and the first
lexeme of the second. -/
def MeetInProduct (a b : String) : Prop :=
  ∃ first last, scan 0 a.toList = .ok first ∧ scan 0 b.toList = .ok last ∧ Meet first last

section

variable {a b blanks : String}

theorem meetInProduct_iff {first last : List Lexeme} (scanned : scan 0 a.toList = .ok first)
    (scannedLast : scan 0 b.toList = .ok last) : MeetInProduct a b ↔ Meet first last := by
  refine ⟨?_, fun meet => ⟨first, last, scanned, scannedLast, meet⟩⟩
  rintro ⟨_, _, again, lastAgain, meet⟩
  cases scanned.symm.trans again
  cases scannedLast.symm.trans lastAgain
  exact meet

/-- With white space between them, two texts that can be read are read as each is by itself, with a
product sign in the middle exactly when one is left unwritten there. A fault of the first text stays
the fault, and a fault of the second alone is as much farther on as that text then begins. -/
theorem tokenize_append_blanks (some : blanks ≠ "")
    (blank : ∀ c ∈ blanks.toList, Text.isBlank c = true) :
    (∀ first last, tokenize a = .ok first → tokenize b = .ok last → ∃ between,
      tokenize (a ++ blanks ++ b) = .ok (first ++ between ++ last) ∧
      (MeetInProduct a b ∧ between = [.operator (.binary .times)] ∨
        ¬ MeetInProduct a b ∧ between = [])) ∧
    (∀ fault, tokenize a = .error fault → tokenize (a ++ blanks ++ b) = .error fault) ∧
    ∀ first fault, tokenize a = .ok first → tokenize b = .error fault → ∃ c position,
      fault = .unexpectedCharacter c position ∧ tokenize (a ++ blanks ++ b) =
        .error (.unexpectedCharacter c (a.length + blanks.length + position)) := by
  have joined := scan_append_blanks_append (mt String.toList_eq_nil_iff.mp some) blank 0
    a.toList b.toList
  rw [← String.toList_append, ← String.toList_append] at joined
  refine ⟨fun first last readFirst readLast => ?_, fun fault failed => ?_,
    fun first fault read failed => ?_⟩
  · obtain ⟨lexemes, scanned, rfl⟩ := map_eq_ok readFirst
    obtain ⟨others, scannedLast, rfl⟩ := map_eq_ok readLast
    rw [scanned, scannedLast] at joined
    refine ⟨seam lexemes others, ?_, ?_⟩
    · rw [tokenize, joined, ← tokens_append]
      rfl
    · rw [meetInProduct_iff scanned scannedLast]
      by_cases meet : Meet lexemes others
      · exact .inl ⟨meet, seam_of_meet meet⟩
      · exact .inr ⟨meet, seam_of_not_meet meet⟩
  · rw [tokenize, joined, map_eq_error_iff.mp failed]
    rfl
  · obtain ⟨lexemes, scanned, -⟩ := map_eq_ok read
    obtain ⟨c, position, rfl⟩ := fault_of_tokenize failed
    refine ⟨c, position, rfl, ?_⟩
    rw [tokenize, joined, scanned, map_eq_error_iff.mp failed, Nat.add_comm _ position]
    rfl

end

theorem tokenize_append_blanks_tab :
    tokenize ("2" ++ "\t " ++ "pi") = .ok [.number (Literal.mk ['2'] []).value,
      .operator (.binary .times), .number Constant.pi.value] ∧
    tokenize ("2" ++ "\t " ++ "3 $") = .error (.unexpectedCharacter '$' 5) := by
  have some : "\t " ≠ "" := by decide
  have blank : ∀ c ∈ "\t ".toList, Text.isBlank c = true := List.all_eq_true.mp (by cbv)
  have two : scan 0 "2".toList = .ok [.numeral ⟨['2'], []⟩] := by cbv
  have pi : scan 0 "pi".toList = .ok [.word ['p', 'i']] := by cbv
  have readTwo : tokenize "2" = .ok [.number (Literal.mk ['2'] []).value] := by
    rw [tokenize, two]
    rfl
  have readPi : tokenize "pi" = .ok [.number Constant.pi.value] := by
    rw [tokenize, pi]
    rfl
  have failed : tokenize "3 $" = .error (.unexpectedCharacter '$' 2) := by cbv
  have meet : MeetInProduct "2" "pi" := by
    refine (meetInProduct_iff two pi).mpr ⟨_, _, rfl, rfl, leavesProduct_iff.mpr ?_⟩
    rfl
  obtain ⟨together, -, -⟩ := tokenize_append_blanks (a := "2") (b := "pi") some blank
  obtain ⟨-, -, farther⟩ := tokenize_append_blanks (a := "2") (b := "3 $") some blank
  constructor
  · obtain ⟨between, read, ⟨-, rfl⟩ | ⟨none, -⟩⟩ := together _ _ readTwo readPi
    · exact read
    · exact absurd meet none
  · obtain ⟨c, position, same, moved⟩ := farther _ _ readTwo failed
    cases same
    exact moved

end DeskCalculator
