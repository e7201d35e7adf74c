import DeskCalculator.Proofs.Decimal.Rounded
import DeskCalculator.Proofs.LeadingZero
import DeskCalculator.Proofs.Lexeme.Joining
import DeskCalculator.Proofs.Lexeme.Touching
set_option autoImplicit false

namespace DeskCalculator

/-- The literals that are read where one is written right behind another. -/
def Literal.followedBy (first second : Literal) : List Literal :=
  if first.fraction = [] then [⟨first.whole ++ second.whole, second.fraction⟩]
  else if second.fraction = [] then [⟨first.whole, first.fraction ++ second.whole⟩]
  else [⟨first.whole, first.fraction ++ second.whole⟩, ⟨[], second.fraction⟩]

/-- Whether a number can be written right behind the literal and still has its own value. -/
def Literal.KeepsApart (l : Literal) (d : Decimal) : Prop :=
  l.fraction ≠ [] ∧ d.places ≠ 0 ∧ d.coefficient < 10 ^ d.places

theorem Literal.text_append_whole (digits whole fraction : List Char) :
    (Literal.mk (digits ++ whole) fraction).text = digits ++ (Literal.mk whole fraction).text := by
  rw [text, text]
  split
  · rfl
  · exact List.append_assoc _ _ _

namespace Lexeme

theorem cut_numeral {l : Literal} (written : l.IsWritten) {rest : List Char} {pieces : List Piece}
    (ends : (numeral l).isExtendedBy rest = false) (later : Cut rest pieces) :
    Cut (l.text ++ rest) (.lexeme (numeral l) :: pieces) := by
  have isWritten : (numeral l).IsWritten := written
  exact .lexeme rfl ((isLongest_iff isWritten).mpr ends) later

theorem cut_literal {l : Literal} (written : l.IsWritten) : Cut l.text [.lexeme (numeral l)] := by
  have alone := cut_numeral written (by simp [isExtendedBy, startsWithDigit]) .nil
  rwa [List.append_nil] at alone

theorem cut_followedBy {first second : Literal} (written : first.IsWritten)
    (writtenSecond : second.IsWritten) (some : second.whole ≠ []) :
    Cut (first.text ++ second.text) ((first.followedBy second).map (.lexeme ∘ numeral)) := by
  have digits : ∀ c ∈ first.fraction ++ second.whole, c.isDigit = true := fun c mem =>
    (List.mem_append.mp mem).elim (written.fraction c) (writtenSecond.whole c)
  obtain ⟨whole, fraction⟩ := first
  obtain ⟨secondWhole, places⟩ := second
  have joined : fraction ++ secondWhole ≠ [] := List.append_ne_nil_of_right_ne_nil _ some
  rw [Literal.followedBy]
  split_ifs with integral secondIntegral
  · subst integral
    have text : (Literal.mk whole []).text = whole := rfl
    have all : ∀ c ∈ whole ++ secondWhole, c.isDigit = true := fun c mem =>
      (List.mem_append.mp mem).elim (written.whole c) (writtenSecond.whole c)
    rw [text, ← Literal.text_append_whole]
    exact cut_literal ⟨all, writtenSecond.fraction, .inl (List.append_ne_nil_of_right_ne_nil _ some)⟩
  · subst secondIntegral
    have text : (Literal.mk secondWhole []).text = secondWhole := rfl
    rw [text, Literal.text_of_fraction integral, List.append_assoc, List.cons_append,
      ← Literal.text_of_fraction joined]
    exact cut_literal ⟨written.whole, digits, .inr joined⟩
  · have split : (Literal.mk whole fraction).text ++ (Literal.mk secondWhole places).text =
        (Literal.mk whole (fraction ++ secondWhole)).text ++ (Literal.mk [] places).text := by
      rw [Literal.text_of_fraction integral, Literal.text_of_fraction secondIntegral,
        Literal.text_of_fraction joined, Literal.text_of_fraction secondIntegral,
        List.append_assoc, List.append_assoc, List.cons_append, List.cons_append,
        List.append_assoc]
      rfl
    -- the literal has its point, so that it does not go on with another one
    have ends : (numeral ⟨whole, fraction ++ secondWhole⟩).isExtendedBy
        (Literal.mk [] places).text = false := by
      rw [Literal.text_of_fraction secondIntegral]
      simp [isExtendedBy, startsWithDigit, integral]
    have writtenJoined : (Literal.mk whole (fraction ++ secondWhole)).IsWritten :=
      ⟨written.whole, digits, .inr joined⟩
    have writtenPlaces : (Literal.mk [] places).IsWritten :=
      ⟨List.forall_mem_nil _, writtenSecond.fraction, .inr secondIntegral⟩
    rw [split]
    exact cut_numeral writtenJoined ends (cut_literal writtenPlaces)

theorem tokens_numerals (literals : List Literal) :
    tokens (literals.map numeral) = literals.map fun l => .number l.value := by
  induction literals with
  | nil => rfl
  | cons l others ih =>
    cases others with
    | nil => rfl
    | cons next others =>
      rw [List.map_cons, List.map_cons, tokens_of_apart (Bool.and_false _), ← List.map_cons, ih]
      rfl

theorem tokens_append_numeral_iff {others rest last : List Lexeme} {l m : Literal} :
    tokens (others ++ numeral l :: rest) = tokens (others ++ numeral m :: last) ↔
      tokens (numeral l :: rest) = tokens (numeral m :: last) := by
  have same : seam others (numeral l :: rest) = seam others (numeral m :: last) := by
    rw [seam, seam]
    cases others.getLast? with
    | none => rfl
    | some left => rfl
  rw [tokens_append, tokens_append, same, List.append_cancel_left_eq]

end Lexeme

namespace Decimal
open Binary64

theorem value_append_zero (l : Literal) :
    (Literal.mk l.whole (l.fraction ++ ['0'])).value = l.value := by
  have digits : Nat.ofDigitChars 10 (l.whole ++ (l.fraction ++ ['0'])) 0 =
      Nat.ofDigitChars 10 (l.whole ++ l.fraction) 0 * 10 := by
    rw [← List.append_assoc, Nat.ofDigitChars_append, Nat.ofDigitChars_cons, Nat.ofDigitChars_nil,
      Nat.mul_comm]
    rfl
  rw [Literal.value, Literal.value, Literal.decimal, Literal.decimal, digits, List.length_append,
    toFloat_eq, toFloat_eq, ofRatio, ofRatio, Nat.mul_right_comm, List.length_singleton,
    Nat.pow_succ, nearestRank_mul_right (Nat.pow_pos (by omega)) (by omega)]

/-- What is left of a number without its whole part has the value of the number exactly if the
number is below one. -/
theorem value_fraction_iff {d : Decimal} (coarse : 10 ^ d.places ≤ 2 ^ 53) :
    (Literal.mk [] d.literal.fraction).value = d.toFloat ↔ d.coefficient < 10 ^ d.places := by
  have some : 0 < 10 ^ d.places := Nat.pow_pos (by omega)
  have fraction : (Literal.mk [] d.literal.fraction).decimal =
      ⟨d.coefficient % 10 ^ d.places, d.places⟩ := by
    rw [Literal.decimal, List.nil_append, literal, ofDigitChars_lastDigits, length_lastDigits,
      Nat.zero_mul, Nat.zero_add]
  rw [Literal.value, fraction]
  constructor
  · intro same
    by_contra above
    have ranks := congrArg rank same
    rw [toFloat_eq, toFloat_eq, ofRatio, ofRatio, rank_ofRank false (nearestRank_le _ _),
      rank_ofRank false (nearestRank_le _ _)] at ranks
    have apart := nearestRank_lt_of_one some coarse (Nat.mod_lt d.coefficient some)
      (Nat.le_of_not_lt above)
    exact Nat.ne_of_lt apart ranks
  · intro below
    rw [Nat.mod_eq_of_lt below]

theorem values_followedBy_iff (l : Literal) {d : Decimal} (coarse : 10 ^ d.places ≤ 2 ^ 53) :
    (l.followedBy d.literal).map Literal.value = [l.value, d.toFloat] ↔ l.KeepsApart d := by
  have places : d.literal.fraction = [] ↔ d.places = 0 := by
    rw [← List.length_eq_zero_iff, literal, length_lastDigits]
  rw [Literal.followedBy, Literal.KeepsApart]
  split_ifs with integral secondIntegral
  · simp [integral]
  · simp [places.mp secondIntegral]
  · rw [List.map_cons, List.map_singleton, List.cons_eq_cons, List.cons_eq_cons,
      value_fraction_iff coarse]
    constructor
    · rintro ⟨-, below, -⟩
      exact ⟨integral, mt places.mpr secondIntegral, below⟩
    · rintro ⟨-, -, below⟩
      have zero : d.literal.whole = ['0'] := by
        rw [literal]
        change Nat.toDigits 10 (d.coefficient / 10 ^ d.places) = ['0']
        rw [Nat.div_eq_of_lt below]
        rfl
      rw [zero, value_append_zero]
      exact ⟨rfl, below, rfl⟩

end Decimal

end DeskCalculator
